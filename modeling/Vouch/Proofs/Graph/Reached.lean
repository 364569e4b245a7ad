import Mathlib.Data.List.Nodup
import Vouch.Graph.Build
import Vouch.Proofs.Except

namespace Vouch

theorem Node.absorb_id (n : Node) (m : Mention) : (n.absorb m).1.id = n.id := by
  unfold Node.absorb
  split <;> rfl

namespace Graph

theorem hasNode_iff {g : Graph} {id : String} : g.hasNode id = true ↔ id ∈ g.ids := by
  simp [hasNode, ids]

theorem hasEdge_iff {g : Graph} {key : String × String × String} :
    g.hasEdge key = true ↔ key ∈ g.edges.map Edge.key := by
  simp [hasEdge]

theorem node?_eq_none_iff {g : Graph} {id : String} : g.node? id = none ↔ id ∉ g.ids := by
  simp [node?, ids]

theorem exists_node? {g : Graph} {id : String} (known : id ∈ g.ids) : ∃ n, g.node? id = some n := by
  cases found : g.node? id with
  | none => exact absurd known (node?_eq_none_iff.mp found)
  | some n => exact ⟨n, rfl⟩

theorem node?_id {g : Graph} {id : String} {n : Node} (found : g.node? id = some n) : n.id = id := by
  simpa using List.find?_some found

theorem mem_ids_of_node? {g : Graph} {id : String} {n : Node} (found : g.node? id = some n) :
    id ∈ g.ids := by
  rw [← node?_id found]
  exact List.mem_map_of_mem (List.mem_of_find?_eq_some found)

theorem replaceNode_ids (g : Graph) (n : Node) : (g.replaceNode n).ids = g.ids := by
  simp only [ids, replaceNode, List.map_map]
  refine List.map_congr_left fun m _ => ?_
  by_cases same : m.id = n.id <;> simp [same]

theorem addNode_ids (g : Graph) (id : String) (m : Mention) :
    (g.addNode id m).1.ids = if id ∈ g.ids then g.ids else g.ids ++ [id] := by
  unfold addNode
  cases found : g.node? id with
  | none =>
    rw [if_neg (node?_eq_none_iff.mp found)]
    simp [ids, Node.ofMention]
  | some n =>
    rw [if_pos (mem_ids_of_node? found)]
    exact replaceNode_ids g _

theorem addNode_edges (g : Graph) (id : String) (m : Mention) :
    (g.addNode id m).1.edges = g.edges := by
  unfold addNode
  split <;> rfl

/-- All that adding an edge can do: nothing, if its key is there, or putting it at the end. -/
theorem addEdge_cases {g g' : Graph} {e : Edge} {added : Bool} (run : g.addEdge e = .ok (g', added)) :
    e.source ∈ g.ids ∧ e.target ∈ g.ids ∧
      (e.key ∈ g.edges.map Edge.key ∧ added = false ∧ g' = g ∨
        e.key ∉ g.edges.map Edge.key ∧ added = true ∧ g' = { g with edges := g.edges ++ [e] }) := by
  unfold addEdge at run
  split at run
  · cases run
  split at run
  · cases run
  rename_i source target
  simp only [Bool.not_eq_true', Bool.not_eq_false, hasNode_iff] at source target
  refine ⟨source, target, ?_⟩
  split at run
  · rename_i there
    cases run
    exact Or.inl ⟨hasEdge_iff.mp there, rfl, rfl⟩
  · rename_i absent
    cases run
    exact Or.inr ⟨fun member => absent (hasEdge_iff.mpr member), rfl, rfl⟩

theorem addEdge_fresh {g : Graph} {e : Edge} (source : e.source ∈ g.ids) (target : e.target ∈ g.ids)
    (fresh : e.key ∉ g.edges.map Edge.key) :
    g.addEdge e = .ok ({ g with edges := g.edges ++ [e] }, true) := by
  have absent : ¬ g.hasEdge e.key = true := fun there => fresh (hasEdge_iff.mp there)
  simp [addEdge, hasNode_iff.mpr source, hasNode_iff.mpr target, absent]

theorem mark_keys (g : Graph) : g.mark.edges.map Edge.key = g.edges.map Edge.key := by
  simp only [mark, List.map_map]
  rfl

theorem fillLabels_ids (g : Graph) (naming : Naming) : (g.fillLabels naming).ids = g.ids := by
  simp [ids, fillLabels, Function.comp_def]

/-- What holds of every graph that its own operations have made: no identity has two nodes, edges
run between nodes, and no two edges have the same key. -/
structure Sound (g : Graph) : Prop where
  ids_nodup : g.ids.Nodup
  ends : ∀ e ∈ g.edges, e.source ∈ g.ids ∧ e.target ∈ g.ids
  keys_nodup : (g.edges.map Edge.key).Nodup

theorem Sound.empty (root : String) (builtAt : Option Timestamp) (defaultRole : String) :
    ({ root, builtAt, defaultRole } : Graph).Sound :=
  ⟨List.nodup_nil, by simp, List.nodup_nil⟩

theorem Sound.addNode {g : Graph} (sound : g.Sound) (id : String) (m : Mention) :
    (g.addNode id m).1.Sound where
  ids_nodup := by
    rw [addNode_ids]
    split
    · exact sound.ids_nodup
    · rename_i absent
      exact List.nodup_append.mpr ⟨sound.ids_nodup, List.nodup_singleton id, by
        intro a old b new
        rw [List.mem_singleton.mp new]
        rintro rfl
        exact absent old⟩
  ends := by
    intro e member
    rw [addNode_edges] at member
    have kept : ∀ a ∈ g.ids, a ∈ (g.addNode id m).1.ids := by
      intro a old
      rw [addNode_ids]
      split
      · exact old
      · exact List.mem_append_left _ old
    exact (sound.ends e member).imp (kept _) (kept _)
  keys_nodup := by
    rw [addNode_edges]
    exact sound.keys_nodup

theorem Sound.addEdge {g g' : Graph} {e : Edge} {added : Bool} (sound : g.Sound)
    (run : g.addEdge e = .ok (g', added)) : g'.Sound := by
  obtain ⟨source, target, ⟨_, _, rfl⟩ | ⟨fresh, _, rfl⟩⟩ := addEdge_cases run
  · exact sound
  · refine ⟨sound.ids_nodup, ?_, ?_⟩
    · intro f member
      rcases List.mem_append.mp member with old | new
      · exact sound.ends f old
      · rw [List.mem_singleton.mp new]
        exact ⟨source, target⟩
    · rw [List.map_append, List.map_singleton]
      refine List.nodup_append.mpr ⟨sound.keys_nodup, List.nodup_singleton _, ?_⟩
      intro a old b new
      rw [List.mem_singleton.mp new]
      rintro rfl
      exact fresh old

theorem Sound.mark {g : Graph} (sound : g.Sound) : g.mark.Sound where
  ids_nodup := sound.ids_nodup
  ends := by
    intro e member
    obtain ⟨f, old, rfl⟩ := List.mem_map.mp member
    exact sound.ends f old
  keys_nodup := by
    rw [mark_keys]
    exact sound.keys_nodup

theorem Sound.fillLabels {g : Graph} (sound : g.Sound) (naming : Naming) :
    (g.fillLabels naming).Sound where
  ids_nodup := by
    rw [fillLabels_ids]
    exact sound.ids_nodup
  ends := by
    rw [fillLabels_ids]
    exact sound.ends
  keys_nodup := sound.keys_nodup

theorem Sound.part {g part : Graph} (sound : g.Sound) (nodes : part.nodes.Sublist g.nodes)
    (edges : part.edges.Sublist g.edges)
    (ends : ∀ e ∈ part.edges, e.source ∈ part.ids ∧ e.target ∈ part.ids) : part.Sound :=
  ⟨sound.ids_nodup.sublist (nodes.map _), ends, sound.keys_nodup.sublist (edges.map _)⟩

/-- What a restriction keeps, with the marks as they were. -/
def selection (g : Graph) (ids : List String) (withEdges : Bool) : Graph where
  root := g.root
  builtAt := g.builtAt
  defaultRole := g.defaultRole
  nodes := g.nodes.filter (·.id ∈ ids)
  edges := if withEdges then g.edges.filter fun e => e.source ∈ ids && e.target ∈ ids else []
  skipped := g.skipped

theorem restrict_eq_mark (g : Graph) (ids : List String) (withEdges : Bool) :
    g.restrict ids withEdges = (g.selection ids withEdges).mark := rfl

theorem Sound.selection {g : Graph} (sound : g.Sound) (ids : List String) (withEdges : Bool) :
    (g.selection ids withEdges).Sound := by
  refine sound.part List.filter_sublist ?_ ?_
  · cases withEdges
    · exact List.nil_sublist _
    · exact List.filter_sublist
  · intro e member
    cases withEdges with
    | false => cases member
    | true =>
      simp only [Graph.selection, if_true, List.mem_filter, Bool.and_eq_true,
        decide_eq_true_eq] at member
      obtain ⟨old, source, target⟩ := member
      have kept : ∀ a ∈ g.ids, a ∈ ids → a ∈ (g.nodes.filter (·.id ∈ ids)).map Node.id := by
        intro a inGraph inIds
        obtain ⟨n, node, rfl⟩ := List.mem_map.mp inGraph
        exact List.mem_map.mpr ⟨n, List.mem_filter.mpr ⟨node, by simpa using inIds⟩, rfl⟩
      exact (sound.ends e old).imp (kept _ · source) (kept _ · target)

theorem Sound.restrict {g : Graph} (sound : g.Sound) (ids : List String) (withEdges : Bool) :
    (g.restrict ids withEdges).Sound :=
  (sound.selection ids withEdges).mark

theorem Sound.around {g : Graph} (sound : g.Sound) (naming : Naming) (id : String) (hops : Nat) :
    (g.around naming id hops).Sound := by
  have bare : (g.bare naming id).Sound := by
    refine Sound.addNode ⟨?_, ?_, ?_⟩ id _ <;> simp [ids]
  have part : ∀ p : Graph, p.Sound → Sound { p with scope := .neighborhood } :=
    fun p s => ⟨s.ids_nodup, s.ends, s.keys_nodup⟩
  unfold Graph.around
  split
  · exact part _ bare
  split
  · exact part _ (sound.restrict _ _)
  · exact part _ (sound.restrict _ _)

/-- The graphs that can come about: an empty one, and whatever the operations on graphs make of
those, failed mentions and the last strokes of a build among them. -/
inductive Reached : Graph → Prop
  | empty (root : String) (builtAt : Option Timestamp) (defaultRole : String) :
      Reached { root, builtAt, defaultRole }
  | addNode {g : Graph} (id : String) (m : Mention) : Reached g → Reached (g.addNode id m).1
  | addEdge {g g' : Graph} {e : Edge} {added : Bool} :
      Reached g → g.addEdge e = .ok (g', added) → Reached g'
  | mark {g : Graph} : Reached g → Reached g.mark
  | restrict {g : Graph} (ids : List String) (withEdges : Bool) :
      Reached g → Reached (g.restrict ids withEdges)
  | neighborhood {g g' : Graph} {naming : Naming} {id : String} {depth : Int} :
      Reached g → g.neighborhood naming id depth = .ok g' → Reached g'
  | fillLabels {g : Graph} (naming : Naming) : Reached g → Reached (g.fillLabels naming)
  | stamp {g : Graph} (builtAt : Option Timestamp) (skipped : List String) :
      Reached g → Reached { g with builtAt, skipped }

theorem Reached.sound {g : Graph} (reached : g.Reached) : g.Sound := by
  induction reached with
  | empty root builtAt defaultRole => exact .empty root builtAt defaultRole
  | addNode id m _ sound => exact sound.addNode id m
  | addEdge _ run sound => exact sound.addEdge run
  | mark _ sound => exact sound.mark
  | restrict ids withEdges _ sound => exact sound.restrict ids withEdges
  | @neighborhood g g' naming id depth _ run sound =>
    unfold Graph.neighborhood at run
    split at run
    · cases run
    · cases run
      exact sound.around naming id depth.toNat
  | fillLabels naming _ sound => exact sound.fillLabels naming
  | stamp builtAt skipped _ sound => exact ⟨sound.ids_nodup, sound.ends, sound.keys_nodup⟩

theorem Reached.mention {g g' : Graph} {id : String} {m : Mention} (reached : g.Reached)
    (run : g.mention id m = .ok g') : g'.Reached := by
  have grown := reached.addNode id m
  unfold Graph.mention at run
  split at run
  · rename_i added
    rw [added] at grown
    cases run
    exact grown
  · cases run

theorem Reached.enter {g g' : Graph} {c : Credential} (reached : g.Reached)
    (run : g.enter c = .ok g') : g'.Reached := by
  have linked : ∀ (g₁ : Graph) (last : Graph × Bool → Except GraphFault Graph), g₁.Reached →
      (∀ p, last p = .ok p.1) →
      (g₁.mention c.subject (c.subjectMention g₁.root) >>= fun g => g.addEdge c.edge >>= last) =
        .ok g' → g'.Reached := by
    intro g₁ last first kept run
    obtain ⟨g₂, subject, run⟩ := bind_eq_ok_iff.mp run
    obtain ⟨⟨g₃, added⟩, edge, run⟩ := bind_eq_ok_iff.mp run
    rw [kept] at run
    cases run
    exact (first.mention subject).addEdge edge
  unfold Graph.enter at run
  split at run
  · cases run
    exact reached
  dsimp only at run
  split at run
  · exact linked g _ reached (fun _ => rfl) run
  · obtain ⟨g₁, issuer, run⟩ := bind_eq_ok_iff.mp run
    exact linked g₁ _ (reached.mention issuer) (fun _ => rfl) run

theorem Reached.foldlM_enter {g g' : Graph} {cs : List Credential} (reached : g.Reached)
    (run : cs.foldlM Graph.enter g = .ok g') : g'.Reached := by
  induction cs generalizing g with
  | nil =>
    cases run
    exact reached
  | cons c cs ih =>
    rw [List.foldlM_cons] at run
    obtain ⟨next, entered, rest⟩ := bind_eq_ok_iff.mp run
    exact ih (reached.enter entered) rest

/-- Every graph that is built has come about by the operations on graphs. -/
theorem build_reached {naming : Naming} {root : String} {now : Reading} {store : Store} {g : Graph}
    (run : build naming root now store = .ok g) : g.Reached := by
  unfold build at run
  split at run
  · cases run
  split at run
  · cases run
  unfold ofItems at run
  split at run
  · cases run
  split at run
  · cases run
  · rename_i grown
    cases run
    have seeded : (seed naming root).Reached := (Reached.empty root none _).addNode root _
    exact ((seeded.foldlM_enter grown).mark.fillLabels naming).stamp _ _

end Graph

end Vouch
