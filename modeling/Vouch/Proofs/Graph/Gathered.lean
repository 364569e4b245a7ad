import Vouch.Proofs.Graph.Built
import Vouch.Proofs.Graph.Ledger

namespace Vouch

namespace Call

/-- What a graph offers by itself. What lies around an identity and the labels of a build are made
of several such calls. -/
def isOperation : Call → Bool
  | .neighborhood .. | .fillLabels _ => false
  | _ => true

/-- What a call says about an identity. -/
def mention? (id : String) : Call → Option Mention
  | .addNode other m => if other = id then some m else none
  | _ => none

/-- A call keeps an identity unless it restricts the graph to others. -/
def keeps (id : String) : Call → Bool
  | .restrict ids _ => id ∈ ids
  | _ => true

/-- All that calls say about an identity since it was last left out. -/
def mentionsOf (id : String) (calls : List Call) : List Mention :=
  (calls.rtakeWhile (keeps id)).filterMap (mention? id)

theorem mentionsOf_concat (id : String) (calls : List Call) (c : Call) :
    mentionsOf id (calls ++ [c]) =
      if c.keeps id then mentionsOf id calls ++ (c.mention? id).toList else [] := by
  rw [mentionsOf, List.rtakeWhile_concat]
  by_cases kept : c.keeps id = true
  · rw [if_pos kept, if_pos kept, List.filterMap_append, mentionsOf]
    cases said : c.mention? id <;> simp [said]
  · rw [if_neg kept, if_neg kept, List.filterMap_nil]

end Call

/-- The times that mentions give can all be compared with each other. -/
def Comparable (said : List Mention) : Prop :=
  ∀ s ∈ said.filterMap Mention.joinedAt, ∀ t ∈ said.filterMap Mention.joinedAt,
    (s.isBefore? t).isSome = true

instance (said : List Mention) : Decidable (Comparable said) :=
  inferInstanceAs (Decidable (∀ s ∈ said.filterMap Mention.joinedAt,
    ∀ t ∈ said.filterMap Mention.joinedAt, (s.isBefore? t).isSome = true))

/-- Times can be compared if all have offsets or none has. -/
theorem Comparable.exists_known {said : List Mention} (comparable : Comparable said) :
    ∃ known, ∀ m ∈ said, ∀ t, m.joinedAt = some t → t.offset.isSome = known := by
  cases times : said.filterMap Mention.joinedAt with
  | nil =>
    rw [List.filterMap_eq_nil_iff] at times
    refine ⟨true, fun m member t joined => ?_⟩
    rw [times m member] at joined
    cases joined
  | cons s later =>
    have first : s ∈ said.filterMap Mention.joinedAt := by simp [times]
    refine ⟨s.offset.isSome, fun m member t joined => ?_⟩
    have compared := comparable t (List.mem_filterMap.mpr ⟨m, member, joined⟩) s first
    by_contra different
    rw [Timestamp.isBefore?, if_neg different] at compared
    cases compared

namespace Node

/-- What a node has gathered from mentions: the earliest time, the sum of the counts, the last text
of each kind that has something in it, and else what the first mention has made of it. -/
structure Gathers (n : Node) (defaultRole : String) (said : List Mention) : Prop where
  joinedAt : IsEarliest (said.map Mention.joinedAt) n.joinedAt
  credentials : n.credentials = (said.map Mention.credentials).sum
  role : n.role = (said.filterMap fun m => filled m.role).getLast?.getD defaultRole
  label : n.label =
    (said.filterMap fun m => filled m.label).getLast?.or (said.head?.bind Mention.label)
  status : n.status =
    (said.filterMap fun m => filled m.status).getLast?.or (said.head?.bind Mention.status)

/-- A text that every mention with something in it replaces is in the end the last one, and if there
is none, the one that the first mention gave. -/
theorem told_text {id defaultRole : String} {text : Node → Option String}
    {word : Mention → Option String} (silent : word {} = none)
    (first : ∀ m, text (ofMention id defaultRole m) = word m)
    (later : ∀ n m, text (absorb n m).1 = (filled (word m)).or (text n)) (said : List Mention) :
    text (told id defaultRole said) =
      (said.filterMap fun m => filled (word m)).getLast?.or (said.head?.bind word) := by
  induction said using List.reverseRecOn with
  | nil =>
    rw [told, first, silent]
    rfl
  | append_singleton said m ih =>
    by_cases start : said = []
    · subst start
      change text (ofMention id defaultRole m) = _
      rw [first]
      cases spoken : filled (word m) with
      | none => simp [spoken]
      | some words => simpa [spoken] using (Option.filter_eq_some_iff.mp spoken).1
    · rw [told_concat start, later, ih, List.filterMap_append, List.getLast?_append,
        List.head?_append_of_ne_nil said start, Option.or_assoc]
      cases spoken : filled (word m) <;> simp [spoken]

theorem told_gathers {said : List Mention} (comparable : Comparable said)
    (id defaultRole : String) : (told id defaultRole said).Gathers defaultRole said := by
  obtain ⟨known, alike⟩ := comparable.exists_known
  obtain ⟨earliest, sum⟩ := @told_sums id defaultRole said known alike
  exact ⟨earliest, sum, told_role id defaultRole said,
    told_text rfl (fun _ => rfl) absorb_label said,
    told_text rfl (fun _ => rfl) absorb_status said⟩

/-- The node of an identity after one more mention of it. -/
def afterMention (id defaultRole : String) (m : Mention) : Option Node → Node
  | none => ofMention id defaultRole m
  | some n => (n.absorb m).1

theorem afterMention_told (id defaultRole : String) (said : List Mention) (m : Mention) :
    afterMention id defaultRole m (if said = [] then none else some (told id defaultRole said)) =
      told id defaultRole (said ++ [m]) := by
  by_cases start : said = []
  · subst start
    rfl
  · rw [if_neg start, told_concat start]
    rfl

end Node

namespace Graph

variable {g : Graph} {id : String}

theorem node?_addNode (g : Graph) (id other : String) (m : Mention) :
    (g.addNode other m).1.node? id =
      if other = id then some (Node.afterMention id g.defaultRole m (g.node? id))
      else g.node? id := by
  unfold addNode
  cases found : g.node? other with
  | none =>
    simp only [node?, List.find?_append, List.find?_singleton, Node.ofMention]
    by_cases same : other = id
    · subst same
      rw [node?] at found
      simp [found, Node.afterMention, Node.ofMention]
    · simp [same]
  | some n =>
    have named : n.id = other := node?_id found
    simp only [node?, replaceNode, Node.absorb_id, named, List.find?_map]
    -- The node that is replaced keeps its identifier, so that the search ends at the same place.
    have places : (fun x : Node => decide (x.id = id)) ∘
        (fun x => if x.id = other then (n.absorb m).1 else x) = fun x => decide (x.id = id) := by
      funext x
      by_cases here : x.id = other <;> simp [here, Node.absorb_id, named]
    rw [places, ← node?]
    by_cases same : other = id
    · subst same
      rw [if_pos rfl, found, Option.map_some, if_pos named, Node.afterMention]
    · rw [if_neg same]
      cases there : g.node? id with
      | none => rfl
      | some x =>
        have different : x.id ≠ other := (node?_id there).trans_ne (Ne.symm same)
        rw [Option.map_some, if_neg different]

/-- All that an operation can do to nodes: a mention changes one, a restriction drops some, and the
others leave them alone. -/
theorem call_cases {c : Call} (operation : c.isOperation = true) (g : Graph) :
    (∃ id m, c = .addNode id m) ∨ (∃ ids withEdges, c = .restrict ids withEdges) ∨
      (∀ id, c.mention? id = none ∧ c.keeps id = true) ∧ (g.call c).nodes = g.nodes ∧
        (g.call c).defaultRole = g.defaultRole := by
  cases c with
  | addNode id m => exact Or.inl ⟨id, m, rfl⟩
  | restrict ids withEdges => exact Or.inr (Or.inl ⟨ids, withEdges, rfl⟩)
  | addEdge e =>
    refine Or.inr (Or.inr ⟨fun _ => ⟨rfl, rfl⟩, ?_⟩)
    simp only [Graph.call]
    split
    · rename_i run
      obtain ⟨-, -, ⟨-, -, rfl⟩ | ⟨-, -, rfl⟩⟩ := addEdge_cases run
      · exact ⟨rfl, rfl⟩
      · exact ⟨rfl, rfl⟩
    · exact ⟨rfl, rfl⟩
  | mark => exact Or.inr (Or.inr ⟨fun _ => ⟨rfl, rfl⟩, rfl, rfl⟩)
  | stamp builtAt skipped => exact Or.inr (Or.inr ⟨fun _ => ⟨rfl, rfl⟩, rfl, rfl⟩)
  | neighborhood naming id depth => cases operation
  | fillLabels naming => cases operation

/-- What an operation does to the node of an identity. -/
theorem node?_call {c : Call} (operation : c.isOperation = true) (g : Graph) (id : String) :
    (g.call c).node? id =
      if c.keeps id then
        match c.mention? id with
        | some m => some (Node.afterMention id g.defaultRole m (g.node? id))
        | none => g.node? id
      else none := by
  rcases call_cases operation g with ⟨other, m, rfl⟩ | ⟨ids, withEdges, rfl⟩ | ⟨silent, nodes, -⟩
  · rw [Graph.call, node?_addNode]
    by_cases same : other = id <;> simp [Call.keeps, Call.mention?, same]
  · rw [Graph.call, node?_restrict]
    simp [Call.keeps, Call.mention?]
  · rw [(silent id).1, if_pos (silent id).2, node?, node?, nodes]

theorem defaultRole_call {c : Call} (operation : c.isOperation = true) (g : Graph) :
    (g.call c).defaultRole = g.defaultRole := by
  rcases call_cases operation g with ⟨id, m, rfl⟩ | ⟨ids, withEdges, rfl⟩ | ⟨-, -, same⟩
  · simp only [Graph.call, addNode]
    split <;> rfl
  · rfl
  · exact same

theorem defaultRole_calls {calls : List Call} (operations : ∀ c ∈ calls, c.isOperation = true)
    (g : Graph) : (calls.foldl Graph.call g).defaultRole = g.defaultRole := by
  induction calls generalizing g with
  | nil => rfl
  | cons c calls ih =>
    rw [List.foldl_cons, ih (fun d member => operations d (List.mem_cons_of_mem _ member)),
      defaultRole_call (operations c List.mem_cons_self)]

/-- The node of an identity is what it was told. There is none if it was told nothing. -/
def Recalls (g : Graph) (id : String) (said : List Mention) : Prop :=
  g.node? id = if said = [] then none else some (Node.told id g.defaultRole said)

theorem Recalls.call {said : List Mention} {c : Call} (recalls : g.Recalls id said)
    (operation : c.isOperation = true) :
    (g.call c).Recalls id (if c.keeps id then said ++ (c.mention? id).toList else []) := by
  rw [Recalls, node?_call operation, defaultRole_call operation]
  split
  · cases spoken : c.mention? id with
    | none =>
      rw [Option.toList_none, List.append_nil]
      exact recalls
    | some m =>
      rw [recalls, Option.toList_some, if_neg (List.append_ne_nil_of_right_ne_nil _ (by simp))]
      exact congrArg some (Node.afterMention_told id g.defaultRole said m)
  · rfl

theorem Recalls.calls {calls : List Call} (silent : g.Recalls id [])
    (operations : ∀ c ∈ calls, c.isOperation = true) :
    (calls.foldl Graph.call g).Recalls id (Call.mentionsOf id calls) := by
  induction calls using List.reverseRecOn with
  | nil => exact silent
  | append_singleton calls c ih =>
    have before := ih fun d member => operations d (List.mem_append_left _ member)
    rw [List.foldl_concat, Call.mentionsOf_concat]
    exact before.call (operations c (by simp))

/-- An operation leaves the nodes that it keeps in their order, and puts new ones behind them. -/
theorem ids_call {c : Call} (operation : c.isOperation = true) (g : Graph) :
    ∃ later, (g.call c).ids = g.ids.filter (c.keeps ·) ++ later := by
  rcases call_cases operation g with ⟨id, m, rfl⟩ | ⟨ids, withEdges, rfl⟩ | ⟨silent, nodes, -⟩
  · have all : g.ids.filter ((Call.addNode id m).keeps ·) = g.ids := List.filter_true g.ids
    rw [all, Graph.call, addNode_ids]
    split
    · exact ⟨[], (List.append_nil _).symm⟩
    · exact ⟨[id], rfl⟩
  · refine ⟨[], ?_⟩
    rw [Graph.call, restrict_ids, List.append_nil]
    rfl
  · have all : g.ids.filter (c.keeps ·) = g.ids :=
      List.filter_eq_self.mpr fun id _ => (silent id).2
    exact ⟨[], by rw [all, List.append_nil, Graph.ids, Graph.ids, nodes]⟩

theorem ids_calls {calls : List Call} (operations : ∀ c ∈ calls, c.isOperation = true)
    (g : Graph) :
    ∃ later, (calls.foldl Graph.call g).ids =
      g.ids.filter (fun id => calls.all (·.keeps id)) ++ later := by
  induction calls generalizing g with
  | nil => exact ⟨[], by simp⟩
  | cons c calls ih =>
    obtain ⟨new, here⟩ := ids_call (operations c List.mem_cons_self) g
    obtain ⟨later, rest⟩ := ih (fun d member => operations d (List.mem_cons_of_mem _ member))
      (g.call c)
    refine ⟨new.filter (fun id => calls.all (·.keeps id)) ++ later, ?_⟩
    rw [List.foldl_cons, rest, here, List.filter_append, List.filter_filter, List.append_assoc]
    simp only [List.all_cons, Bool.and_comm]

end Graph

namespace Ledger

variable {M : Type} {net : Multigraph M} {root : String} {builtAt : Option Timestamp}
  {defaultRole id : String} {calls : List Call}

/-- What a ledger has gathered about an identity from the calls that made it. A node there is just if
something was said. It stands where the first mention put it, behind all that were there by then
and have stayed, and other calls leave it alone. -/
structure Gathered (net : Multigraph M) (root : String) (builtAt : Option Timestamp)
    (defaultRole : String) (calls : List Call) (id : String) : Prop where
  unknown : Call.mentionsOf id calls = [] →
    (run net root builtAt defaultRole calls).node? id = none
  known : Call.mentionsOf id calls ≠ [] →
    ∃ n, (run net root builtAt defaultRole calls).node? id = some n ∧ n.id = id ∧
      n.Gathers defaultRole (Call.mentionsOf id calls)
  place : ∀ before m after, calls = before ++ .addNode id m :: after →
    Call.mentionsOf id before = [] → (∀ c ∈ after, c.keeps id = true) →
      ∃ later, (run net root builtAt defaultRole calls).nodes.map Prod.fst =
        ((run net root builtAt defaultRole before).nodes.map Prod.fst).filter
          (fun other => after.all (·.keeps other)) ++ id :: later
  others : ∀ c : Call, c.isOperation = true → c.mention? id = none → c.keeps id = true →
    ((run net root builtAt defaultRole calls).call net c).node? id =
      (run net root builtAt defaultRole calls).node? id

/-- What a run shows is what the same calls make of an empty graph. -/
theorem run_shows (lawful : net.Lawful) (root : String) (builtAt : Option Timestamp)
    (defaultRole : String) (calls : List Call) :
    (run net root builtAt defaultRole calls).Consistent net ∧
      (run net root builtAt defaultRole calls).view =
        calls.foldl Graph.call { root, builtAt, defaultRole } :=
  (blank_consistent lawful root builtAt defaultRole).calls lawful calls

theorem run_recalls (lawful : net.Lawful) (operations : ∀ c ∈ calls, c.isOperation = true) :
    (run net root builtAt defaultRole calls).node? id =
      if Call.mentionsOf id calls = [] then none
      else some (Node.told id defaultRole (Call.mentionsOf id calls)) := by
  obtain ⟨consistent, shown⟩ := @run_shows M net lawful root builtAt defaultRole calls
  rw [consistent.node?_eq, shown]
  have silent : Graph.Recalls { root, builtAt, defaultRole } id [] := rfl
  have recalls := silent.calls operations
  rwa [Graph.Recalls, Graph.defaultRole_calls operations] at recalls

/-- The first mention puts an identity behind those that are there, and later calls keep it there. -/
theorem run_place (lawful : net.Lawful) {before after : List Call} {m : Mention}
    (operations : ∀ c ∈ before ++ .addNode id m :: after, c.isOperation = true)
    (first : Call.mentionsOf id before = []) (kept : ∀ c ∈ after, c.keeps id = true) :
    ∃ later, (run net root builtAt defaultRole (before ++ .addNode id m :: after)).nodes.map Prod.fst =
      ((run net root builtAt defaultRole before).nodes.map Prod.fst).filter
        (fun other => after.all (·.keeps other)) ++ id :: later := by
  have starting : ∀ c ∈ before, c.isOperation = true := fun c member =>
    operations c (List.mem_append_left _ member)
  have following : ∀ c ∈ after, c.isOperation = true := fun c member =>
    operations c (List.mem_append_right _ (List.mem_cons_of_mem _ member))
  obtain ⟨consistent, shown⟩ :=
    run_shows lawful root builtAt defaultRole (before ++ .addNode id m :: after)
  obtain ⟨consistent', shown'⟩ := run_shows lawful root builtAt defaultRole before
  have absent : id ∉ (run net root builtAt defaultRole before).view.ids := by
    rw [← Graph.node?_eq_none_iff, ← consistent'.node?_eq, run_recalls lawful starting, if_pos first]
  have stays : [id].filter (fun other => after.all (·.keeps other)) = [id] :=
    List.filter_eq_self.mpr (by simpa using kept)
  rw [keys_eq consistent.stored, keys_eq consistent'.stored, shown, List.foldl_append,
    List.foldl_cons, ← shown']
  obtain ⟨later, grown⟩ := Graph.ids_calls following
    ((run net root builtAt defaultRole before).view.call (.addNode id m))
  refine ⟨later, ?_⟩
  rw [grown, Graph.call, Graph.addNode_ids, if_neg absent, List.filter_append,
    stays, List.append_assoc, List.singleton_append]

/-- A run gathers what its calls say. From the mentions of an identity, at times that can be compared
with each other, its node has the earliest time, the sum of the counts, and the last texts with
something in them. It keeps its place, and nothing but its own mentions changes it. -/
theorem run_gathers (lawful : net.Lawful) (root : String) (builtAt : Option Timestamp)
    (defaultRole : String) {calls : List Call} (operations : ∀ c ∈ calls, c.isOperation = true)
    {id : String} (comparable : Comparable (Call.mentionsOf id calls)) :
    Gathered net root builtAt defaultRole calls id where
  unknown silent := by rw [run_recalls lawful operations, if_pos silent]
  known said := ⟨_, by rw [run_recalls lawful operations, if_neg said], Node.told_id ..,
    Node.told_gathers comparable id defaultRole⟩
  place := by
    rintro before m after rfl first kept
    exact run_place lawful operations first kept
  others c operation other kept := by
    obtain ⟨consistent, -⟩ := @run_shows M net lawful root builtAt defaultRole calls
    obtain ⟨consistent', shown⟩ := consistent.call lawful c
    rw [consistent'.node?_eq, shown, Graph.node?_call operation, if_pos kept, other,
      consistent.node?_eq]

/-- An hour before the beginning of the calendar, by a clock that is that far ahead. -/
def eastern : Timestamp := ⟨.dawn, some ⟨3600000000, by decide⟩⟩

/-- What is said about one identity among other calls, one of which fails, and in the end the part
without the root. -/
def guestbook : List Call :=
  [.addNode "R" {}, .addNode "A" { label := some "", joinedAt := some (.ofUtc .dawn) },
    .addEdge (Graph.arc "A" "X" "1"), .addNode "B" {},
    .addNode "A" { role := some "host", joinedAt := some eastern, credentials := 2 },
    .addEdge (Graph.arc "A" "B" "2"), .mark, .addNode "B" { label := some "Ben" },
    .addNode "A" { label := some "Ann", role := some "", credentials := 1 },
    .restrict ["B", "A"] true]

theorem run_gathers_guestbook :
    Strands.multigraph.Lawful ∧ (∀ c ∈ guestbook, c.isOperation = true) ∧
      Comparable (Call.mentionsOf "A" guestbook) ∧
      Gathered Strands.multigraph "R" none "member" guestbook "A" ∧
      (run Strands.multigraph "R" none "member" guestbook).nodes =
        [("A", ⟨"A", some "Ann", "host", some eastern, 3, none⟩),
          ("B", ⟨"B", some "Ben", "member", none, 0, none⟩)] := by
  have operations : ∀ c ∈ guestbook, c.isOperation = true := by decide
  have comparable : Comparable (Call.mentionsOf "A" guestbook) := by decide +kernel
  exact ⟨Strands.multigraph_lawful, operations, comparable,
    run_gathers Strands.multigraph_lawful "R" none "member" operations comparable,
    by decide +kernel⟩

end Ledger

end Vouch
