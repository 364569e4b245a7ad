import Mathlib
import Vouch.Proofs.Graph.Reached

namespace Vouch

theorem filled_filled (text : Option String) : filled (filled text) = filled text := by
  simp [filled, Option.filter_filter]

/-- The earlier of two times that can be compared. -/
def earlier (a b : Option Timestamp) : Option Timestamp :=
  match a, b with
  | none, b => b
  | a, none => a
  | some a, some b => some (if a.instant < b.instant then a else b)

theorem earlier?_eq_ok {a b : Option Timestamp} {known : Bool}
    (alike : ∀ t, a = some t ∨ b = some t → t.offset.isSome = known) :
    earlier? a b = .ok (earlier a b) := by
  cases a with
  | none => rfl
  | some s =>
    cases b with
    | none => rfl
    | some t =>
      have same : s.offset.isSome = t.offset.isSome :=
        (alike s (Or.inl rfl)).trans (alike t (Or.inr rfl)).symm
      simp [earlier?, earlier, Timestamp.isBefore?, same]

/-- A time is the earliest of some times of which each may be missing. None is if all are. -/
def IsEarliest (times : List (Option Timestamp)) : Option Timestamp → Prop
  | none => ∀ t, some t ∉ times
  | some t => some t ∈ times ∧ ∀ s, some s ∈ times → t.instant ≤ s.instant

theorem IsEarliest.concat {times : List (Option Timestamp)} {old new : Option Timestamp}
    (least : IsEarliest times old) : IsEarliest (times ++ [new]) (earlier new old) := by
  cases new with
  | none =>
    cases old with
    | none => simpa [IsEarliest, earlier] using least
    | some t => simpa [IsEarliest, earlier] using least
  | some s =>
    cases old with
    | none =>
      refine ⟨by simp, fun u member => ?_⟩
      rcases List.mem_append.mp member with before | last
      · exact absurd before (least u)
      · obtain rfl : u = s := by simpa using last
        exact Int.le_refl _
    | some t =>
      obtain ⟨there, bound⟩ := least
      simp only [earlier]
      by_cases before : s.instant < t.instant
      · rw [if_pos before]
        refine ⟨by simp, fun u member => ?_⟩
        rcases List.mem_append.mp member with inside | last
        · have later := bound u inside
          omega
        · obtain rfl : u = s := by simpa using last
          exact Int.le_refl _
      · rw [if_neg before]
        refine ⟨List.mem_append_left _ there, fun u member => ?_⟩
        rcases List.mem_append.mp member with inside | last
        · exact bound u inside
        · obtain rfl : u = s := by simpa using last
          omega

theorem IsEarliest.unique {times others : List (Option Timestamp)} {a b : Option Timestamp}
    (utc : ∀ t, some t ∈ times → ∃ r, t = .ofUtc r) (same : ∀ t, t ∈ times ↔ t ∈ others)
    (first : IsEarliest times a) (second : IsEarliest others b) : a = b := by
  cases a with
  | none =>
    cases b with
    | none => rfl
    | some t => exact absurd ((same _).mpr second.1) (first t)
  | some s =>
    cases b with
    | none => exact absurd ((same _).mp first.1) (second s)
    | some t =>
      obtain ⟨q, rfl⟩ := utc s first.1
      obtain ⟨r, rfl⟩ := utc t ((same _).mpr second.1)
      have below := first.2 _ ((same _).mpr second.1)
      have above := second.2 _ ((same _).mp first.1)
      simp only [Timestamp.instant, Timestamp.ofUtc] at below above
      have equal : q.micros = r.micros := by omega
      obtain ⟨micros, _⟩ := q
      obtain rfl : micros = r.micros := equal
      rfl

namespace Node

/-- What becomes of an identity through all that is said about it, in this order. -/
def told (id defaultRole : String) : List Mention → Node
  | [] => ofMention id defaultRole {}
  | m :: ms => ms.foldl (fun n m => (n.absorb m).1) (ofMention id defaultRole m)

theorem told_concat {id defaultRole : String} {ms : List Mention} (said : ms ≠ []) (m : Mention) :
    told id defaultRole (ms ++ [m]) = ((told id defaultRole ms).absorb m).1 := by
  cases ms with
  | nil => exact absurd rfl said
  | cons first rest => simp [told]

theorem told_id (id defaultRole : String) (ms : List Mention) : (told id defaultRole ms).id = id := by
  induction ms using List.reverseRecOn with
  | nil => rfl
  | append_singleton ms m ih =>
    by_cases first : ms = []
    · subst first
      rfl
    · rw [told_concat first, absorb_id, ih]

theorem absorb_label (n : Node) (m : Mention) :
    (n.absorb m).1.label = (filled m.label).or n.label := by
  unfold absorb
  split <;> rfl

theorem absorb_role (n : Node) (m : Mention) :
    (n.absorb m).1.role = (filled m.role).getD n.role := by
  unfold absorb
  split <;> rfl

theorem absorb_status (n : Node) (m : Mention) :
    (n.absorb m).1.status = (filled m.status).or n.status := by
  unfold absorb
  split <;> rfl

/-- A text that every mention with something in it replaces is in the end the last one. -/
theorem told_last {id defaultRole : String} {text : Node → Option String}
    {word : Mention → Option String} (silent : word {} = none)
    (first : ∀ m, text (ofMention id defaultRole m) = word m)
    (later : ∀ n m, text (absorb n m).1 = (filled (word m)).or (text n)) (ms : List Mention) :
    filled (text (told id defaultRole ms)) = (ms.filterMap fun m => filled (word m)).getLast? := by
  induction ms using List.reverseRecOn with
  | nil =>
    rw [told, first, silent]
    rfl
  | append_singleton ms m ih =>
    by_cases start : ms = []
    · subst start
      change filled (text (ofMention id defaultRole m)) = _
      rw [first]
      cases said : filled (word m) <;> simp [said]
    · rw [told_concat start, later, List.filterMap_append, List.getLast?_append]
      cases said : filled (word m) with
      | none => simpa [said] using ih
      | some text =>
        have kept := filled_filled (word m)
        rw [said] at kept
        simpa [said] using kept

theorem told_label (id defaultRole : String) (ms : List Mention) :
    filled (told id defaultRole ms).label = (ms.filterMap fun m => filled m.label).getLast? :=
  told_last rfl (fun _ => rfl) absorb_label ms

theorem told_status (id defaultRole : String) (ms : List Mention) :
    filled (told id defaultRole ms).status = (ms.filterMap fun m => filled m.status).getLast? :=
  told_last rfl (fun _ => rfl) absorb_status ms

theorem told_role (id defaultRole : String) (ms : List Mention) :
    (told id defaultRole ms).role =
      (ms.filterMap fun m => filled m.role).getLast?.getD defaultRole := by
  induction ms using List.reverseRecOn with
  | nil => rfl
  | append_singleton ms m ih =>
    by_cases start : ms = []
    · subst start
      change (filled m.role).getD defaultRole = _
      cases said : filled m.role <;> simp [said]
    · rw [told_concat start, absorb_role, List.filterMap_append, List.getLast?_append]
      cases said : filled m.role <;> simp [said, ih]

theorem absorb_ok {n : Node} {m : Mention} {known : Bool}
    (alike : ∀ t, m.joinedAt = some t ∨ n.joinedAt = some t → t.offset.isSome = known) :
    n.absorb m = ({ n.rename m with
      joinedAt := earlier m.joinedAt n.joinedAt
      credentials := n.credentials + m.credentials }, .ok ()) := by
  simp only [absorb, earlier?_eq_ok alike]

/-- Mentions at comparable times add up: the earliest time stands and the counts are summed. -/
theorem told_sums {id defaultRole : String} {ms : List Mention} (known : Bool)
    (alike : ∀ m ∈ ms, ∀ t, m.joinedAt = some t → t.offset.isSome = known) :
    IsEarliest (ms.map Mention.joinedAt) (told id defaultRole ms).joinedAt ∧
      (told id defaultRole ms).credentials = (ms.map Mention.credentials).sum := by
  induction ms using List.reverseRecOn with
  | nil => exact ⟨by simp [told, ofMention, IsEarliest], rfl⟩
  | append_singleton ms m ih =>
    by_cases start : ms = []
    · subst start
      cases time : m.joinedAt <;> simp [told, ofMention, IsEarliest, time]
    · obtain ⟨least, sum⟩ := ih fun m member => alike m (List.mem_append_left _ member)
      have last := alike m (by simp)
      have before : ∀ t, (told id defaultRole ms).joinedAt = some t → t.offset.isSome = known := by
        intro t joined
        rw [joined] at least
        obtain ⟨n, member, same⟩ := List.mem_map.mp least.1
        exact alike n (List.mem_append_left _ member) t same
      rw [told_concat start, absorb_ok fun t => Or.rec (last t) (before t), List.map_append,
        List.map_append, List.sum_append]
      exact ⟨least.concat, by simp [sum]⟩

/-- What was said about one identity, out of all that was said. -/
def saidOf (id : String) (calls : List (String × Mention)) : List Mention :=
  (calls.filter (·.1 = id)).map Prod.snd

/-- The nodes that a series of mentions makes, in the order of the first ones. -/
def table (defaultRole : String) (calls : List (String × Mention)) : List Node :=
  (calls.map Prod.fst).eraseDups.map fun id => told id defaultRole (saidOf id calls)

theorem saidOf_concat_self (id : String) (calls : List (String × Mention)) (m : Mention) :
    saidOf id (calls ++ [(id, m)]) = saidOf id calls ++ [m] := by
  simp [saidOf]

theorem saidOf_concat_other {id other : String} (different : other ≠ id)
    (calls : List (String × Mention)) (m : Mention) :
    saidOf id (calls ++ [(other, m)]) = saidOf id calls := by
  simp [saidOf, different]

theorem saidOf_eq_nil_iff {id : String} {calls : List (String × Mention)} :
    saidOf id calls = [] ↔ id ∉ calls.map Prod.fst := by
  simp only [saidOf, List.map_eq_nil_iff, List.filter_eq_nil_iff, decide_eq_true_eq, List.mem_map,
    not_exists, not_and]

theorem table_ids (defaultRole : String) (calls : List (String × Mention)) :
    (table defaultRole calls).map Node.id = (calls.map Prod.fst).eraseDups := by
  simp [table, Function.comp_def, told_id]

theorem find?_table {id : String} {calls : List (String × Mention)}
    (mentioned : id ∈ calls.map Prod.fst) (defaultRole : String) :
    (table defaultRole calls).find? (·.id = id) =
      some (told id defaultRole (saidOf id calls)) := by
  rw [table, List.find?_map]
  cases found : (calls.map Prod.fst).eraseDups.find? _ with
  | none =>
    have absent := List.find?_eq_none.mp found id (List.mem_eraseDups.mpr mentioned)
    simp [told_id] at absent
  | some other =>
    have same : other = id := by simpa [told_id] using List.find?_some found
    rw [same, Option.map_some]

/-- A mention of a known identity only changes what becomes of that identity. -/
theorem table_concat_of_mem {id : String} {calls : List (String × Mention)}
    (mentioned : id ∈ calls.map Prod.fst) (defaultRole : String) (m : Mention) :
    table defaultRole (calls ++ [(id, m)]) = (table defaultRole calls).map fun n =>
      if n.id = id then (absorb (told id defaultRole (saidOf id calls)) m).1 else n := by
  have said : saidOf id calls ≠ [] := fun none => saidOf_eq_nil_iff.mp none mentioned
  have old : [id].removeAll (calls.map Prod.fst) = [] := by
    simp only [List.removeAll, List.elem_eq_mem, mentioned, decide_true, Bool.not_true,
      Bool.false_eq_true, not_false_eq_true, List.filter_cons_of_neg, List.filter_nil]
  rw [table, table, List.map_append, List.eraseDups_append, List.map_singleton, old,
    List.eraseDups_nil, List.append_nil, List.map_map]
  refine List.map_congr_left fun other _ => ?_
  rw [Function.comp_apply, told_id]
  by_cases same : other = id
  · subst same
    rw [if_pos rfl, saidOf_concat_self, told_concat said]
  · rw [if_neg same, saidOf_concat_other (Ne.symm same)]

theorem table_concat_of_not_mem {id : String} {calls : List (String × Mention)}
    (unheard : id ∉ calls.map Prod.fst) (defaultRole : String) (m : Mention) :
    table defaultRole (calls ++ [(id, m)]) =
      table defaultRole calls ++ [ofMention id defaultRole m] := by
  have silent := saidOf_eq_nil_iff.mpr unheard
  have new : ([id].removeAll (calls.map Prod.fst)).eraseDups = [id] := by
    simp only [List.removeAll, List.elem_eq_mem, unheard, decide_false, Bool.not_false,
      List.filter_cons_of_pos, List.filter_nil, List.eraseDups_cons, List.eraseDups_nil]
  rw [table, table, List.map_append, List.eraseDups_append, List.map_singleton, new,
    List.map_append, List.map_singleton, saidOf_concat_self, silent]
  congr 1
  refine List.map_congr_left fun other old => ?_
  have different : id ≠ other := by
    rintro rfl
    exact unheard (List.mem_eraseDups.mp old)
  rw [saidOf_concat_other different]

end Node

namespace Graph

/-- A mention lengthens the series of mentions that the nodes come from, whether its time can be
compared or not. -/
theorem addNode_table {g : Graph} {calls : List (String × Mention)}
    (nodes : g.nodes = Node.table g.defaultRole calls) (id : String) (m : Mention) :
    (g.addNode id m).1 = { g with nodes := Node.table g.defaultRole (calls ++ [(id, m)]) } := by
  by_cases mentioned : id ∈ calls.map Prod.fst
  · have found : g.node? id = some (Node.told id g.defaultRole (Node.saidOf id calls)) := by
      rw [node?, nodes, Node.find?_table mentioned]
    simp only [addNode, found, replaceNode, nodes, Node.absorb_id, Node.told_id,
      Node.table_concat_of_mem mentioned]
  · have absent : g.node? id = none := by
      rw [node?_eq_none_iff, Graph.ids, nodes, Node.table_ids, List.mem_eraseDups]
      exact mentioned
    simp only [addNode, absent, nodes, Node.table_concat_of_not_mem mentioned]

end Graph

end Vouch
