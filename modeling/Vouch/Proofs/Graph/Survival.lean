import Vouch.Proofs.Credential.Interrupted
import Vouch.Proofs.Graph.Built

namespace Vouch

theorem Item.breaksOff_iff {item : Item} : item.BreaksOff ↔ item.Outside ∨ item.Unwritten :=
  breaksOff_iff_exists.trans exists_decode_eq_interrupted_iff

namespace Graph

theorem built_hasEdge {naming : Naming} {root : String} {now : Reading} {items : List Item}
    {item : Item} {c : Credential} (member : item ∈ items) (decoded : item.decode = .ok c) :
    (built naming root now items).hasEdge c.key = true := by
  rw [hasEdge_iff, built_edges, mark_keys, drawn_edge_keys, takenFrom,
    Credential.mem_keys_accepted_iff]
  exact List.mem_map_of_mem (List.mem_filterMap.mpr ⟨item, member, Item.credential?_eq_some_iff.mpr decoded⟩)

/-- What a store lists keeps a graph from being built exactly if an item in it has a time of issue
outside of the calendar, or a value without a text where a text is needed. Otherwise malformed items
are reported, one line for each and in their order, and all other items are taken in. -/
theorem build_isOk_iff {naming : Naming} {root : String} {now : Reading} {store : Store}
    {items : List Item} (named : root ≠ "") (listed : store.list = .ok items) :
    ((∃ g, build naming root now store = .ok g ∧
        g.skipped = (items.filterMap Item.malformed?).map Malformed.message ∧
        ∀ item ∈ items, ∀ c, item.decode = .ok c → g.hasEdge c.key = true) ↔
      ∀ item ∈ items, ¬ item.Outside ∧ ¬ item.Unwritten) ∧
    ((∃ item ∈ items, item.Outside ∨ item.Unwritten) →
      ∃ cause, build naming root now store = .error (.interrupted cause)) := by
  have failing : (∃ item ∈ items, item.Outside ∨ item.Unwritten) →
      ∃ cause, build naming root now store = .error (.interrupted cause) := by
    rintro ⟨item, member, off⟩
    exact build_eq_interrupted named listed ⟨item, member, Item.breaksOff_iff.mpr off⟩
  refine ⟨⟨?_, ?_⟩, failing⟩
  · rintro ⟨g, run, _⟩ item member
    refine not_or.mp fun off => ?_
    obtain ⟨cause, failed⟩ := failing ⟨item, member, off⟩
    cases failed.symm.trans run
  · intro sound
    refine ⟨built naming root now items, build_eq_built named listed ?_, rfl, ?_⟩
    · exact fun item member off => not_or.mpr (sound item member) (Item.breaksOff_iff.mp off)
    · exact fun item member c decoded => built_hasEdge member decoded

theorem build_isOk_nameless :
    ∃ g, build {} "R" .dawn (.memory [.joining [], .raw (.record [])]) = .ok g ∧
      g.skipped = ["credential '<no id>': missing credential id"] ∧
      g.hasEdge ("R", "A", "1") = true := by
  have inside : ∀ item ∈ [Item.joining [], .raw (.record [])],
      ¬ item.Outside ∧ ¬ item.Unwritten := by
    intro item member
    rw [← not_or, ← Item.breaksOff_iff, Item.BreaksOff]
    revert item
    decide +kernel
  obtain ⟨g, run, skipped, entered⟩ :=
    (@build_isOk_iff {} "R" .dawn (.memory _) _ (by decide) rfl).1.mpr inside
  have line : ([Item.joining [], .raw (.record [])].filterMap Item.malformed?).map Malformed.message =
      ["credential '<no id>': missing credential id"] := by decide +kernel
  exact ⟨g, run, skipped.trans line, entered (.joining []) (by simp)
    ⟨"1", "R", "A", none, none, none, .membership none none []⟩ (by decide +kernel)⟩

/-- A membership an hour before the beginning of the calendar keeps all others out. -/
theorem build_early_eq_outside :
    "R" ≠ "" ∧ ¬ ∃ g, build {} "R" .dawn
      (.memory [.joining [("dt", .text "0001-01-01T00:00:00+01:00")], .joining []]) = .ok g := by
  have broken : build {} "R" .dawn
      (.memory [.joining [("dt", .text "0001-01-01T00:00:00+01:00")], .joining []]) =
        .error (.interrupted (.outside ⟨⟩)) := by decide +kernel
  refine ⟨by decide, fun ⟨g, run⟩ => ?_⟩
  rw [broken] at run
  cases run

end Graph

end Vouch
