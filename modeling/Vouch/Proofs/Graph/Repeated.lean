import Vouch.Proofs.Credential.Repeated
import Vouch.Proofs.Graph.Tally

namespace Vouch

namespace Graph

variable {naming : Naming} {root : String} {now now' : Reading} {items again : List Item}

theorem takenFrom_append_eq (known : again ⊆ items) :
    takenFrom (items ++ again) = takenFrom items := by
  have credentials : again.filterMap Item.credential? ⊆ items.filterMap Item.credential? :=
    List.filterMap_subset Item.credential? known
  rw [takenFrom, List.filterMap_append, Credential.accepted_append_eq credentials, takenFrom]

theorem built_append_eq (known : again ⊆ items) :
    built naming root now' (items ++ again) =
      { built naming root now items with
        builtAt := some (.ofUtc now')
        skipped := (built naming root now items).skipped ++
          (again.filterMap Item.malformed?).map Malformed.message } := by
  simp only [built, takenFrom_append_eq known, List.filterMap_append, List.map_append]

/-- What a store lists once more at its end changes nothing about identities and relations. The
build succeeds again, and leaves one more line for each malformed item among the repeated ones. -/
theorem build_repeated {store store' : Store} {g : Graph} (listed : store.list = .ok items)
    (relisted : store'.list = .ok (items ++ again)) (known : again ⊆ items)
    (run : build naming root now store = .ok g) :
    build naming root now' store' =
      .ok { g with
        builtAt := some (.ofUtc now')
        skipped := g.skipped ++ (again.filterMap Item.malformed?).map Malformed.message } := by
  obtain ⟨named, inside, rfl⟩ := build_cases_of_list listed run
  have still : ∀ item ∈ items ++ again, ¬ item.BreaksOff := fun item member => by
    rcases List.mem_append.mp member with old | repeated
    · exact inside item old
    · exact inside item (known repeated)
  rw [build_eq_built named relisted still, built_append_eq known]

/-- All items come again, the last ones first. -/
theorem build_repeated_correspondence :
    correspondence.reverse ⊆ correspondence ∧
      build {} "R" .dawn (.memory correspondence) = .ok (built {} "R" .dawn correspondence) ∧
      (built {} "R" .dawn correspondence).edges.length = 2 ∧
      build {} "R" .dawn (.memory (correspondence ++ correspondence.reverse)) =
        .ok { built {} "R" .dawn correspondence with
          skipped := ["credential '<no id>': missing credential id",
            "credential '<no id>': missing credential id"] } := by
  have known : correspondence.reverse ⊆ correspondence := fun _ => List.mem_reverse.mp
  have length : (built {} "R" .dawn correspondence).edges.length = 2 := by
    rw [built_edges_eq, List.length_map, takenFrom_correspondence]
    rfl
  have skipped : (built {} "R" .dawn correspondence).skipped ++
      (correspondence.reverse.filterMap Item.malformed?).map Malformed.message =
        ["credential '<no id>': missing credential id",
          "credential '<no id>': missing credential id"] := by decide +kernel
  have repeated := @build_repeated {} "R" .dawn .dawn correspondence correspondence.reverse
    (.memory correspondence) (.memory (correspondence ++ correspondence.reverse)) _ rfl rfl known
    build_correspondence
  rw [skipped] at repeated
  exact ⟨known, build_correspondence, length, repeated⟩

end Graph

end Vouch
