import Mathlib.Data.List.Perm.Subperm
import Vouch.Proofs.Credential.Stable

namespace Vouch

/-- A list that consists of two others, each of which keeps its order. -/
inductive Interleaved {α : Type} : List α → List α → List α → Prop
  | nil : Interleaved [] [] []
  | left {x : α} {xs ys zs : List α} : Interleaved xs ys zs → Interleaved (x :: xs) ys (x :: zs)
  | right {y : α} {xs ys zs : List α} : Interleaved xs ys zs → Interleaved xs (y :: ys) (y :: zs)

namespace Interleaved

variable {α : Type} {xs ys zs : List α}

theorem sublist (mixed : Interleaved xs ys zs) : xs.Sublist zs := by
  induction mixed with
  | nil => exact .slnil
  | left _ ih => exact ih.cons_cons _
  | right _ ih => exact ih.cons _

theorem filterMap {β : Type} (mixed : Interleaved xs ys zs) (f : α → Option β) :
    Interleaved (xs.filterMap f) (ys.filterMap f) (zs.filterMap f) := by
  induction mixed with
  | nil => exact .nil
  | @left x xs ys zs _ ih =>
    cases found : f x with
    | none => rwa [List.filterMap_cons_none found, List.filterMap_cons_none found]
    | some b =>
      rw [List.filterMap_cons_some found, List.filterMap_cons_some found]
      exact ih.left
  | @right y xs ys zs _ ih =>
    cases found : f y with
    | none => rwa [List.filterMap_cons_none found, List.filterMap_cons_none found]
    | some b =>
      rw [List.filterMap_cons_some found, List.filterMap_cons_some found]
      exact ih.right

/-- What only one of the lists can hold, the whole holds as that one does. -/
theorem filter_eq (mixed : Interleaved xs ys zs) {p : α → Bool} (none : ∀ y ∈ ys, ¬ p y = true) :
    zs.filter p = xs.filter p := by
  induction mixed with
  | nil => rfl
  | @left x xs ys zs _ ih =>
    rw [List.filter_cons, List.filter_cons, ih none]
  | @right y xs ys zs _ ih =>
    rw [List.filter_cons_of_neg (none y List.mem_cons_self)]
    exact ih fun other member => none other (List.mem_cons_of_mem _ member)

end Interleaved

namespace Credential

/-- A credential names an identity as its issuer or as its subject. -/
def names (c : Credential) (id : String) : Bool := c.issuer = id || c.subject = id

theorem names_iff {c : Credential} {id : String} :
    c.names id = true ↔ c.issuer = id ∨ c.subject = id := by
  simp [names]

/-- Which credentials that name an identity are accepted is settled among themselves. -/
theorem accepted_filter_names (cs : List Credential) (id : String) :
    (accepted cs).filter (·.names id) = accepted (cs.filter (·.names id)) :=
  (accepted_filter cs fun k => k.1 = id || k.2.1 = id).symm

theorem accepted_keys_subperm {cs ds : List Credential} (more : cs ⊆ ds) :
    ((accepted cs).map key).Subperm ((accepted ds).map key) := by
  refine (accepted_keys_nodup cs).subperm fun k member => ?_
  rw [mem_keys_accepted_iff] at member ⊢
  exact List.map_subset key more member

/-- Whatever is left out gives way to a credential with its key that is no younger. -/
theorem exists_accepted_of_mem {cs : List Credential} {c : Credential} (known : c ∈ cs) :
    ∃ d ∈ accepted cs, d.key = c.key ∧ d.rank ≤ c.rank := by
  obtain ⟨d, taken, same⟩ :=
    List.mem_map.mp (mem_keys_accepted_iff.mpr (List.mem_map_of_mem known))
  exact ⟨d, taken, same, (leading_of_mem_accepted taken).2 c known same.symm⟩

/-- Where there are more credentials, another one may be accepted for the same key, but none that
is younger. -/
theorem exists_accepted_rank_le {cs ds : List Credential} (more : cs ⊆ ds) {c : Credential}
    (taken : c ∈ accepted cs) : ∃ d ∈ accepted ds, d.key = c.key ∧ d.rank ≤ c.rank :=
  exists_accepted_of_mem (more (mem_of_mem_accepted taken))

theorem exists_issuedAt_of_rank_le {c d : Credential} (before : d.rank ≤ c.rank) {late : Reading}
    (dated : c.issuedAt = some late) : ∃ early ≤ late, d.issuedAt = some early := by
  rw [← notAfter_iff, notAfter, dated] at before
  cases issued : d.issuedAt with
  | none => simp [issued] at before
  | some early =>
    refine ⟨early, ?_, rfl⟩
    simp only [issued, Bool.or_eq_true, Bool.and_eq_true, decide_eq_true_eq] at before
    rcases before with less | ⟨rfl, _⟩
    · exact Nat.le_of_lt less
    · exact Nat.le_refl _

end Credential

end Vouch
