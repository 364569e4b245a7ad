import Vouch.Proofs.Credential.Stable

namespace Vouch

namespace Credential

theorem filter_rank_le_append {cs : List Credential}
    (sorted : cs.Pairwise fun a b => a.rank ≤ b.rank) (r : WithTop Nat ×ₗ String) :
    cs.filter (·.rank ≤ r) ++ cs.filter (r < ·.rank) = cs := by
  induction cs with
  | nil => rfl
  | cons c cs ih =>
    obtain ⟨ahead, rest⟩ := List.pairwise_cons.mp sorted
    by_cases here : c.rank ≤ r
    · rw [List.filter_cons_of_pos (by simpa using here),
        List.filter_cons_of_neg (by simpa using here), List.cons_append, ih rest]
    · have later : ∀ d ∈ c :: cs, r < d.rank := fun d member => by
        rcases List.mem_cons.mp member with rfl | behind
        · exact not_le.mp here
        · exact (not_le.mp here).trans_le (ahead d behind)
      have none : (c :: cs).filter (·.rank ≤ r) = [] :=
        List.filter_eq_nil_iff.mpr fun d member => by simpa using later d member
      rw [none, List.nil_append, List.filter_eq_self]
      exact fun d member => by simpa using later d member

/-- A credential that comes in last takes its place behind all that are not younger. -/
theorem exists_chronicle_concat (cs : List Credential) (d : Credential) :
    ∃ front back, chronicle cs = front ++ back ∧ chronicle (cs ++ [d]) = front ++ d :: back ∧
      (∀ c ∈ front, c.rank ≤ d.rank) ∧ ∀ c ∈ back, d.rank < c.rank := by
  have split := filter_rank_le_append (chronicle_sorted cs) d.rank
  have first : ∀ c ∈ (chronicle cs).filter (·.rank ≤ d.rank), c.rank ≤ d.rank := fun c member => by
    simpa using List.of_mem_filter member
  have last : ∀ c ∈ (chronicle cs).filter (d.rank < ·.rank), d.rank < c.rank := fun c member => by
    simpa using List.of_mem_filter member
  generalize (chronicle cs).filter (·.rank ≤ d.rank) = front at split first
  generalize (chronicle cs).filter (d.rank < ·.rank) = back at split last
  refine ⟨front, back, split.symm, ?_, first, last⟩
  have sorted := chronicle_sorted cs
  rw [← split, List.pairwise_append] at sorted
  obtain ⟨inFront, inBack, across⟩ := sorted
  refine (IsChronicle.eq_chronicle ⟨?_, ?_, fun r => ?_⟩).symm
  · have old := chronicle_perm cs
    rw [← split] at old
    exact List.perm_middle.trans ((old.cons d).trans (List.perm_append_singleton d cs).symm)
  · refine List.pairwise_append.mpr ⟨inFront, List.pairwise_cons.mpr
      ⟨fun c member => (last c member).le, inBack⟩, fun a inA b inB => ?_⟩
    rcases List.mem_cons.mp inB with rfl | behind
    · exact first a inA
    · exact across a inA b behind
  · rw [List.filter_append cs, ← chronicle_filter_rank cs, ← split, List.filter_append,
      List.filter_append, List.append_assoc]
    congr 1
    -- Nothing behind the newcomer ties with it, so that it is the last of its rank in either list.
    by_cases tied : d.rank = r
    · have none : back.filter (·.rank = r) = [] := List.filter_eq_nil_iff.mpr fun c member => by
        simpa [← tied] using (last c member).ne'
      simp [tied, none]
    · simp [tied]

/-- What has a key that was there before is not the first of it. -/
theorem firsts_append_cons {front back : List Credential} {d : Credential}
    (known : d.key ∈ front.map key) : firsts (front ++ d :: back) = firsts (front ++ back) := by
  induction front with
  | nil => cases known
  | cons c front ih =>
    rw [List.cons_append, List.cons_append, firsts, firsts]
    refine congrArg (c :: ·) ?_
    by_cases same : d.key = c.key
    · have left := firsts_filter (front ++ d :: back) fun k => k ≠ c.key
      have right := firsts_filter (front ++ back) fun k => k ≠ c.key
      rw [← left, ← right, List.filter_append, List.filter_append,
        List.filter_cons_of_neg (by simpa using same)]
    · rw [List.map_cons, List.mem_cons, or_iff_right same] at known
      rw [ih known]

/-- A credential is of no account after an older one, or one of the same age, with its key. -/
theorem accepted_concat_eq {cs : List Credential} {c d : Credential} (known : c ∈ cs)
    (same : c.key = d.key) (before : c.rank ≤ d.rank) : accepted (cs ++ [d]) = accepted cs := by
  obtain ⟨front, back, old, new, -, last⟩ := exists_chronicle_concat cs d
  have inside : c ∈ front := by
    have member := (chronicle_perm cs).mem_iff.mpr known
    rw [old] at member
    rcases List.mem_append.mp member with ahead | behind
    · exact ahead
    · exact absurd before (not_le.mpr (last c behind))
  rw [accepted, accepted, new, old, firsts_append_cons]
  exact same ▸ List.mem_map_of_mem inside

theorem accepted_append_eq {cs ds : List Credential} (known : ds ⊆ cs) :
    accepted (cs ++ ds) = accepted cs := by
  induction ds generalizing cs with
  | nil => rw [List.append_nil]
  | cons d ds ih =>
    obtain ⟨here, rest⟩ := List.cons_subset.mp known
    have still : ds ⊆ cs ++ [d] := List.Subset.trans rest (List.subset_append_left cs [d])
    rw [List.append_cons, ih still, accepted_concat_eq here rfl le_rfl]

end Credential

end Vouch
