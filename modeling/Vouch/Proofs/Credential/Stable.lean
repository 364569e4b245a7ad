import Vouch.Proofs.Credential.Accepted

namespace Vouch

namespace Credential

/-- One list is another one put in order: the earliest credentials come first and the undated ones
last, at the same time the lesser identifier comes first, and what still ties stays in place. -/
structure IsChronicle (sorted cs : List Credential) : Prop where
  perm : sorted.Perm cs
  ordered : sorted.Pairwise fun a b => a.rank ≤ b.rank
  stable : ∀ r, sorted.filter (·.rank = r) = cs.filter (·.rank = r)

theorem chronicle_filter_rank (cs : List Credential) (r : WithTop Nat ×ₗ String) :
    (chronicle cs).filter (·.rank = r) = cs.filter (·.rank = r) := by
  have tied : (cs.filter (·.rank = r)).Pairwise fun a b => notAfter a b = true := by
    refine List.pairwise_of_forall_mem_list fun a inA b inB => ?_
    simp only [List.mem_filter, decide_eq_true_eq] at inA inB
    rw [notAfter_iff, inA.2, inB.2]
  have kept : (cs.filter (·.rank = r)).Sublist (chronicle cs) := by
    refine List.sublist_mergeSort ?_ ?_ tied List.filter_sublist
    · intro a b c first second
      rw [notAfter_iff] at first second ⊢
      exact first.trans second
    · intro a b
      simpa [notAfter_iff] using le_total a.rank b.rank
  have inside := kept.filter (·.rank = r)
  rw [List.filter_filter] at inside
  simp only [Bool.and_self] at inside
  exact (inside.eq_of_length ((chronicle_perm cs).filter _).length_eq.symm).symm

theorem isChronicle_chronicle (cs : List Credential) : IsChronicle (chronicle cs) cs :=
  ⟨chronicle_perm cs, chronicle_sorted cs, chronicle_filter_rank cs⟩

theorem mem_of_filter_rank {cs ds : List Credential}
    (same : ∀ r, cs.filter (·.rank = r) = ds.filter (·.rank = r)) {c : Credential}
    (member : c ∈ cs) : c ∈ ds := by
  have kept : c ∈ cs.filter (·.rank = c.rank) := List.mem_filter.mpr ⟨member, by simp⟩
  rw [same] at kept
  exact List.mem_of_mem_filter kept

theorem rank_le_of_filter_rank {cs ds : List Credential} {c d : Credential}
    (ordered : (c :: cs).Pairwise fun a b => a.rank ≤ b.rank)
    (same : ∀ r, (d :: ds).filter (·.rank = r) = (c :: cs).filter (·.rank = r)) :
    c.rank ≤ d.rank := by
  rcases List.mem_cons.mp (mem_of_filter_rank same List.mem_cons_self) with rfl | later
  · exact le_rfl
  · exact (List.pairwise_cons.mp ordered).1 d later

/-- Lists in order that rank for rank hold the same, in the same order, are the same. -/
theorem eq_of_filter_rank {cs ds : List Credential}
    (first : cs.Pairwise fun a b => a.rank ≤ b.rank)
    (second : ds.Pairwise fun a b => a.rank ≤ b.rank)
    (same : ∀ r, cs.filter (·.rank = r) = ds.filter (·.rank = r)) : cs = ds := by
  have back := fun r => (same r).symm
  induction cs generalizing ds with
  | nil =>
    cases ds with
    | nil => rfl
    | cons d ds => exact absurd (mem_of_filter_rank back List.mem_cons_self) (by simp)
  | cons c cs ih =>
    cases ds with
    | nil => exact absurd (mem_of_filter_rank same List.mem_cons_self) (by simp)
    | cons d ds =>
      have tied : c.rank = d.rank :=
        le_antisymm (rank_le_of_filter_rank first back) (rank_le_of_filter_rank second same)
      have heads := same d.rank
      rw [List.filter_cons_of_pos (by simpa using tied), List.filter_cons_of_pos (by simp)] at heads
      obtain ⟨rfl, _⟩ := List.cons.inj heads
      have rest : ∀ r, cs.filter (·.rank = r) = ds.filter (·.rank = r) := by
        intro r
        have whole := same r
        by_cases here : c.rank = r
        · rw [List.filter_cons_of_pos (by simpa using here),
            List.filter_cons_of_pos (by simpa using here)] at whole
          exact (List.cons.inj whole).2
        · rwa [List.filter_cons_of_neg (by simpa using here),
            List.filter_cons_of_neg (by simpa using here)] at whole
      rw [ih first.of_cons second.of_cons rest fun r => (rest r).symm]

theorem IsChronicle.eq_chronicle {sorted cs : List Credential} (order : IsChronicle sorted cs) :
    sorted = chronicle cs :=
  eq_of_filter_rank order.ordered (chronicle_sorted cs) fun r => by
    rw [order.stable, chronicle_filter_rank]

/-- Putting some of the credentials in order is leaving out the others afterwards. -/
theorem chronicle_filter (cs : List Credential) (p : Credential → Bool) :
    chronicle (cs.filter p) = (chronicle cs).filter p := by
  refine (IsChronicle.eq_chronicle ⟨(chronicle_perm cs).filter p,
    (chronicle_sorted cs).sublist List.filter_sublist, fun r => ?_⟩).symm
  rw [List.filter_comm, chronicle_filter_rank, List.filter_comm]

theorem firsts_filter (cs : List Credential) (p : String × String × String → Bool) :
    firsts (cs.filter (p ·.key)) = (firsts cs).filter (p ·.key) := by
  induction cs with
  | nil => rfl
  | cons c cs ih =>
    by_cases kept : p c.key = true
    · rw [List.filter_cons, if_pos kept, firsts, firsts, List.filter_cons, if_pos kept, ih,
        List.filter_comm]
    · rw [List.filter_cons, if_neg kept, firsts, List.filter_cons, if_neg kept, ih,
        List.filter_filter]
      refine List.filter_congr fun d _ => ?_
      by_cases same : d.key = c.key
      · simp [same, kept]
      · simp [same]

theorem accepted_filter (cs : List Credential) (p : String × String × String → Bool) :
    accepted (cs.filter (p ·.key)) = (accepted cs).filter (p ·.key) := by
  rw [accepted, chronicle_filter, firsts_filter, accepted]

/-- A credential with a new key is accepted, and changes nothing about the others. -/
theorem accepted_concat_perm {cs : List Credential} {c : Credential}
    (fresh : c.key ∉ cs.map key) : (accepted (cs ++ [c])).Perm (c :: accepted cs) := by
  have different : ∀ d ∈ cs, d.key ≠ c.key := fun d member same =>
    fresh (List.mem_map.mpr ⟨d, member, same⟩)
  have itself : (accepted (cs ++ [c])).filter (·.key = c.key) = [c] := by
    have alone : (cs ++ [c]).filter (·.key = c.key) = [c] := by
      rw [List.filter_append, List.filter_eq_nil_iff.mpr fun d member => by
        simpa using different d member]
      simp
    rw [← accepted_filter _ fun k => k = c.key, alone, accepted, chronicle, List.mergeSort_singleton]
    rfl
  have others : (accepted (cs ++ [c])).filter (¬ ·.key = c.key) = accepted cs := by
    have old : (cs ++ [c]).filter (¬ ·.key = c.key) = cs := by
      rw [List.filter_append, List.filter_eq_self.mpr fun d member => by
        simpa using different d member]
      simp
    rw [← accepted_filter _ fun k => ¬ k = c.key, old]
  have split := List.filter_append_perm (·.key = c.key) (accepted (cs ++ [c]))
  simp only [← decide_not, itself, others] at split
  exact split.symm

end Credential

end Vouch
