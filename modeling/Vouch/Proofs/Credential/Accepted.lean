import Mathlib.Data.List.Nodup
import Mathlib.Data.List.Sort
import Mathlib.Data.Prod.Lex
import Mathlib.Data.String.Basic
import Mathlib.Order.WithBot
import Vouch.Credential.Chronicle

namespace Vouch

namespace Credential

/-- The place of a credential in the order in which credentials are taken in. It is all that this
order sees of a credential. -/
def rank (c : Credential) : WithTop Nat ×ₗ String :=
  toLex (c.issuedAt.elim ⊤ fun r => WithTop.some r.micros, c.id)

theorem notAfter_iff {a b : Credential} : notAfter a b = true ↔ a.rank ≤ b.rank := by
  rw [notAfter, rank, rank, Prod.Lex.toLex_le_toLex]
  cases a.issuedAt with
  | none => cases b.issuedAt <;> simp
  | some s =>
    cases b.issuedAt with
    | none => simp
    | some t =>
      have before : s < t ↔ s.micros < t.micros := Iff.rfl
      have same : s = t ↔ s.micros = t.micros := by cases s; cases t; simp
      simp [before, same]

theorem rank_eq_iff {a b : Credential} : a.rank = b.rank ↔ a.issuedAt = b.issuedAt ∧ a.id = b.id := by
  rw [rank, rank, toLex_inj, Prod.mk.injEq]
  cases a.issuedAt with
  | none => cases b.issuedAt <;> simp
  | some s =>
    cases b.issuedAt with
    | none => simp
    | some t => cases s; cases t; simp

theorem issuer_eq_of_key {c d : Credential} (same : c.key = d.key) : c.issuer = d.issuer :=
  congrArg (·.1) same

theorem subject_eq_of_key {c d : Credential} (same : c.key = d.key) : c.subject = d.subject :=
  congrArg (·.2.1) same

theorem chronicle_perm (cs : List Credential) : (chronicle cs).Perm cs :=
  List.mergeSort_perm cs notAfter

theorem chronicle_sorted (cs : List Credential) :
    (chronicle cs).Pairwise fun a b => a.rank ≤ b.rank := by
  have order : notAfter = fun a b => decide (Order.Preimage rank (· ≤ ·) a b) := by
    funext a b
    rw [Bool.eq_iff_iff, decide_eq_true_eq]
    exact notAfter_iff
  rw [chronicle, order]
  exact List.pairwise_mergeSort' (Order.Preimage rank (· ≤ ·)) cs

theorem chronicle_eq_self {cs : List Credential} (sorted : cs.Pairwise fun a b => a.rank ≤ b.rank) :
    chronicle cs = cs :=
  List.mergeSort_of_pairwise (sorted.imp notAfter_iff.mpr)

/-- Of the credentials with the same issuer, subject and identifier, only the first. -/
def firsts : List Credential → List Credential
  | [] => []
  | c :: cs => c :: (firsts cs).filter (·.key ≠ c.key)

theorem firsts_sublist (cs : List Credential) : (firsts cs).Sublist cs := by
  induction cs with
  | nil => exact .slnil
  | cons c cs ih => exact (List.filter_sublist.trans ih).cons_cons c

theorem firsts_keys_nodup (cs : List Credential) : ((firsts cs).map key).Nodup := by
  induction cs with
  | nil => exact .nil
  | cons c cs ih =>
    rw [firsts, List.map_cons, List.nodup_cons]
    refine ⟨?_, ih.sublist (List.filter_sublist.map key)⟩
    intro member
    obtain ⟨d, inside, same⟩ := List.mem_map.mp member
    simp [same] at inside

theorem mem_keys_firsts_iff {cs : List Credential} {k : String × String × String} :
    k ∈ (firsts cs).map key ↔ k ∈ cs.map key := by
  induction cs with
  | nil => rfl
  | cons c cs ih =>
    by_cases same : k = c.key
    · simp [firsts, same]
    · rw [firsts, List.map_cons, List.map_cons, List.mem_cons, List.mem_cons, or_iff_right same,
        or_iff_right same, ← ih]
      constructor
      · exact fun member => (List.filter_sublist.map key).subset member
      · intro member
        obtain ⟨d, inside, rfl⟩ := List.mem_map.mp member
        exact List.mem_map_of_mem (List.mem_filter.mpr ⟨inside, by simpa using same⟩)

/-- In a list in order, the first of a key comes before all others of that key. -/
theorem firsts_least {cs : List Credential} {before : Credential → Credential → Prop}
    (self : ∀ c, before c c) (sorted : cs.Pairwise before) {c d : Credential}
    (first : c ∈ firsts cs) (other : d ∈ cs) (same : d.key = c.key) : before c d := by
  induction cs with
  | nil => cases first
  | cons e cs ih =>
    obtain ⟨ahead, rest⟩ := List.pairwise_cons.mp sorted
    rcases List.mem_cons.mp first with rfl | later
    · rcases List.mem_cons.mp other with rfl | behind
      · exact self d
      · exact ahead d behind
    · obtain ⟨inside, different⟩ := List.mem_filter.mp later
      rcases List.mem_cons.mp other with rfl | behind
      · simp [same] at different
      · exact ih rest inside behind

/-- The credentials that a graph takes in: the oldest of each key, in order. -/
def accepted (cs : List Credential) : List Credential := firsts (chronicle cs)

theorem mem_of_mem_accepted {cs : List Credential} {c : Credential} (member : c ∈ accepted cs) :
    c ∈ cs :=
  (chronicle_perm cs).subset ((firsts_sublist _).subset member)

theorem accepted_keys_nodup (cs : List Credential) : ((accepted cs).map key).Nodup :=
  firsts_keys_nodup _

theorem accepted_sorted (cs : List Credential) :
    (accepted cs).Pairwise fun a b => a.rank ≤ b.rank :=
  (chronicle_sorted cs).sublist (firsts_sublist _)

theorem mem_keys_accepted_iff {cs : List Credential} {k : String × String × String} :
    k ∈ (accepted cs).map key ↔ k ∈ cs.map key := by
  rw [accepted, mem_keys_firsts_iff]
  exact ((chronicle_perm cs).map key).mem_iff

theorem accepted_eq_nil_iff {cs : List Credential} : accepted cs = [] ↔ cs = [] := by
  cases cs with
  | nil => simp [accepted, chronicle, firsts]
  | cons c cs =>
    have keyed : c.key ∈ (accepted (c :: cs)).map key := mem_keys_accepted_iff.mpr (by simp)
    refine iff_of_false (fun none => ?_) (List.cons_ne_nil c cs)
    rw [none] at keyed
    cases keyed

theorem accepted_eq_of_key {cs : List Credential} {c d : Credential} (first : c ∈ accepted cs)
    (second : d ∈ accepted cs) (same : c.key = d.key) : c = d :=
  List.inj_on_of_nodup_map (accepted_keys_nodup cs) first second same

/-- A credential that no older one of its key can keep out. -/
def Leading (cs : List Credential) (c : Credential) : Prop :=
  c ∈ cs ∧ ∀ d ∈ cs, d.key = c.key → c.rank ≤ d.rank

theorem leading_of_mem_accepted {cs : List Credential} {c : Credential}
    (member : c ∈ accepted cs) : Leading cs c :=
  ⟨mem_of_mem_accepted member, fun _ other same =>
    firsts_least (fun c => le_refl c.rank) (chronicle_sorted cs) member
      ((chronicle_perm cs).mem_iff.mpr other) same⟩

theorem Leading.rank_eq {cs : List Credential} {c d : Credential} (first : Leading cs c)
    (second : Leading cs d) (same : c.key = d.key) : c.rank = d.rank :=
  le_antisymm (first.2 d second.1 same.symm) (second.2 c first.1 same)

theorem Leading.perm {cs ds : List Credential} {c : Credential} (leading : Leading cs c)
    (perm : cs.Perm ds) : Leading ds c :=
  ⟨perm.mem_iff.mp leading.1, fun d other same => leading.2 d (perm.mem_iff.mpr other) same⟩

theorem exists_accepted {cs ds : List Credential} (perm : cs.Perm ds) {d : Credential}
    (leading : Leading cs d) : ∃ e ∈ accepted ds, Leading cs e ∧ e.key = d.key := by
  have keyed : d.key ∈ (accepted ds).map key :=
    mem_keys_accepted_iff.mpr (List.mem_map_of_mem (perm.mem_iff.mp leading.1))
  obtain ⟨e, taken, same⟩ := List.mem_map.mp keyed
  exact ⟨e, taken, (leading_of_mem_accepted taken).perm perm.symm, same⟩

theorem mem_accepted_view {β : Type} {view : Credential → β} {cs ds : List Credential}
    (perm : cs.Perm ds)
    (agree : ∀ c ∈ accepted cs, ∀ d ∈ accepted ds, c.key = d.key → view c = view d)
    {x : (String × String × String) × β} (member : x ∈ (accepted cs).map fun c => (c.key, view c)) :
    x ∈ (accepted ds).map fun c => (c.key, view c) := by
  obtain ⟨c, taken, rfl⟩ := List.mem_map.mp member
  obtain ⟨d, other, _, same⟩ := exists_accepted perm (leading_of_mem_accepted taken)
  refine List.mem_map.mpr ⟨d, other, ?_⟩
  rw [same, agree c taken d other same.symm]

/-- Whatever the order of a store, the same keys are accepted. What credentials accepted for the
same key agree in is accepted along with them. -/
theorem accepted_view_perm {β : Type} {view : Credential → β} {cs ds : List Credential}
    (perm : cs.Perm ds)
    (agree : ∀ c ∈ accepted cs, ∀ d ∈ accepted ds, c.key = d.key → view c = view d) :
    ((accepted cs).map fun c => (c.key, view c)).Perm
      ((accepted ds).map fun c => (c.key, view c)) := by
  have distinct : ∀ es, ((accepted es).map fun c => (c.key, view c)).Nodup := by
    intro es
    refine List.Nodup.of_map Prod.fst ?_
    rw [List.map_map]
    exact accepted_keys_nodup es
  rw [List.perm_ext_iff_of_nodup (distinct cs) (distinct ds)]
  intro x
  exact ⟨mem_accepted_view perm agree, mem_accepted_view perm.symm fun c taken d other same =>
    (agree d other c taken same.symm).symm⟩

/-- What the order of a store leaves untouched in an accepted credential: its key and its time. -/
def dated (c : Credential) : (String × String × String) × Option Reading := (c.key, c.issuedAt)

theorem accepted_dated_perm {cs ds : List Credential} (perm : cs.Perm ds) :
    ((accepted cs).map dated).Perm ((accepted ds).map dated) := by
  refine accepted_view_perm perm fun c taken d other same => ?_
  have tied := (leading_of_mem_accepted taken).rank_eq
    ((leading_of_mem_accepted other).perm perm.symm) same
  exact (rank_eq_iff.mp tied).1

end Credential

end Vouch
