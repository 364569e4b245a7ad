import Vouch.Proofs.Credential.Accepted

namespace Vouch

theorem getLast?_filterMap_eq_some_iff {α β : Type} {f : α → Option β} {xs : List α} {b : β} :
    (xs.filterMap f).getLast? = some b ↔
      ∃ before a after, xs = before ++ a :: after ∧ f a = some b ∧ ∀ c ∈ after, f c = none := by
  rw [List.getLast?_eq_some_iff]
  constructor
  · rintro ⟨front, last⟩
    obtain ⟨before, rest, rfl, _, tail⟩ := List.filterMap_eq_append_iff.mp last
    obtain ⟨silent, a, after, rfl, quiet, found, none⟩ := List.filterMap_eq_cons_iff.mp tail
    refine ⟨before ++ silent, a, after, by simp, found, ?_⟩
    exact List.filterMap_eq_nil_iff.mp none
  · rintro ⟨before, a, after, rfl, found, quiet⟩
    refine ⟨before.filterMap f, ?_⟩
    rw [List.filterMap_append, List.filterMap_cons_some found, List.filterMap_eq_nil_iff.mpr quiet]

namespace Credential

/-- The last word that credentials have about a subject, of what is a text in some of them. -/
def lastWord (word : Credential → Option String) (subject : String) (cs : List Credential) :
    Option String :=
  ((cs.filter (·.subject = subject)).filterMap word).getLast?

/-- A key can stay silent: one of the credentials that may be accepted for it lacks the text. -/
def CanPass (cs : List Credential) (word : Credential → Option String)
    (key : String × String × String) : Prop :=
  ∃ d, Leading cs d ∧ d.key = key ∧ word d = none

/-- A text can have the last word about a subject: nothing of a higher rank has to speak after it.
There can be no last word if nothing has to speak at all. -/
def CanEnd (cs : List Credential) (word : Credential → Option String) (subject : String) :
    Option String → Prop
  | none => ∀ d, Leading cs d → d.subject = subject → CanPass cs word d.key
  | some text => ∃ c, Leading cs c ∧ c.subject = subject ∧ word c = some text ∧
      ∀ d, Leading cs d → d.subject = subject → c.rank < d.rank → CanPass cs word d.key

variable {cs ds : List Credential} {word : Credential → Option String} {subject : String}

/-- In whatever order credentials are stored, the last word is one that can be the last. -/
theorem canEnd_lastWord (perm : cs.Perm ds) (word : Credential → Option String)
    (subject : String) : CanEnd cs word subject (lastWord word subject (accepted ds)) := by
  cases last : lastWord word subject (accepted ds) with
  | none =>
    intro d leading about
    obtain ⟨e, taken, front, same⟩ := exists_accepted perm leading
    have silent := List.filterMap_eq_nil_iff.mp (List.getLast?_eq_none_iff.mp last) e
      (List.mem_filter.mpr ⟨taken, by simpa [subject_eq_of_key same] using about⟩)
    exact ⟨e, front, same, silent⟩
  | some text =>
    obtain ⟨before, c, after, split, spoken, quiet⟩ := getLast?_filterMap_eq_some_iff.mp last
    have among : ∀ e, e ∈ before ++ c :: after ↔ e ∈ accepted ds ∧ e.subject = subject := by
      intro e
      rw [← split, List.mem_filter, decide_eq_true_eq]
    have sorted : (before ++ c :: after).Pairwise fun a b => a.rank ≤ b.rank := by
      rw [← split]
      exact (accepted_sorted ds).sublist List.filter_sublist
    obtain ⟨taken, about⟩ := (among c).mp (by simp)
    refine ⟨c, (leading_of_mem_accepted taken).perm perm.symm, about, spoken, ?_⟩
    intro d leading said above
    obtain ⟨e, other, front, same⟩ := exists_accepted perm leading
    have higher : c.rank < e.rank := by rwa [front.rank_eq leading same]
    refine ⟨e, front, same, quiet e ?_⟩
    -- What stands before the last word has no higher rank than it.
    rcases List.mem_append.mp ((among e).mpr ⟨other, (subject_eq_of_key same).trans said⟩) with
      earlier | later
    · have below := (List.pairwise_append.mp sorted).2.2 e earlier c List.mem_cons_self
      exact absurd higher below.not_gt
    · rcases List.mem_cons.mp later with rfl | behind
      · exact absurd higher (lt_irrefl _)
      · exact behind

/-- Credentials in their order, with a preference among those that the order does not tell apart. -/
def Arranged (pref : Credential → Nat) (cs : List Credential) : Prop :=
  cs.Pairwise fun a b => toLex (a.rank, pref a) ≤ toLex (b.rank, pref b)

/-- A store can be put into an order that follows any preference. What holds no credential goes
first. -/
theorem exists_arranged {α : Type} (credential? : α → Option Credential)
    (pref : Credential → Nat) (xs : List α) :
    ∃ ys, xs.Perm ys ∧ Arranged pref (ys.filterMap credential?) := by
  let place : α → WithBot ((WithTop Nat ×ₗ String) ×ₗ Nat) := fun x =>
    (credential? x).elim ⊥ fun c => (toLex (c.rank, pref c) : (WithTop Nat ×ₗ String) ×ₗ Nat)
  have sorted := List.pairwise_mergeSort' (Order.Preimage place (· ≤ ·)) xs
  refine ⟨_, (List.mergeSort_perm xs _).symm, sorted.filterMap _ ?_⟩
  intro x y order c first d second
  have places : place x ≤ place y := order
  simp only [place, first, second, Option.elim_some] at places
  exact WithBot.coe_le_coe.mp places

namespace Arranged

variable {pref : Credential → Nat}

theorem accepted_eq (arranged : Arranged pref ds) : accepted ds = firsts ds := by
  have sorted : ds.Pairwise fun a b => a.rank ≤ b.rank :=
    arranged.imp fun order => Prod.Lex.monotone_fst _ _ order
  rw [accepted, chronicle_eq_self sorted]

theorem pref_le (arranged : Arranged pref ds) {c d : Credential} (taken : c ∈ accepted ds)
    (leading : Leading ds d) (same : d.key = c.key) : pref c ≤ pref d := by
  have tied := (leading_of_mem_accepted taken).rank_eq leading same.symm
  rw [arranged.accepted_eq] at taken
  have order := firsts_least (fun c => le_refl (toLex (c.rank, pref c))) arranged taken leading.1 same
  rcases Prod.Lex.toLex_le_toLex.mp order with below | ⟨_, bound⟩
  · exact absurd below tied.not_lt
  · exact bound

end Arranged

theorem CanPass.perm {k : String × String × String} (perm : cs.Perm ds)
    (pass : CanPass cs word k) : CanPass ds word k := by
  obtain ⟨d, leading, same, silent⟩ := pass
  exact ⟨d, leading.perm perm, same, silent⟩

theorem CanEnd.perm {text : Option String} (perm : cs.Perm ds)
    (canEnd : CanEnd cs word subject text) : CanEnd ds word subject text := by
  cases text with
  | none => exact fun d leading about => (canEnd d (leading.perm perm.symm) about).perm perm
  | some text =>
    obtain ⟨c, leading, about, spoken, quiet⟩ := canEnd
    exact ⟨c, leading.perm perm, about, spoken, fun d other said above =>
      (quiet d (other.perm perm.symm) said above).perm perm⟩

theorem CanPass.word_eq_none {c : Credential} (pass : CanPass cs word c.key)
    (leading : Leading cs c) (apart : ∀ c ∈ cs, ∀ d ∈ cs, c.rank = d.rank → c = d) :
    word c = none := by
  obtain ⟨d, other, same, silent⟩ := pass
  rwa [apart c leading.1 d other.1 (leading.rank_eq other same.symm)]

/-- Only one text can have the last word if the order tells all credentials apart. -/
theorem CanEnd.unique {a b : Option String} (first : CanEnd cs word subject a)
    (second : CanEnd cs word subject b)
    (apart : ∀ c ∈ cs, ∀ d ∈ cs, c.rank = d.rank → c = d) : a = b := by
  have silent : ∀ text, CanEnd cs word subject none → ¬ CanEnd cs word subject (some text) := by
    rintro text quiet ⟨c, leading, about, spoken, _⟩
    have none := (quiet c leading about).word_eq_none leading apart
    rw [none] at spoken
    cases spoken
  cases a with
  | none =>
    cases b with
    | none => rfl
    | some text => exact absurd second (silent text first)
  | some text =>
    cases b with
    | none => exact absurd first (silent text second)
    | some other =>
      obtain ⟨c, leading, about, spoken, quiet⟩ := first
      obtain ⟨d, leading', about', spoken', quiet'⟩ := second
      rcases lt_trichotomy c.rank d.rank with below | tied | above
      · rw [(quiet d leading' about' below).word_eq_none leading' apart] at spoken'
        cases spoken'
      · rw [← spoken, ← spoken', apart c leading.1 d leading'.1 tied]
      · rw [(quiet' c leading about above).word_eq_none leading apart] at spoken
        cases spoken

/-- Silence is preferred. -/
def reticence (word : Credential → Option String) (d : Credential) : Nat :=
  if word d = none then 0 else 1

/-- Silence is preferred, and after all others of its rank comes one key, for which one credential
is preferred. -/
def deference (word : Credential → Option String) (c d : Credential) : Nat :=
  if d.key = c.key then if d = c then 2 else 3 else reticence word d

theorem Arranged.lastWord_eq_none (arranged : Arranged (reticence word) ds)
    (quiet : CanEnd ds word subject none) : lastWord word subject (accepted ds) = none := by
  rw [lastWord, List.getLast?_eq_none_iff, List.filterMap_eq_nil_iff]
  intro e member
  obtain ⟨taken, about⟩ := List.mem_filter.mp member
  obtain ⟨d, leading, same, silent⟩ :=
    quiet e (leading_of_mem_accepted taken) (of_decide_eq_true about)
  have preferred := arranged.pref_le taken leading same
  by_contra speaks
  simp [reticence, silent, speaks] at preferred

theorem Arranged.lastWord_eq_some {c : Credential} {text : String}
    (arranged : Arranged (deference word c) ds) (leading : Leading ds c)
    (about : c.subject = subject) (spoken : word c = some text)
    (quiet : ∀ d, Leading ds d → d.subject = subject → c.rank < d.rank → CanPass ds word d.key) :
    lastWord word subject (accepted ds) = some text := by
  obtain ⟨e, first, _, own⟩ := exists_accepted (.refl ds) leading
  -- Of its key, the credential itself is accepted.
  have taken : c ∈ accepted ds := by
    have preferred := arranged.pref_le first leading own.symm
    by_cases same : e = c
    · rwa [← same]
    · simp [deference, own, same] at preferred
  have sorted : Arranged (deference word c) (accepted ds) := by
    rw [arranged.accepted_eq]
    exact arranged.sublist (firsts_sublist ds)
  have kept : c ∈ (accepted ds).filter (·.subject = subject) :=
    List.mem_filter.mpr ⟨taken, decide_eq_true about⟩
  obtain ⟨before, after, split⟩ := List.append_of_mem kept
  have part : (before ++ c :: after).Sublist (accepted ds) := by
    rw [← split]
    exact List.filter_sublist
  rw [lastWord, getLast?_filterMap_eq_some_iff]
  refine ⟨before, c, after, split, spoken, fun d behind => ?_⟩
  have among : d ∈ (accepted ds).filter (·.subject = subject) := by
    rw [split]
    exact List.mem_append_right _ (List.mem_cons_of_mem _ behind)
  obtain ⟨other, said⟩ := List.mem_filter.mp among
  have apart : d.key ≠ c.key := by
    intro same
    have keys := (accepted_keys_nodup ds).sublist (part.map key)
    rw [List.map_append, List.map_cons] at keys
    have absent := (List.nodup_cons.mp (List.nodup_append.mp keys).2.1).1
    exact absent (same ▸ List.mem_map_of_mem behind)
  have later : toLex (c.rank, deference word c c) ≤ toLex (d.rank, deference word c d) :=
    (List.pairwise_cons.mp (List.pairwise_append.mp (sorted.sublist part)).2.1).1 d behind
  rcases Prod.Lex.toLex_le_toLex.mp later with above | ⟨_, bound⟩
  · obtain ⟨f, silenced, same, silent⟩ :=
      quiet d (leading_of_mem_accepted other) (of_decide_eq_true said) above
    have preferred := arranged.pref_le other silenced same
    by_contra speaks
    simp [deference, reticence, apart, same, silent, speaks] at preferred
  · simp only [deference, if_pos, apart, if_false, reticence] at bound
    split at bound <;> omega

/-- Every word that can be the last is so in some order of a store. -/
theorem exists_perm_lastWord {α : Type} {credential? : α → Option Credential} {xs : List α}
    {text : Option String} (canEnd : CanEnd (xs.filterMap credential?) word subject text) :
    ∃ ys, xs.Perm ys ∧ lastWord word subject (accepted (ys.filterMap credential?)) = text := by
  cases text with
  | none =>
    obtain ⟨ys, perm, arranged⟩ := exists_arranged credential? (reticence word) xs
    exact ⟨ys, perm, arranged.lastWord_eq_none (canEnd.perm (perm.filterMap credential?))⟩
  | some text =>
    obtain ⟨c, leading, about, spoken, quiet⟩ := canEnd
    obtain ⟨ys, perm, arranged⟩ := exists_arranged credential? (deference word c) xs
    have same := perm.filterMap credential?
    exact ⟨ys, perm, arranged.lastWord_eq_some (leading.perm same) about spoken
      fun d other said above => (quiet d (other.perm same.symm) said above).perm same⟩

theorem exists_perm_accepted {α : Type} {credential? : α → Option Credential} {xs : List α}
    {c : Credential} (leading : Leading (xs.filterMap credential?) c) :
    ∃ ys, xs.Perm ys ∧ c ∈ accepted (ys.filterMap credential?) := by
  obtain ⟨ys, perm, arranged⟩ := exists_arranged credential? (fun d => if d = c then 0 else 1) xs
  have same := perm.filterMap credential?
  obtain ⟨e, taken, _, own⟩ := exists_accepted same leading
  have preferred := arranged.pref_le taken (leading.perm same) own.symm
  have itself : e = c := by
    by_contra other
    simp [other] at preferred
  exact ⟨ys, perm, itself ▸ taken⟩

end Credential

end Vouch
