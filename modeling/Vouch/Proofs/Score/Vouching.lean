import Vouch.Proofs.Graph.Named
import Vouch.Proofs.Score.Standing

namespace Vouch

theorem length_eraseDups {α : Type} [DecidableEq α] (xs : List α) :
    xs.eraseDups.length = xs.toFinset.card := by
  rw [← List.toFinset_card_of_nodup (eraseDups_nodup xs)]
  congr 1
  ext x
  simp

namespace Graph

namespace Gains

variable {g g' : Graph} {giver taker : String}

theorem incoming_ends (gains : g.Gains g' giver taker) :
    ((g'.incoming taker).map Edge.ends).Perm
      ((giver, taker) :: (g.incoming taker).map Edge.ends) := by
  have kept := (gains.ends.filter (·.2 = taker))
  rw [List.filter_cons_of_pos (by simp)] at kept
  exact (g'.incoming_ends taker).trans (kept.trans ((g.incoming_ends taker).symm.cons _))

theorem incoming_sources (gains : g.Gains g' giver taker) :
    ((g'.incoming taker).map Edge.source).Perm (giver :: (g.incoming taker).map Edge.source) := by
  simpa [Function.comp_def, Edge.ends] using gains.incoming_ends.map Prod.fst

theorem issuers_eq (gains : g.Gains g' giver taker) (fresh : g.links giver taker = false) :
    ((g'.incoming taker).map Edge.source).eraseDups.length =
      ((g.incoming taker).map Edge.source).eraseDups.length + 1 := by
  have new : giver ∉ ((g.incoming taker).map Edge.source).toFinset := by
    rw [List.mem_toFinset]
    intro old
    obtain ⟨e, member, rfl⟩ := List.mem_map.mp old
    have linked := links_of_mem_incoming member
    rw [fresh] at linked
    cases linked
  rw [length_eraseDups, length_eraseDups, List.toFinset_eq_of_perm _ _ gains.incoming_sources,
    List.toFinset_cons, Finset.card_insert_of_notMem new]

theorem reciprocal_eq (gains : g.Gains g' giver taker) (foreign : giver ≠ taker) :
    (g'.incoming taker).countP Edge.reciprocal =
      (g.incoming taker).countP Edge.reciprocal + (g.links taker giver).toNat := by
  have old : ((g.incoming taker).map Edge.ends).countP (fun x => g'.isReciprocal x.1 x.2) =
      ((g.incoming taker).map Edge.ends).countP fun x => g.isReciprocal x.1 x.2 := by
    refine List.countP_congr fun x member => ?_
    obtain ⟨e, inside, rfl⟩ := List.mem_map.mp member
    have same : e.ends.2 = taker := target_of_mem_incoming inside
    have linked : g.links e.ends.1 taker = true := links_of_mem_incoming inside
    rw [same, gains.isReciprocal_taker foreign linked]
  rw [gains.marked'.reciprocal_eq, gains.marked.reciprocal_eq, gains.incoming_ends.countP_eq,
    List.countP_cons, old, gains.isReciprocal_giver foreign]
  cases g.links taker giver <;> rfl

theorem rootIssued_eq (gains : g.Gains g' giver taker) :
    ((g'.incoming taker).any fun e => e.source = g.root) =
      (giver = g.root || (g.incoming taker).any fun e => e.source = g.root) := by
  have found : ((g'.incoming taker).map Edge.source).any (· = g.root) =
      (giver :: (g.incoming taker).map Edge.source).any (· = g.root) :=
    gains.incoming_sources.any_eq
  rwa [List.any_map, List.any_cons, List.any_map] at found

/-- What becomes of the standing of the taker. -/
theorem standing_eq (gains : g.Gains g' giver taker) (foreign : giver ≠ taker)
    (fresh : g.links giver taker = false) (depth before : Option Nat) :
    g'.standing taker depth =
      { incoming := (g.standing taker before).incoming + 1
        outgoing := (g'.outgoing taker).length
        issuers := (g.standing taker before).issuers + 1
        reciprocal := (g.standing taker before).reciprocal + (g.links taker giver).toNat
        depth := if taker = g.root then some 0 else depth
        rootIssued := giver = g.root || (g.standing taker before).rootIssued } := by
  have incoming : (g'.incoming taker).length = (g.incoming taker).length + 1 := by
    simpa using gains.incoming_ends.length_eq
  simp only [standing, incoming, gains.issuers_eq fresh, gains.reciprocal_eq foreign, gains.root,
    gains.rootIssued_eq]

end Gains

end Graph

namespace Weights

/-- What the way to the root costs. There is no charge if there is no way. -/
def toll (w : Weights ℚ) (depth : Option Nat) : ℚ := depth.elim 0 fun d => d * w.hop

/-- What one more issuer brings. -/
def gain (w : Weights ℚ) (returned byRoot : Bool) : ℚ :=
  w.incoming + w.issuer + (if returned then w.reciprocal else 0) + if byRoot then w.rootIssued else 0

/-- Weights that take nothing away by what they reward, and give nothing for hops. -/
structure Nonnegative (w : Weights ℚ) : Prop where
  incoming : 0 ≤ w.incoming
  issuer : 0 ≤ w.issuer
  reciprocal : 0 ≤ w.reciprocal
  hop : 0 ≤ w.hop
  rootIssued : 0 ≤ w.rootIssued

theorem Nonnegative.gain {w : Weights ℚ} (nonneg : w.Nonnegative) (returned byRoot : Bool) :
    0 ≤ w.gain returned byRoot := by
  obtain ⟨incoming, issuer, reciprocal, _, rootIssued⟩ := nonneg
  unfold Weights.gain
  split <;> split <;> linarith

theorem Nonnegative.toll_le {w : Weights ℚ} (nonneg : w.Nonnegative) {n m : Nat} (less : n ≤ m) :
    w.toll (some n) ≤ w.toll (some m) :=
  mul_le_mul_of_nonneg_right (by exact_mod_cast less) nonneg.hop

theorem value_eq (w : Weights ℚ) (s : Standing) :
    w.value s = s.incoming * w.incoming + s.issuers * w.issuer + s.reciprocal * w.reciprocal -
      w.toll s.depth + if s.rootIssued then w.rootIssued else 0 := by
  unfold value toll
  cases s.depth <;> cases s.rootIssued <;> simp

theorem value_gain (w : Weights ℚ) (s : Standing) (outgoing : Nat) (depth : Option Nat)
    {returned byRoot : Bool} (first : byRoot = true → s.rootIssued = false) :
    w.value ⟨s.incoming + 1, outgoing, s.issuers + 1, s.reciprocal + returned.toNat, depth,
        byRoot || s.rootIssued⟩ =
      w.value s + w.gain returned byRoot + w.toll s.depth - w.toll depth := by
  have bonus : (if byRoot || s.rootIssued then w.rootIssued else 0) =
      (if s.rootIssued then w.rootIssued else 0) + if byRoot then w.rootIssued else 0 := by
    cases byRoot with
    | false => simp
    | true => simp [first rfl]
  have returns : ((s.reciprocal + returned.toNat : Nat) : ℚ) * w.reciprocal =
      s.reciprocal * w.reciprocal + if returned then w.reciprocal else 0 := by
    cases returned with
    | false => simp
    | true => simp [add_mul]
  simp only [value_eq, gain, bonus, returns]
  push_cast
  ring

end Weights

namespace Graph

theorem score_value {g : Graph} (w : Weights ℚ) {id : String} (known : id ∈ g.ids) :
    (g.score w id).value = w.value (g.standing id (g.depthOf id)) := by
  obtain ⟨n, _, same⟩ := exists_score_eq known w
  rw [same, Node.score]

namespace Gains

variable {g g' : Graph} {giver taker : String}

/-- What one more issuer does to the score of the taker: it gains, and it may have another way to
the root. -/
theorem score_eq (gains : g.Gains g' giver taker) (foreign : giver ≠ taker)
    (fresh : g.links giver taker = false) (known : taker ∈ g.ids) (known' : taker ∈ g'.ids)
    (member : taker ≠ g.root) (w : Weights ℚ) :
    (g'.score w taker).value =
      (g.score w taker).value + w.gain (g.links taker giver) (giver = g.root) +
        w.toll (g.depthOf taker) - w.toll (g'.depthOf taker) := by
  have first : decide (giver = g.root) = true →
      (g.standing taker (g.depthOf taker)).rootIssued = false := by
    intro byRoot
    rw [← Bool.not_eq_true, standing]
    simp only [List.any_eq_true, decide_eq_true_eq, not_exists, not_and]
    intro e inside fromRoot
    have linked := links_of_mem_incoming inside
    rw [fromRoot, ← of_decide_eq_true byRoot, fresh] at linked
    cases linked
  have depth : (g.standing taker (g.depthOf taker)).depth = g.depthOf taker := if_neg member
  rw [score_value w known, score_value w known', gains.standing_eq foreign fresh _ (g.depthOf taker),
    if_neg member, w.value_gain _ _ _ first, depth]

/-- All that can become of the way from the root to the taker: it gets no longer, there is still
none, or there is one now by way of the giver. -/
theorem depthOf_cases (gains : g.Gains g' giver taker) (sound : g.Sound) (sound' : g'.Sound)
    (present : g.root ∈ g.ids) (present' : g'.root ∈ g'.ids) :
    (∃ near far, near ≤ far ∧ g.depthOf taker = some far ∧ g'.depthOf taker = some near) ∨
      g.depthOf taker = none ∧
        (g.depthOf giver = none ∧ g'.depthOf taker = none ∨
          ∃ hops, g.depthOf giver = some hops ∧ g'.depthOf taker = some (hops + 1)) := by
  cases before : g.depthOf taker with
  | some far =>
    have least := (depthOf_eq_some_iff sound present).mp before
    obtain ⟨near, less, least'⟩ := gains.exists_isDistance_le least
    rw [← gains.root] at least'
    exact Or.inl ⟨near, far, less, rfl, (depthOf_eq_some_iff sound' present').mpr least'⟩
  | none =>
    have unreached := (depthOf_eq_none_iff sound present).mp before
    refine Or.inr ⟨rfl, ?_⟩
    cases way : g.depthOf giver with
    | none =>
      have apart := (depthOf_eq_none_iff sound present).mp way
      refine Or.inl ⟨rfl, (depthOf_eq_none_iff sound' present').mpr fun n => ?_⟩
      rw [gains.root]
      exact gains.not_chain_taker unreached apart
    | some hops =>
      have least := gains.isDistance_taker unreached ((depthOf_eq_some_iff sound present).mp way)
      rw [← gains.root] at least
      exact Or.inr ⟨hops, rfl, (depthOf_eq_some_iff sound' present').mpr least⟩

theorem depthOf_opened (gains : g.Gains g' giver taker) (sound : g.Sound) (sound' : g'.Sound)
    (present : g.root ∈ g.ids) (present' : g'.root ∈ g'.ids) {hops : Nat}
    (before : g.depthOf taker = none) (way : g.depthOf giver = some hops) :
    g'.depthOf taker = some (hops + 1) := by
  rcases gains.depthOf_cases sound sound' present present' with
    ⟨_, _, _, reached, _⟩ | ⟨_, ⟨apart, _⟩ | ⟨hops', way', after⟩⟩
  · rw [before] at reached
    cases reached
  · rw [way] at apart
    cases apart
  · rw [way] at way'
    cases way'
    exact after

/-- The way to the root gets no dearer, unless there was none and there is one now. -/
theorem toll_le (gains : g.Gains g' giver taker) (sound : g.Sound) (sound' : g'.Sound)
    (present : g.root ∈ g.ids) (present' : g'.root ∈ g'.ids) {w : Weights ℚ}
    (nonneg : w.Nonnegative) (unopened : g.depthOf taker = none → g.depthOf giver = none) :
    w.toll (g'.depthOf taker) ≤ w.toll (g.depthOf taker) := by
  rcases gains.depthOf_cases sound sound' present present' with
    ⟨near, far, less, before, after⟩ | ⟨before, ⟨_, after⟩ | ⟨hops, way, _⟩⟩
  · rw [before, after]
    exact nonneg.toll_le less
  · rw [before, after]
  · rw [unopened before] at way
    cases way

/-- A taker that was out of reach has given the giver nothing, if that one was within reach. -/
theorem not_links_taker (sound : g.Sound) (present : g.root ∈ g.ids) {hops : Nat}
    (before : g.depthOf taker = none) (way : g.depthOf giver = some hops) :
    g.links taker giver = false := by
  rw [← Bool.not_eq_true]
  intro linked
  have chain := ((depthOf_eq_some_iff sound present).mp way).chain
  exact (depthOf_eq_none_iff sound present).mp before _
    (chain.step (Graph.touch_iff.mpr (Or.inr linked)))

end Gains

variable {naming : Naming} {root : String} {now now' : Reading} {store store' : Store}
  {items : List Item} {item : Item} {c : Credential} {g : Graph} {w : Weights ℚ}

theorem subject_mem_built_ids (decoded : item.decode = .ok c) (member : item ∈ items) :
    c.subject ∈ (built naming root now items).ids := by
  have credential : c ∈ items.filterMap Item.credential? :=
    List.mem_filterMap.mpr ⟨item, member, Item.credential?_eq_some_iff.mpr decoded⟩
  exact mem_built_ids_iff.mpr (Or.inr ⟨c, credential, Credential.names_iff.mpr (Or.inr rfl)⟩)

/-- A first credential from another issuer does not lower the score of a member, as long as it does
not open the only way to the root. Where it does, the member starts to pay for hops, and the score
is not lower exactly if what the issuer brings makes up for that. -/
theorem score_le_score_iff (nonneg : w.Nonnegative) (listed : store.list = .ok items)
    (relisted : store'.list = .ok (items ++ [item])) (run : build naming root now store = .ok g)
    (decoded : item.decode = .ok c) (known : c.subject ∈ g.ids) (member : c.subject ≠ root)
    (foreign : c.issuer ≠ c.subject) (fresh : g.links c.issuer c.subject = false) :
    ∃ g', build naming root now' store' = .ok g' ∧
      ((g.depthOf c.subject = none → g.depthOf c.issuer = none) →
        (g.score w c.subject).value ≤ (g'.score w c.subject).value) ∧
      ∀ hops, g.depthOf c.subject = none → g.depthOf c.issuer = some hops →
        ((g.score w c.subject).value ≤ (g'.score w c.subject).value ↔
          (hops + 1 : Nat) * w.hop ≤
            w.incoming + w.issuer + if c.issuer = root then w.rootIssued else 0) := by
  obtain ⟨named, others, again, inside, rfl⟩ := build_cases run
  obtain rfl : others = items := Except.ok.inj (again.symm.trans listed)
  have inside' : ∀ i ∈ others ++ [item], ¬ i.BreaksOff := by
    intro i place
    rcases List.mem_append.mp place with old | new
    · exact inside i old
    · rw [List.mem_singleton.mp new, Item.breaksOff_iff_exists, decoded]
      simp
  have run' : build naming root now' store' = .ok (built naming root now' (others ++ [item])) :=
    build_eq_built named relisted inside'
  have sound := (build_reached run).sound
  have sound' := (build_reached run').sound
  have gains := @built_gains naming root now now' others item c decoded fresh
  have known' : c.subject ∈ (built naming root now' (others ++ [item])).ids :=
    subject_mem_built_ids decoded (by simp)
  have score := gains.score_eq foreign fresh known known' member w
  change _ = _ + w.gain _ (c.issuer = root) + _ - _ at score
  refine ⟨_, run', fun unopened => ?_, fun hops before way => ?_⟩
  · have reward := nonneg.gain ((built naming root now others).links c.subject c.issuer)
      (c.issuer = root)
    have toll := gains.toll_le sound sound' root_mem_built_ids root_mem_built_ids nonneg unopened
    linarith
  · have unreturned := Gains.not_links_taker sound root_mem_built_ids before way
    have after :=
      gains.depthOf_opened sound sound' root_mem_built_ids root_mem_built_ids before way
    rw [before, after, unreturned] at score
    simp only [Weights.gain, Weights.toll, Option.elim_none, Option.elim_some, add_zero,
      Bool.false_eq_true, if_false, decide_eq_true_eq] at score
    constructor <;> intro bound <;> linarith

/-- A claim that somebody makes about themself. -/
def hermit : Item :=
  .record { id := .text "1", schema := .text "self_claim", issuer := .text "A" }

/-- What becomes of that claim alone. -/
def hermitage : Graph where
  root := "R"
  builtAt := some (.ofUtc .dawn)
  nodes := [⟨"R", some "R", "organization", none, 0, none⟩, ⟨"A", some "A", "member", none, 1, none⟩]
  edges := [⟨"A", "A", .selfClaim, "1", none, false⟩]

/-- What becomes of it along with a membership that the root gives. -/
def visited : Graph where
  root := "R"
  builtAt := some (.ofUtc .dawn)
  nodes := [⟨"R", some "R", "organization", none, 1, none⟩, ⟨"A", some "A", "member", none, 2, none⟩]
  edges := [⟨"A", "A", .selfClaim, "1", none, false⟩, ⟨"R", "A", .membership, "1", none, false⟩]

theorem build_hermitage : build {} "R" .dawn (.memory [hermit]) = .ok hermitage := by cbv

theorem build_visited : build {} "R" .dawn (.memory [hermit, .joining []]) = .ok visited := by cbv

theorem joining_decode :
    (Item.joining []).decode =
      .ok ⟨"1", "R", "A", none, none, none, .membership none none []⟩ := by decide +kernel

theorem score_le_score_iff_hermit :
    (hermitage.score (⟨1, 2, 3, 1 / 10, 2⟩ : Weights ℚ) "A").value ≤
      (visited.score (⟨1, 2, 3, 1 / 10, 2⟩ : Weights ℚ) "A").value := by
  have nonneg : (⟨1, 2, 3, 1 / 10, 2⟩ : Weights ℚ).Nonnegative := by constructor <;> norm_num
  have before : hermitage.depthOf "A" = none := by cbv
  obtain ⟨g', run, _, opened⟩ := @score_le_score_iff {} "R" .dawn .dawn (.memory [hermit])
    (.memory ([hermit] ++ [.joining []])) [hermit] (.joining []) _ _ _ nonneg rfl rfl
    build_hermitage joining_decode (by decide) (by decide) (by decide) (by decide)
  obtain rfl : visited = g' := Except.ok.inj (build_visited.symm.trans run)
  exact (opened 0 before rfl).mpr (by norm_num)

/-- Where hops are dear, coming within reach of the root costs more than a new issuer brings. -/
theorem score_visited_lt_score_hermitage :
    build {} "R" .dawn (.memory [hermit]) = .ok hermitage ∧
      build {} "R" .dawn (.memory ([hermit] ++ [.joining []])) = .ok visited ∧
      (∃ c, (Item.joining []).decode = .ok c ∧ c.subject = "A" ∧ c.issuer = "R") ∧
      "A" ∈ hermitage.ids ∧ hermitage.links "R" "A" = false ∧
      (⟨1, 2, 3, 10, 2⟩ : Weights ℚ).Nonnegative ∧
      (visited.score (⟨1, 2, 3, 10, 2⟩ : Weights ℚ) "A").value <
        (hermitage.score (⟨1, 2, 3, 10, 2⟩ : Weights ℚ) "A").value := by
  refine ⟨build_hermitage, build_visited, ⟨_, joining_decode, rfl, rfl⟩, by decide, by decide,
    by constructor <;> norm_num, ?_⟩
  have before : hermitage.standing "A" (hermitage.depthOf "A") = ⟨1, 1, 1, 0, none, false⟩ := by cbv
  have after : visited.standing "A" (visited.depthOf "A") = ⟨2, 1, 2, 0, some 1, true⟩ := by cbv
  rw [score_value _ (by decide), score_value _ (by decide), before, after]
  norm_num [Weights.value]

end Graph

end Vouch
