import Vouch.Proofs.CommandLine.Asked
import Vouch.Proofs.Score.Standing

namespace Vouch

section

variable {α : Type}

/-- A score is the one entry of its identity among scores. -/
def Score.OnlyEntry (s : Score α) (scores : List (Score α)) : Prop :=
  scores.filter (·.id = s.id) = [s]

namespace Score.OnlyEntry

variable {s : Score α} {scores others : List (Score α)}

theorem of_mem (nodup : (scores.map Score.id).Nodup) (member : s ∈ scores) :
    s.OnlyEntry scores := by
  obtain ⟨before, after, rfl⟩ := List.append_of_mem member
  rw [List.map_append, List.map_cons, List.nodup_middle, List.nodup_cons, List.mem_append] at nodup
  have absent : ∀ part : List (Score α), s.id ∉ part.map Score.id →
      part.filter (·.id = s.id) = [] := fun part fresh =>
    List.filter_eq_nil_iff.mpr fun t inside same =>
      fresh (List.mem_map.mpr ⟨t, inside, of_decide_eq_true same⟩)
  rw [OnlyEntry, List.filter_append, absent before fun inside => nodup.1 (Or.inl inside),
    List.filter_cons, if_pos (decide_eq_true rfl),
    absent after fun inside => nodup.1 (Or.inr inside), List.nil_append]

theorem perm (only : s.OnlyEntry scores) (same : scores.Perm others) : s.OnlyEntry others := by
  have kept := same.filter (·.id = s.id)
  rw [only] at kept
  exact List.perm_singleton.mp kept.symm

end Score.OnlyEntry

end

namespace Graph

section

variable {α : Type} [Add α] [Sub α] [Mul α] [NatCast α] {g : Graph} {id : String}

theorem scores_ids (g : Graph) (w : Weights α) : (g.scores w).map Score.id = g.ids := by
  rw [scores, ids, List.map_map]
  rfl

theorem scores_eq_map_ids (sound : g.Sound) (w : Weights α) :
    g.scores w = g.ids.map (g.score w) := by
  rw [scores_eq sound, ids, List.map_map]
  rfl

theorem eq_score_of_mem_scores (sound : g.Sound) {w : Weights α} {s : Score α}
    (member : s ∈ g.scores w) : s = g.score w s.id := by
  rw [scores_eq_map_ids sound] at member
  obtain ⟨id, _, rfl⟩ := List.mem_map.mp member
  rw [score_id]

theorem score_onlyEntry (sound : g.Sound) (w : Weights α) (known : id ∈ g.ids) :
    (g.score w id).OnlyEntry (g.scores w) := by
  refine .of_mem ?_ (score_mem_scores sound known w)
  rw [scores_ids]
  exact sound.ids_nodup

variable [LE α] [DecidableLE α]

theorem top_perm (w : Weights α) {count : Int} (all : g.nodes.length ≤ count) :
    (g.top w count).Perm (g.scores w) := by
  have places : (ranked (g.scores w)).length ≤ count.toNat := by
    rw [ranked, List.length_mergeSort, scores, List.length_map]
    omega
  rw [top, List.take_of_length_le places]
  exact List.mergeSort_perm _ _

/-- What a ranking has of an identity is what is computed for it alone. It has it for sure if there
is a place for everyone. -/
theorem score_ranked (sound : g.Sound) (w : Weights α) (known : id ∈ g.ids) (count : Int) :
    (∀ s ∈ g.top w count, s.id = id → s = g.score w id) ∧
      (g.nodes.length ≤ count → (g.score w id).OnlyEntry (g.top w count)) := by
  refine ⟨?_, fun all => (score_onlyEntry sound w known).perm (top_perm w all).symm⟩
  rintro s member rfl
  have inside : s ∈ g.scores w :=
    (List.mergeSort_perm _ _).mem_iff.mp (List.mem_of_mem_take member)
  exact eq_score_of_mem_scores sound inside

/-- The score that is computed for one identity alone is its one entry among the scores of all
identities, which come in the order of the nodes, and in every ranking that has a place for
everyone. In a shorter ranking there is no other entry of it. So the command line prints for one
identity what it ranks for it. -/
theorem score_entry :
    (∀ g : Graph, g.Reached → ∀ w : Weights α,
      g.scores w = g.ids.map (g.score w) ∧ g.ids.Nodup ∧
        ∀ id ∈ g.ids, (g.score w id).OnlyEntry (g.scores w) ∧
          ∀ count : Int, (∀ s ∈ g.top w count, s.id = id → s = g.score w id) ∧
            (g.nodes.length ≤ count → (g.score w id).OnlyEntry (g.top w count))) ∧
    ∀ (world : Surroundings) (path root : String) (g : Graph),
      build {} root world.now (.file path (world.file path)) = .ok g → ∀ id ∈ g.ids,
        (∀ args, (Command.score id).AskedBy world path root args →
          (runProgram world args).output =
            Json.write 0 (.record (g.score ({} : Settings).weights id).fields) ++ "\n") ∧
        ∀ args count target, (Command.top count target).AskedBy world path root args →
          count ≠ .blank →
            (runProgram world args).output = (Outcome.tabulate world target
              (g.top ({} : Settings).weights count.places)).output ∧
            (∀ s ∈ g.top ({} : Settings).weights count.places, s.id = id →
              s = g.score ({} : Settings).weights id) ∧
            (g.nodes.length ≤ count.places →
              (g.score ({} : Settings).weights id).OnlyEntry
                (g.top ({} : Settings).weights count.places)) := by
  refine ⟨fun g reached w => ?_, fun world path root g found id known => ?_⟩
  · have sound := reached.sound
    exact ⟨scores_eq_map_ids sound w, sound.ids_nodup, fun id known =>
      ⟨score_onlyEntry sound w known, score_ranked sound w known⟩⟩
  · have sound := (build_reached found).sound
    exact ⟨fun args asked => asked.score_output found, fun args count target asked given =>
      ⟨asked.top_output given found, score_ranked sound _ known _⟩⟩

end

/-- What becomes of the offer. -/
def accepted : Graph where
  root := "R"
  builtAt := some (.ofUtc .dawn)
  nodes := [⟨"R", some "R", "organization", none, 1, none⟩,
    ⟨"A", some "A", "member", none, 1, none⟩]
  edges := [⟨"R", "A", .other, "1", none, false⟩]

theorem build_offer :
    build {} "R" .dawn (.file "creds.json" (.bytes (Bytes.ofText offer))) = .ok accepted := by
  have named : ("R" : String) ≠ "" := by decide
  rw [build, if_neg named, Store.list, FileState.entries_eq_ok_iff.mpr offer_holds]
  cbv

/-- The newcomer is printed and ranked with the same score. -/
theorem score_entry_offer :
    (∀ w : Weights Float, (accepted.score w "A").OnlyEntry (accepted.scores w)) ∧
      ∃ (s : Score Float) (rows : List (Score Float)), s.id = "A" ∧ s.OnlyEntry rows ∧
        (runProgram (.filing (Bytes.ofText offer))
          ["score", "A", "--credentials", "creds.json", "--root", "R"]).output =
          Json.write 0 (.record s.fields) ++ "\n" ∧
        (runProgram (.filing (Bytes.ofText offer))
          ["top", "--credentials", "creds.json", "--root", "R"]).output =
          Score.table rows ++ "\n" := by
  have one : (Command.score "A").AskedBy (.filing (Bytes.ofText offer)) "creds.json" "R"
      ["score", "A", "--credentials", "creds.json", "--root", "R"] :=
    ⟨⟨.score "A", some "creds.json", some "R", .nothing⟩, by decide +kernel, rfl, by decide,
      by decide +kernel, by decide +kernel⟩
  have all : (Command.top .nothing none).AskedBy (.filing (Bytes.ofText offer)) "creds.json" "R"
      ["top", "--credentials", "creds.json", "--root", "R"] :=
    ⟨⟨.top .nothing none, some "creds.json", some "R", .nothing⟩, by decide +kernel, rfl, by decide,
      by decide +kernel, by decide +kernel⟩
  obtain ⟨graphs, commands⟩ := @score_entry Float _ _ _ _ _ _
  obtain ⟨printed, listed⟩ :=
    commands (.filing (Bytes.ofText offer)) "creds.json" "R" accepted build_offer "A" (by decide)
  obtain ⟨table, _, entry⟩ := listed _ _ _ all (by decide)
  refine ⟨fun w => ?_, _, _, score_id _ _ _, entry (by decide), printed _ one, table⟩
  exact ((graphs accepted (build_reached build_offer) w).2.2 "A" (by decide)).1

end Graph

end Vouch
