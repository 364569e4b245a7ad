import Vouch.Proofs.CommandLine.Asked

namespace Vouch

variable {world : Surroundings} {path root : String}

namespace Surroundings

theorem fileAt_ne_build {packing : Packing} {text : String} (cause : BuildFault) :
    world.fileAt path text packing ≠ .error (.build cause) := by
  intro failed
  unfold fileAt at failed
  split at failed
  · rename_i fault
    cases failed
    unfold parentFault? at fault
    dsimp only at fault
    split at fault
    · cases fault
    · split at fault <;> cases fault
  · split at failed
    · cases failed
    · split at failed
      · rename_i fault
        cases failed
        unfold openFault? at fault
        split at fault
        · cases fault
        · split at fault
          · cases fault
          · split at fault <;> cases fault
      · cases failed

theorem target_ne_build {text : String} (cause : BuildFault) :
    world.target text ≠ .error (.build cause) := by
  intro failed
  unfold target at failed
  dsimp only at failed
  split at failed
  · cases failed
  repeat (split at failed; · cases failed)
  cases failed

/-- Saving a table has other faults than building a graph. -/
theorem save_ne_build {text table : String} (cause : BuildFault) :
    world.save text table ≠ .error (.build cause) := by
  intro failed
  unfold save at failed
  dsimp only at failed
  split at failed
  · rename_i fault
    cases failed
    exact target_ne_build cause fault
  · split at failed
    · cases failed
    · split at failed <;> cases failed
  · rename_i place _
    cases saved : world.fileAt place table (Packing.ofPath text) with
    | ok file => simp [saved, Except.map] at failed
    | error fault =>
      simp only [saved, Except.map] at failed
      cases failed
      exact fileAt_ne_build cause saved

end Surroundings

namespace Outcome

theorem tabulate_ne_build {target : Option String} {scores : List (Score Float)}
    (cause : BuildFault) : (tabulate world target scores).ending ≠ .breakdown (.build cause) := by
  intro broken
  unfold tabulate at broken
  dsimp only at broken
  split at broken
  · cases broken
  · split at broken
    · rename_i saved
      cases broken
      exact Surroundings.save_ne_build cause saved
    · cases broken

theorem print_ne_breakdown {fields : List (String × Datum)} {cause : Breakdown} :
    (print fields).ending ≠ .breakdown cause := nofun

/-- A store breaks a command off just if its fault is one that is not reported. -/
theorem failed_eq_iff {cause : BuildFault} {fault : StoreFault} :
    (failed cause).ending = .breakdown (.build (.store fault)) ↔
      cause = .store fault ∧ fault.isReported = false := by
  cases cause with
  | store other =>
    cases reported : other.isReported with
    | true =>
      refine iff_of_false (by simp [failed, reported]) ?_
      rintro ⟨⟨⟩, unreported⟩
      rw [reported] at unreported
      cases unreported
    | false =>
      simp only [failed, reported, Bool.false_eq_true, if_false, stop, Ending.breakdown.injEq,
        Breakdown.build.injEq, BuildFault.store.injEq]
      exact ⟨fun same => ⟨same, same ▸ reported⟩, And.left⟩
  | _ => simp [failed, stop]

end Outcome

namespace Graph

variable {naming : Naming} {now : Reading} {store : Store} {fault : StoreFault}

theorem build_eq_store_iff :
    build naming root now store = .error (.store fault) ↔
      root ≠ "" ∧ store.list = .error fault := by
  unfold build
  by_cases nameless : root = ""
  · simp [nameless]
  · rw [if_neg nameless]
    cases listed : store.list with
    | error cause => simp [nameless]
    | ok items =>
      refine iff_of_false (fun failed => ?_) nofun
      simp only [ofItems] at failed
      split at failed
      · cases failed
      · split at failed <;> cases failed

theorem buildAround_eq_store_iff {id : String} {depth : Int} (deep : 0 ≤ depth) :
    buildAround naming root now store id depth = .error (.store fault) ↔
      root ≠ "" ∧ store.list = .error fault := by
  have whole : build naming root now store = .error (.store fault) ↔
      root ≠ "" ∧ store.list = .error fault := build_eq_store_iff
  rw [← whole, buildAround, if_neg (Int.not_lt.mpr deep)]
  by_cases nameless : root = ""
  · simp [nameless, build]
  · rw [if_neg nameless]
    cases build naming root now store <;> simp [Except.map]

end Graph

theorem Inquiry.report_eq_store_iff {inquiry : Inquiry} {settings : Settings} {now : Reading}
    {store : Store} {count : Option Int} {fault : StoreFault}
    (deep : 0 ≤ inquiry.depth.getD settings.hops) :
    inquiry.report settings now store count = .error (.store fault) ↔
      inquiry.root ≠ "" ∧ store.list = .error fault := by
  have drawn : inquiry.graph settings now store = .error (.store fault) ↔
      inquiry.root ≠ "" ∧ store.list = .error fault := by
    unfold graph
    split
    · exact Graph.build_eq_store_iff
    · exact Graph.buildAround_eq_store_iff deep
  rw [← drawn, report]
  cases inquiry.graph settings now store <;> simp [Except.map]

namespace Command

variable {command : Command} {fault : StoreFault}

/-- A command comes to read its credential file, unless it is refused before. -/
def ReadsFile : Command → Prop
  | graph around depth _ =>
    (depth = .nothing ∨ around ≠ .nothing) ∧ depth ≠ .blank ∧
      ∀ hops, depth = .value hops → 0 ≤ hops
  | _ => True

theorem built_broken_iff {present : Graph → Outcome} (named : root ≠ "")
    (fine : ∀ g, (present g).ending ≠ .breakdown (.build (.store fault))) :
    (run.built world path root present).ending = .breakdown (.build (.store fault)) ↔
      (Store.file path (world.file path)).list = .error fault ∧ fault.isReported = false := by
  have listed : Graph.build run.settings.naming root world.now (run.store world path) =
      .error (.store fault) ↔ root ≠ "" ∧ (run.store world path).list = .error fault :=
    Graph.build_eq_store_iff
  rw [and_iff_right named] at listed
  rw [← run.store, ← listed]
  simp only [run.built, Outcome.after]
  cases Graph.build run.settings.naming root world.now (run.store world path) with
  | error cause => rw [Outcome.failed_eq_iff, Except.error.injEq]
  | ok g => exact iff_of_false (fine g) (by rintro ⟨⟨⟩, -⟩)

theorem reported_broken_iff {inquiry : Inquiry} {count : Option Int} {present : Report → Outcome}
    (named : inquiry.root ≠ "") (deep : 0 ≤ inquiry.depth.getD run.settings.hops)
    (fine : ∀ r, (present r).ending ≠ .breakdown (.build (.store fault))) :
    (run.reported world path inquiry count present).ending = .breakdown (.build (.store fault)) ↔
      (Store.file path (world.file path)).list = .error fault ∧ fault.isReported = false := by
  have listed : inquiry.report run.settings world.now (run.store world path) count =
      .error (.store fault) ↔ inquiry.root ≠ "" ∧ (run.store world path).list = .error fault :=
    Inquiry.report_eq_store_iff deep
  rw [and_iff_right named] at listed
  rw [← run.store, ← listed]
  simp only [run.reported, Outcome.after]
  cases inquiry.report run.settings world.now (run.store world path) count with
  | error cause => rw [Outcome.failed_eq_iff, Except.error.injEq]
  | ok r => exact iff_of_false (fine r) (by rintro ⟨⟨⟩, -⟩)

theorem run_graph_broken_iff {around : Said String} {depth : Said Int} {summed : Bool}
    (named : root ≠ "") :
    ((graph around depth summed).run world path root).ending =
        .breakdown (.build (.store fault)) ↔
      (graph around depth summed).ReadsFile ∧
        (Store.file path (world.file path)).list = .error fault ∧ fault.isReported = false := by
  by_cases alone : depth ≠ .nothing ∧ around = .nothing
  · rw [run, if_pos alone]
    exact iff_of_false (by rintro ⟨⟩) fun reads =>
      reads.1.1.elim alone.1 fun given => given alone.2
  have given : depth = .nothing ∨ around ≠ .nothing := by
    rwa [not_and_or, not_not] at alone
  cases depth with
  | blank =>
    rw [run, if_neg alone, if_pos rfl]
    exact iff_of_false (by rintro ⟨⟩) fun reads => reads.1.2.1 rfl
  | nothing =>
    have silent : (.nothing : Said Int) ≠ .blank := by rintro ⟨⟩
    have reads : (graph around .nothing summed).ReadsFile := ⟨given, silent, by rintro _ ⟨⟩⟩
    rw [and_iff_right reads, run, if_neg alone, if_neg silent]
    split
    · rename_i negative
      cases negative
    split
    · exact built_broken_iff named (by rintro _ ⟨⟩)
    · exact reported_broken_iff named (Int.zero_le_ofNat 2) fun _ => Outcome.print_ne_breakdown
  | value hops =>
    have spoken : Said.value hops ≠ .blank := by rintro ⟨⟩
    rw [run, if_neg alone, if_neg spoken]
    split
    · rename_i negative
      refine iff_of_false (by rintro ⟨⟩) fun reads => ?_
      exact Int.not_lt.mpr (reads.1.2.2 hops rfl) (of_decide_eq_true negative)
    · rename_i negative
      have deep : 0 ≤ hops := Int.not_lt.mp fun below => negative (decide_eq_true below)
      have reads : (graph around (.value hops) summed).ReadsFile :=
        ⟨given, spoken, fun _ said => by cases said; exact deep⟩
      rw [and_iff_right reads]
      split
      · exact built_broken_iff named (by rintro _ ⟨⟩)
      · exact reported_broken_iff named deep fun _ => Outcome.print_ne_breakdown

/-- A command breaks off because of its credential file just if it comes to read it, and the file
has a fault that is not reported. -/
theorem run_broken_iff (named : root ≠ "") :
    (command.run world path root).ending = .breakdown (.build (.store fault)) ↔
      command.ReadsFile ∧
        (Store.file path (world.file path)).list = .error fault ∧ fault.isReported = false := by
  have hops : 0 ≤ (none : Option Int).getD run.settings.hops := Int.zero_le_ofNat 2
  cases command with
  | graph around depth summed => exact run_graph_broken_iff named
  | score id =>
    refine Iff.trans ?_ (and_iff_right trivial).symm
    exact built_broken_iff named fun _ => Outcome.print_ne_breakdown
  | top count target =>
    refine Iff.trans ?_ (and_iff_right trivial).symm
    cases count with
    | blank => exact built_broken_iff named fun _ => nofun
    | _ => exact reported_broken_iff named hops fun _ => Outcome.tabulate_ne_build _
  | summary =>
    refine Iff.trans ?_ (and_iff_right trivial).symm
    exact reported_broken_iff named hops fun _ => Outcome.print_ne_breakdown

end Command

end Vouch
