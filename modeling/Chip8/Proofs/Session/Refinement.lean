import Chip8.Proofs.Session.Course

/-!
# Runs refine the bare machine

A session does more than to execute cycles: it refreshes keys, calls back, keeps a snapshot, and
may be asked anything while a run is present. None of this shows in the machine. `Refines` spells
out what a run shares with the bare machine of its scenario, and `run_refines_machine` is the
theorem for every run of every session.
-/

namespace Chip8

namespace Session

/-- What a run that is started in `s`, followed by `during` and stopped in the end has in common
with the bare machine of the scenario. -/
structure Refines (s : Session) (w : Scenario) (during : List Operation) (lastByte : UInt8) :
    Prop where
  starts : s.start.result = .ok ()
  /-- Before the stop, the run has the machine, the calls and the results of the scenario. -/
  runs : ∃ run, (s.after (.start :: during)).mode = .active run ∧
    w.Course w.Held (iterations during) run (s.signals (.start :: during))
      (s.cycleResults (.start :: during))
  /-- The stop adds the cycle that was held and nothing else, and answers with what became of the
  run. -/
  stops : ∃ run,
    w.Course w.Completed (iterations during + 1) run
      (s.signals (.start :: during) ++ ((s.after (.start :: during)).stop lastByte).signals)
      (s.cycleResults (.start :: during) ++ (s.after (.start :: during)).attempt lastByte) ∧
    ((s.after (.start :: during)).stop lastByte).result =
      verdict run (s.after (.start :: during)).overruns ∧
    ((s.after (.start :: during)).stop lastByte).session.mode = modeAfter run
  /-- If the bare machine fails in cycle `c` and no callback crashes before that, the run ends
  there: with the same fault, after `c` completed cycles, and without any call after that. -/
  faults : ∀ {c : Nat} {fault : Fault}, (∀ k < c, w.Completes k) → w.result c = .error fault →
    (w.engine.hearAll (w.signals c ++ w.refreshSignals c)).isSome →
    (c < iterations during →
      (∃ e, (s.after (.start :: during)).mode = .active ⟨e, c, some (.fault fault)⟩) ∧
      s.signals (.start :: during) = w.signals c ++ w.refreshSignals c) ∧
    (c ≤ iterations during →
      ((s.after (.start :: during)).stop lastByte).result = .error (.execution fault) ∧
      s.signals (.start :: during) ++ ((s.after (.start :: during)).stop lastByte).signals =
        w.signals c ++ w.refreshSignals c)

/-- **A run refines the bare machine**: with the same keys and the same random bytes it leads to the
same machine, and the calls it makes are the ones that the scenario derives from that. -/
theorem run_refines_machine {program : Bytes} {options : Options} {history : List Operation}
    {engine : Engine} {size : Nat}
    (hmode : ((fresh program options).after history).mode = .available engine)
    (hload : (Machine.powerOn.machine.load program).result = .ok size)
    {during : List Operation} (hduring : ∀ operation ∈ during, operation.isStop = false)
    (lastByte : UInt8) :
    ((fresh program options).after history).Refines
      (((fresh program options).after history).scenario engine (during ++ [.stop lastByte]))
      during lastByte := by
  have hsound := (sound_fresh program options).after history
  have hprogram := ((fresh program options).after_frame history).1
  generalize (fresh program options).after history = s at hmode hsound hprogram ⊢
  have hl : (Machine.powerOn.machine.load s.program).result = .ok size := by
    rw [hprogram]
    exact hload
  obtain ⟨⟨run, hrun, hcourse⟩, -⟩ := follows_during hsound hmode hl hduring [.stop lastByte]
  obtain ⟨run', -, hcourse', hverdict, hafter⟩ := course_of_stop hsound hmode hl hduring lastByte []
  refine ⟨?_, ⟨run, hrun, hcourse⟩, ⟨run', hcourse', hverdict, hafter⟩, ?_⟩
  · rw [start_of_load hmode (hsound.of_available hmode) hl]
  · intro c fault hcompletes hfails hheard
    constructor
    · intro hc
      obtain ⟨hending, hcycles, hsignals⟩ := hcourse.of_fails hc hcompletes hfails hheard
      obtain ⟨e, cycles, ending⟩ := run
      subst hending hcycles
      exact ⟨⟨e, hrun⟩, hsignals⟩
    · intro hc
      obtain ⟨hending, -, hsignals⟩ :=
        hcourse'.of_fails (Nat.lt_succ_of_le hc) hcompletes hfails hheard
      refine ⟨?_, hsignals⟩
      rw [hverdict, verdict, hending]

/-- The screen is cleared in the first cycle, and there is no instruction for a second one. -/
theorem run_refines_machine_clearing :
    let s := (fresh [0x00, 0xE0] ⟨2, 1, Color.white⟩).after
      [.attach (.screen Callback.ignore), .keys (.press 5)]
    ∃ e, (s.after [.start, .iterate 0 [.release 5], .iterate 0 []]).mode =
      .active ⟨e, 1, some (.fault (.unknownInstruction 0 0x202))⟩ := by
  intro s
  have h := @run_refines_machine [0x00, 0xE0] ⟨2, 1, Color.white⟩
    [.attach (.screen Callback.ignore), .keys (.press 5)] _ 2 rfl rfl
    [.iterate 0 [.release 5], .iterate 0 []] (by decide) 0
  refine ((h.faults (c := 1) ?_ ?_ ?_).1 (by decide)).1
  · intro k hk
    refine Machine.result_of_no_fault ?_ _
    simp only [Scenario.ready, Scenario.machine, Machine.performAll_eq_advanceAll]
    revert k
    decide +kernel
  · refine Machine.result_of_fault ?_ _
    simp only [Scenario.ready, Scenario.machine, Machine.performAll_eq_advanceAll]
    decide +kernel
  -- the callback for screens ignores its calls, whichever they are
  · rw [Scenario.signals_succ, Scenario.refreshSignals, Scenario.refreshSignals,
      Scenario.outcomeSignals, Scenario.listener_of_no_callback rfl,
      Scenario.listener_of_no_callback rfl]
    cases Scenario.result _ 0 with
    | error fault => rfl
    | ok outcome =>
      obtain ⟨screenChanged, soundExpired⟩ := outcome
      cases screenChanged with
      | false => cases soundExpired with | _ => rfl
      | true => cases soundExpired with | _ => rfl

end Session

end Chip8
