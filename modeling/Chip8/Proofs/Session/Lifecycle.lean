import Mathlib.Data.List.Induction
import Chip8.Proofs.Session.Course

/-!
# The life cycle of a session

A session has its machine at hand, a run is present, or the machine is lost. `Lifecycle` is the law
of how starting, stopping and attaching answer in each of the three modes and lead from one to
another. A run is present just if a start succeeded that no stop came after (`Begins`), and the
machine is lost just if a stop found that a callback had crashed. What a stop answers depends on
what happened in the run (`Stops`). Callbacks may crash in any call; `lifecycle` says that the law
holds at the end of every history.
-/

namespace Chip8

namespace Session

/-! ## Which run is present -/

/-- The history ends with the start of a run by `e`, after `before`, and with what was done
`during` the run. -/
structure Begins (origin : Session) (history before during : List Operation) (e : Engine) :
    Prop where
  history_eq : history = before ++ .start :: during
  mode_eq : (origin.after before).mode = .available e
  loads : ∃ size, (Machine.powerOn.machine.load origin.program).result = .ok size
  no_stop : ∀ operation ∈ during, operation.isStop = false

theorem settle_mode_ne_active (s : Session) (run : Run) : s.settle.session.mode ≠ .active run := by
  intro h
  cases hm : s.mode with
  | active run' =>
    rw [(settle_of_active hm).1] at h
    simp only [modeAfter] at h
    split at h <;> cases h
  | available e | lost =>
    rw [settle_of_not_active (by rw [hm]; intro _ h; cases h)] at h
    simp only [answer, hm] at h
    cases h

/-- Nothing but a start brings a run about, and a stop leaves none. -/
theorem active_of_perform {s : Session} (hs : s.Sound) {operation : Operation} {run : Run}
    (h : (s.perform operation).session.mode = .active run) :
    operation.isStop = false ∧
      ((∃ run', s.mode = .active run') ∨
        operation = .start ∧ ∃ e size, s.mode = .available e ∧
          (Machine.powerOn.machine.load s.program).result = .ok size) := by
  cases operation with
  | keys move => cases move with | _ => exact ⟨rfl, .inl ⟨run, h⟩⟩
  | attach attachment =>
    change (s.attach attachment).mode = _ at h
    unfold attach at h
    split at h
    · cases h
    · exact ⟨rfl, .inl ⟨run, h⟩⟩
  | start =>
    change s.start.session.mode = _ at h
    refine ⟨rfl, ?_⟩
    rcases hs.start_cases with ⟨run', hm, -⟩ | ⟨hm, hstart⟩ | ⟨e, cause, -, -, hstart⟩ |
      ⟨e, size, hm, hl, -⟩
    · exact .inl ⟨run', hm⟩
    · rw [hstart] at h
      cases hm.symm.trans h
    · rw [hstart] at h
      cases h
    · exact .inr ⟨rfl, e, size, hm, hl⟩
  | iterate randomByte meanwhile =>
    refine ⟨rfl, .inl ?_⟩
    cases hr : s.isRunning with
    | true =>
      obtain ⟨e, cycles, hm⟩ := isRunning_eq_true_iff.1 hr
      exact ⟨_, hm⟩
    | false =>
      rw [perform_iterate_of_not_running hr, moveAll_eq] at h
      exact ⟨run, h⟩
  | countOverrun =>
    change (if s.isRunning then s.countOverrun else s).mode = _ at h
    refine ⟨rfl, .inl ⟨run, ?_⟩⟩
    split at h
    · exact h
    · exact h
  | stop randomByte => exact absurd h (settle_mode_ne_active _ run)

/-- **A run is present** just if a start succeeded that no stop came after. -/
theorem active_iff_begins {origin : Session} (ho : origin.Sound)
    (hm : ∀ run, origin.mode ≠ .active run) (history : List Operation) :
    (∃ run, (origin.after history).mode = .active run) ↔
      ∃ before during e, origin.Begins history before during e := by
  constructor
  · induction history using List.reverseRecOn with
    | nil => exact fun ⟨run, h⟩ => absurd h (hm run)
    | append_singleton earlier operation ih =>
      rintro ⟨run, h⟩
      rw [after_concat] at h
      obtain ⟨hstop, hactive | ⟨rfl, e, size, he, hl⟩⟩ := active_of_perform (ho.after earlier) h
      · obtain ⟨before, during, e, hb⟩ := ih hactive
        refine ⟨before, during ++ [operation], e, ?_, hb.mode_eq, hb.loads, ?_⟩
        · rw [hb.history_eq, List.append_assoc, List.cons_append]
        · intro operation' hmem
          rcases List.mem_append.1 hmem with hmem | hmem
          · exact hb.no_stop operation' hmem
          · rw [List.mem_singleton.1 hmem]
            exact hstop
      · rw [(origin.after_frame earlier).1] at hl
        exact ⟨earlier, [], e, rfl, he, ⟨size, hl⟩, fun _ h => absurd h List.not_mem_nil⟩
  · rintro ⟨before, during, e, hb⟩
    obtain ⟨size, hl⟩ := hb.loads
    rw [← (origin.after_frame before).1] at hl
    obtain ⟨⟨run, hrun, -⟩, -⟩ := follows_during (ho.after before) hb.mode_eq hl hb.no_stop []
    rw [hb.history_eq, after_append]
    exact ⟨run, hrun⟩

/-! ## When the machine is lost -/

theorem cycle_eq_lost_iff (s : Session) (randomByte : UInt8) :
    (s.cycle randomByte).session.mode = .lost ↔ s.mode = .lost := by
  unfold cycle
  split
  · rename_i hm
    rw [hm]
    simp only [reduceCtorEq]
  · rfl

theorem refresh_eq_lost_iff (s : Session) : s.refresh.session.mode = .lost ↔ s.mode = .lost := by
  unfold refresh
  split
  · rename_i hm
    rw [hm]
    split
    · simp only [reduceCtorEq]
    · simp only [answer, hm]
  · rfl

theorem settle_eq_lost_iff (s : Session) :
    s.settle.session.mode = .lost ↔ s.mode = .lost ∨ s.settle.result = .error .crashed := by
  unfold settle
  split
  · simp only [or_true]
  · rename_i hm
    simp only [hm, reduceCtorEq, Except.error.injEq, or_self]
  · rename_i hm
    simp only [hm, reduceCtorEq, or_self]
  · simp only [answer, Except.error.injEq, reduceCtorEq, or_false]

/-- Nothing but a stop loses the machine, and nothing brings it back. -/
theorem lost_of_perform_iff {s : Session} (hs : s.Sound) (operation : Operation) :
    (s.perform operation).session.mode = .lost ↔
      s.mode = .lost ∨ (s.perform operation).result = .stopped (.error .crashed) := by
  cases operation with
  | keys move => cases move with | _ => simp [perform, answer, move, press, release, releaseAll]
  | attach attachment =>
    simp only [perform, answer, reduceCtorEq, or_false]
    unfold attach
    split
    · rename_i hm
      simp only [hm, reduceCtorEq]
    · rfl
  | start =>
    simp only [perform, Reply.map, reduceCtorEq, or_false]
    rcases hs.start_cases with ⟨run, hm, h⟩ | ⟨hm, h⟩ | ⟨e, cause, hm, -, h⟩ | ⟨e, size, hm, -, h⟩
    · rw [h]
      rfl
    · rw [h]
      rfl
    · simp only [h, hm, reduceCtorEq]
    · simp only [h, hm, refresh_eq_lost_iff, begun, reduceCtorEq]
  | iterate randomByte meanwhile =>
    have hmoved : ((s.cycle randomByte).session.moveAll meanwhile).mode =
        (s.cycle randomByte).session.mode := by
      rw [moveAll_eq]
    simp only [perform, Reply.map, Reply.andThen, reduceCtorEq, or_false]
    rw [refresh_eq_lost_iff, hmoved, cycle_eq_lost_iff]
  | countOverrun =>
    simp only [perform, answer, reduceCtorEq, or_false]
    split <;> rfl
  | stop randomByte =>
    simp only [perform, Reply.map, stop, Reply.andThen, Answer.stopped.injEq]
    rw [settle_eq_lost_iff, cycle_eq_lost_iff]

/-- **The machine is lost** just if a stop found that a callback had crashed. -/
theorem lost_iff_crashed {s : Session} (hs : s.Sound) (history : List Operation) :
    (s.after history).mode = .lost ↔
      s.mode = .lost ∨
        ∃ seen ∈ s.observations history, seen.answer = .stopped (.error .crashed) := by
  induction history generalizing s with
  | nil => simp only [after, observations, List.not_mem_nil, false_and, exists_false, or_false]
  | cons operation rest ih =>
    rw [after, ih (hs.perform operation), lost_of_perform_iff hs, observations, or_assoc]
    simp only [List.mem_cons, exists_eq_or_imp, observe]

/-! ## What a stop answers -/

/-- What it comes to if a run is stopped that was started by `e`, provided that the callbacks got
these calls and the cycles came to these results over the whole run. -/
structure Stops (s : Session) (lastByte : UInt8) (e : Engine) (calls : List Signal)
    (results : List (Except Fault Outcome)) : Prop where
  /-- A crash is reported just if a callback crashed in the run. -/
  crashed_iff : (s.stop lastByte).result = .error .crashed ↔ e.hearAll calls = none
  /-- A fault is reported just if a cycle of the run failed with it. -/
  fault_iff : ∀ fault, (s.stop lastByte).result = .error (.execution fault) ↔ .error fault ∈ results
  /-- All other runs are reported with the number of their cycles. -/
  report_iff : ∀ report, (s.stop lastByte).result = .ok report ↔
    e.hearAll calls ≠ none ∧ (∀ fault, .error fault ∉ results) ∧
      report = ⟨results.length, s.overruns⟩
  /-- A crash costs the machine. -/
  lost : e.hearAll calls = none → (s.stop lastByte).session.mode = .lost
  /-- Else the machine is at hand as the run left it, with all callbacks in the state that their
  calls brought them to. -/
  available : ∀ e', e.hearAll calls = some e' → e'.kinds = e.kinds ∧
    ∃ run, (s.cycle lastByte).session.mode = .active run ∧
      (s.stop lastByte).session.mode = .available (e'.withMachine run.engine.machine)

theorem stops_of_course {s : Session} {lastByte : UInt8} {w : Scenario} {n : Nat} {run : Run}
    {calls : List Signal} {results : List (Except Fault Outcome)}
    (hcourse : w.Course w.Completed n run calls results)
    (hrun : (s.cycle lastByte).session.mode = .active run)
    (hresult : (s.stop lastByte).result = verdict run s.overruns)
    (hmode : (s.stop lastByte).session.mode = modeAfter run) :
    s.Stops lastByte w.engine calls results where
  crashed_iff := by
    rw [hresult, verdict_eq_crashed_iff, hcourse.hearAll_eq_none_iff]
  fault_iff fault := by
    rw [hresult, verdict_eq_execution_iff, hcourse.error_mem_iff]
  report_iff report := by
    rw [hresult, verdict_eq_ok_iff]
    constructor
    · rintro ⟨hending, hreport⟩
      refine ⟨fun hnone => ?_, fun fault hmem => ?_, ?_⟩
      · cases hending.symm.trans (hcourse.hearAll_eq_none_iff.1 hnone)
      · cases hending.symm.trans (hcourse.error_mem_iff.1 hmem)
      · rw [hreport, hcourse.length_eq hending]
    · rintro ⟨hheard, hok, hreport⟩
      have hending : run.ending = none := by
        cases h : run.ending with
        | none => rfl
        | some ending =>
          cases ending with
          | fault fault => exact absurd (hcourse.error_mem_iff.2 h) (hok fault)
          | crash => exact absurd (hcourse.hearAll_eq_none_iff.2 h) hheard
      exact ⟨hending, by rw [hreport, hcourse.length_eq hending]⟩
  lost hnone := by
    rw [hmode, modeAfter_of_crash (hcourse.hearAll_eq_none_iff.1 hnone)]
  available e' he' := by
    have hending : run.ending ≠ some .crash := by
      intro h
      cases he'.symm.trans (hcourse.hearAll_eq_none_iff.2 h)
    obtain rfl := Option.some.inj (he'.symm.trans (hcourse.heard hending))
    exact ⟨Engine.kinds_hearAll he', run, hrun, hmode.trans (modeAfter_of_no_crash hending)⟩

/-- **A stop** answers with what happened in the run that is present. -/
theorem Begins.stops {origin : Session} {history before during : List Operation} {e : Engine}
    (hb : origin.Begins history before during e) (ho : origin.Sound) (lastByte : UInt8) :
    (origin.after history).Stops lastByte e
      ((origin.after before).signals (.start :: during) ++
        ((origin.after history).stop lastByte).signals)
      ((origin.after before).cycleResults (.start :: during) ++
        (origin.after history).attempt lastByte) := by
  obtain ⟨size, hl⟩ := hb.loads
  rw [← (origin.after_frame before).1] at hl
  rw [hb.history_eq, after_append]
  obtain ⟨run, hrun, hcourse, hresult, hmode⟩ :=
    course_of_stop (ho.after before) hb.mode_eq hl hb.no_stop lastByte []
  exact stops_of_course hcourse hrun hresult hmode

/-! ## What a start answers -/

/-- What a start comes to. -/
structure Starts (s : Session) : Prop where
  alreadyRunning_iff : s.start.result = .error .alreadyRunning ↔ ∃ run, s.mode = .active run
  machineLost_iff : s.start.result = .error .machineLost ↔ s.mode = .lost
  load_iff : ∀ cause, s.start.result = .error (.load cause) ↔
    (∃ e, s.mode = .available e) ∧
      (Machine.powerOn.machine.load s.program).result = .error cause
  ok_iff : s.start.result = .ok () ↔
    (∃ e, s.mode = .available e) ∧
      ∃ size, (Machine.powerOn.machine.load s.program).result = .ok size
  /-- A start that succeeds leads to a run without any cycle. -/
  active_of_ok : s.start.result = .ok () →
    ∃ e ending, s.start.session.mode = .active ⟨e, 0, ending⟩
  /-- If the program cannot be loaded, the machine is at hand all the same. It is reset, and the
  callbacks are kept. -/
  available_of_load : ∀ e cause, s.mode = .available e → s.start.result = .error (.load cause) →
    s.start.session = { s with mode := .available (e.withMachine Machine.powerOn.machine) } ∧
      s.start.signals = []
  /-- Any other refusal changes nothing at all. -/
  refused : s.start.result = .error .alreadyRunning ∨ s.start.result = .error .machineLost →
    s.start = s.answer s.start.result

theorem Sound.starts {s : Session} (hs : s.Sound) : s.Starts := by
  rcases hs.start_cases with ⟨run, hm, h⟩ | ⟨hm, h⟩ | ⟨e, cause, hm, hl, h⟩ | ⟨e, size, hm, hl, h⟩
  · constructor <;> simp [h, hm, answer]
  · constructor <;> simp [h, hm, answer]
  · constructor <;> simp [h, hm, hl]
  · obtain ⟨e', ending, hactive⟩ := refresh_of_active (s := s.begun e) rfl
    constructor <;> simp [h, hm, hl, hactive]

/-! ## The law -/

/-- The law of the life cycle, at the end of a history that led from `origin` to `s`. -/
structure Lifecycle (origin : Session) (history : List Operation) (s : Session) : Prop where
  /-- The session shows in which of the three modes it is. -/
  looks :
    match s.mode with
    | .available e => s.machine? = some e.machine ∧ s.isRunning = false
    | .active run => s.machine? = none ∧ s.isRunning = run.ending.isNone
    | .lost => s.machine? = none ∧ s.isRunning = false
  /-- A run is present, even if it has ended, just if a start succeeded and no stop came since. -/
  active_iff : (∃ run, s.mode = .active run) ↔
    ∃ before during e, origin.Begins history before during e
  /-- The machine is lost just if a stop reported a crash. -/
  lost_iff : s.mode = .lost ↔
    ∃ seen ∈ origin.observations history, seen.answer = .stopped (.error .crashed)
  starts : s.Starts
  notRunning_iff : ∀ lastByte,
    (s.stop lastByte).result = .error .notRunning ↔ ∀ run, s.mode ≠ .active run
  /-- Without a run, a stop changes nothing at all. -/
  stop_refused : ∀ lastByte, (s.stop lastByte).result = .error .notRunning →
    s.stop lastByte = s.answer (.error .notRunning)
  /-- Any other stop answers with what happened in the run. -/
  stops : ∀ {before during e}, origin.Begins history before during e → ∀ lastByte,
    s.Stops lastByte e
      ((origin.after before).signals (.start :: during) ++ (s.stop lastByte).signals)
      ((origin.after before).cycleResults (.start :: during) ++ s.attempt lastByte)
  /-- A callback can be attached while the machine is at hand, and only then. -/
  attaches : ∀ attachment,
    (∀ e, s.mode = .available e →
      s.attach attachment = { s with mode := .available (e.attach attachment) }) ∧
    ((∀ e, s.mode ≠ .available e) → s.attach attachment = s)
  /-- Giving the session up stops the run that is present. -/
  closes : ∀ lastByte, (s.close lastByte).session = (s.stop lastByte).session ∧
    (s.close lastByte).signals = (s.stop lastByte).signals

/-- **The life cycle of a session** keeps to its law in every history. -/
theorem lifecycle (program : Bytes) (options : Options) (history : List Operation) :
    (fresh program options).Lifecycle history ((fresh program options).after history) := by
  have ho := sound_fresh program options
  have hs := ho.after history
  exact {
    looks := by
      unfold machine? isRunning
      cases ((fresh program options).after history).mode with
      | _ => exact ⟨rfl, rfl⟩
    active_iff := active_iff_begins ho (fun _ => Mode.noConfusion) history
    lost_iff := (lost_iff_crashed ho history).trans (or_iff_right Mode.noConfusion)
    starts := hs.starts
    notRunning_iff := fun _ => stop_eq_notRunning_iff
    stop_refused := fun lastByte h => stop_of_not_active (stop_eq_notRunning_iff.1 h) lastByte
    stops := fun hb lastByte => hb.stops ho lastByte
    attaches := fun attachment =>
      ⟨fun _ hm => attach_of_available hm attachment,
        fun hm => attach_of_not_available hm attachment⟩
    closes := close_eq_stop _ }

end Session

end Chip8
