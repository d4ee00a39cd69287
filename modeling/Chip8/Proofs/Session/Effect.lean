import Chip8.Proofs.Faults
import Chip8.Proofs.Session.Callbacks
import Chip8.Proofs.Session.Operation

/-!
# What the operations of a session come to

A session holds a cycle while a run is present that has not ended (`Holds`). There a cycle is a turn
of the engine and a refresh brings new keys; everywhere else they do nothing. A turn either faults
and leaves the engine alone (`turn_of_fault`) or completes the machine's cycle and announces its
outcome (`turn_of_outcome`). A reset leads back to the new machine (`Machine.Sound.reset_eq`), so
that starting a session comes to the same whatever its machine went through before.
-/

namespace Chip8

theorem Bitmap.clear_eq_blank (b : Bitmap) : b.clear = blank b.width b.height := by
  obtain ⟨width, height, pixels, size_pixels⟩ := b
  simp only [clear, blank, size_pixels]

/-- **A reset leads back to the new machine.** -/
theorem Machine.Sound.reset_eq {m : Machine} (hs : m.Sound) : m.reset = powerOn.machine := by
  have hscreen : m.screen.clear = Bitmap.blank screenWidth screenHeight := by
    rw [Bitmap.clear_eq_blank, hs.screen.width_eq, hs.screen.height_eq]
    rfl
  unfold Machine.reset
  rw [hscreen]
  rfl

namespace Engine

/-! ## Turns -/

theorem turn_of_fault {e : Engine} {randomByte : UInt8} {fault : Fault}
    (h : (e.machine.cycle randomByte).result = .error fault) (color : Color)
    (snapshot : Snapshot) :
    e.turn randomByte color snapshot =
      { engine := e
        snapshot := snapshot
        completed := false
        ending := some (.fault fault)
        signals := []
        log := (e.machine.cycle randomByte).log ++ [.faulted fault] } := by
  have hm : (e.machine.cycle randomByte).machine = e.machine :=
    Machine.machine_of_fault (Machine.result_eq_error_iff.1 h) randomByte
  simp only [turn, h, hm]

/-- The snapshot after a cycle: the screen as it is then if the cycle touched it. -/
def snapshotAfter (snapshot : Snapshot) (color : Color) (outcome : Outcome) (m : Machine) :
    Snapshot :=
  if outcome.screenChanged then ⟨m.screen.packed color⟩ else snapshot

theorem turn_of_outcome {e : Engine} {randomByte : UInt8} {outcome : Outcome}
    (h : (e.machine.cycle randomByte).result = .ok outcome) (color : Color)
    (snapshot : Snapshot) :
    e.turn randomByte color snapshot =
      let m := (e.machine.cycle randomByte).machine
      let called := (e.withMachine m).announce outcome
      { engine := called.engine
        snapshot := snapshotAfter snapshot color outcome m
        completed := true
        ending := if called.crashed then some .crash else none
        signals := called.signals
        log := (e.machine.cycle randomByte).log } := by
  simp only [turn, h, Snapshot.bytes_update, snapshotAfter, withMachine]
  cases outcome.screenChanged with
  | true =>
    simp only [if_true, List.append_nil]
    rfl
  | false =>
    simp only [Bool.false_eq_true, if_false, List.append_nil]
    rfl

/-- The machine after a turn is the one after its cycle. -/
theorem machine_turn (randomByte : UInt8) (color : Color) (snapshot : Snapshot) (e : Engine) :
    (e.turn randomByte color snapshot).engine.machine = (e.machine.cycle randomByte).machine := by
  cases h : (e.machine.cycle randomByte).result with
  | error fault =>
    rw [turn_of_fault h, Machine.machine_of_fault (Machine.result_eq_error_iff.1 h)]
  | ok outcome =>
    rw [turn_of_outcome h]
    exact machine_announce outcome _

/-- A refresh sets the keys of the machine, or leaves it alone because the callback crashes. -/
theorem machine_refresh (handle : Keypad) (e : Engine) :
    ∃ keys, (e.refresh handle).engine.machine = e.machine.setKeys keys := by
  cases hc : e.onKeypad with
  | none => exact ⟨handle, by rw [refresh_of_no_callback hc]; rfl⟩
  | some callback =>
    cases ha : callback.call e.machine.keys with
    | none => exact ⟨e.machine.keys, by rw [refresh_of_crash hc ha]; rfl⟩
    | some answer => exact ⟨answer.1, by rw [refresh_of_answer hc ha]⟩

end Engine

namespace Session

/-! ## Cycles and refreshes -/

/-- The session is held right before cycle number `cycles` of a run. -/
def Holds (s : Session) (e : Engine) (cycles : Nat) : Prop :=
  s.mode = .active ⟨e, cycles, none⟩

theorem isRunning_eq_true_iff {s : Session} :
    s.isRunning = true ↔ ∃ e cycles, s.Holds e cycles := by
  unfold isRunning Holds
  cases s.mode with
  | available e => simp
  | lost => simp
  | active run =>
    obtain ⟨e, cycles, ending⟩ := run
    cases ending with
    | none => simp
    | some ending => simp

theorem isRunning_of_ending {s : Session} {e : Engine} {cycles : Nat} {ending : Engine.Ending}
    (h : s.mode = .active ⟨e, cycles, some ending⟩) : s.isRunning = false := by
  unfold isRunning
  rw [h]
  rfl

theorem cycle_of_not_running {s : Session} (h : s.isRunning = false) (randomByte : UInt8) :
    s.cycle randomByte = s.answer () := by
  unfold cycle
  split
  · rename_i e cycles hm
    rw [isRunning_eq_true_iff.2 ⟨e, cycles, hm⟩] at h
    cases h
  · rfl

theorem cycle_of_holds {s : Session} {e : Engine} {cycles : Nat} (h : s.Holds e cycles)
    (randomByte : UInt8) :
    s.cycle randomByte =
      let turn := e.turn randomByte s.options.color s.snapshot
      ⟨{ s with
          mode := .active
            ⟨turn.engine, if turn.completed then cycles + 1 else cycles, turn.ending⟩
          snapshot := turn.snapshot }, (), turn.signals, turn.log⟩ := by
  unfold Holds at h
  simp only [cycle, h]

theorem refresh_of_not_running {s : Session} (h : s.isRunning = false) :
    s.refresh = s.answer () := by
  unfold refresh
  split
  · rename_i e cycles hm
    rw [isRunning_eq_true_iff.2 ⟨e, cycles, hm⟩] at h
    cases h
  · rfl

theorem refresh_of_due {s : Session} {e : Engine} {cycles : Nat} (h : s.Holds e cycles)
    (hd : s.options.refreshDue cycles = true) :
    s.refresh =
      let called := e.refresh s.keypad
      ⟨{ s with
          mode := .active ⟨called.engine, cycles, if called.crashed then some .crash else none⟩ },
        (), called.signals, []⟩ := by
  unfold Holds at h
  simp only [refresh, h, hd, if_true]

theorem refresh_of_not_due {s : Session} {e : Engine} {cycles : Nat} (h : s.Holds e cycles)
    (hd : s.options.refreshDue cycles = false) : s.refresh = s.answer () := by
  unfold Holds at h
  simp only [refresh, h, hd, Bool.false_eq_true, if_false]

/-- A refresh keeps the run, whatever it does to it, and its count of cycles. -/
theorem refresh_of_active {s : Session} {run : Run} (h : s.mode = .active run) :
    ∃ e ending, s.refresh.session.mode = .active ⟨e, run.cycles, ending⟩ := by
  unfold refresh
  split
  · rename_i e cycles hm
    obtain rfl := Mode.active.inj (hm.symm.trans h)
    split
    · exact ⟨_, _, rfl⟩
    · exact ⟨e, none, hm⟩
  · exact ⟨run.engine, run.ending, h⟩

/-- Without a run in progress, an iteration is nothing but the moves of keys in it. -/
theorem perform_iterate_of_not_running {s : Session} (h : s.isRunning = false)
    (randomByte : UInt8) (meanwhile : List KeyMove) :
    s.perform (.iterate randomByte meanwhile) = (s.moveAll meanwhile).answer .done := by
  have hmoved : (s.moveAll meanwhile).isRunning = false := by
    rw [moveAll_eq]
    exact h
  simp only [perform, cycle_of_not_running h, Reply.andThen, answer, refresh_of_not_running hmoved]
  rfl

/-- The history of `n` iterations without moves of keys, counted from `k` on. -/
def iterationsFrom (randomBytes : Nat → UInt8) (k n : Nat) : List Operation :=
  (List.range' k n).map fun i => .iterate (randomBytes i) []

/-- Without a run in progress, iterations do nothing at all. -/
theorem iterationsFrom_of_not_running {s : Session} (h : s.isRunning = false)
    (randomBytes : Nat → UInt8) (k n : Nat) :
    s.after (iterationsFrom randomBytes k n) = s ∧
      s.signals (iterationsFrom randomBytes k n) = [] := by
  induction n generalizing k with
  | zero => exact ⟨rfl, rfl⟩
  | succ n ih =>
    have hfirst : s.perform (.iterate (randomBytes k) []) = s.answer .done :=
      perform_iterate_of_not_running h (randomBytes k) []
    obtain ⟨hafter, hsignals⟩ := ih (k + 1)
    constructor
    · change (s.perform _).session.after (iterationsFrom randomBytes (k + 1) n) = s
      rw [hfirst]
      exact hafter
    · change (s.perform _).signals ++ (s.perform _).session.signals _ = []
      rw [hfirst]
      exact hsignals

/-- **Iterating until the run ends** comes to the history of all those iterations. -/
theorem iterateFrom_eq (s : Session) (randomBytes : Nat → UInt8) (k n : Nat) :
    (s.iterateFrom randomBytes k n).session = s.after (iterationsFrom randomBytes k n) ∧
      (s.iterateFrom randomBytes k n).signals = s.signals (iterationsFrom randomBytes k n) := by
  induction n generalizing s k with
  | zero => exact ⟨rfl, rfl⟩
  | succ n ih =>
    have hfirst : s.perform (.iterate (randomBytes k) []) =
        (s.iterate (randomBytes k)).map fun _ => .done := rfl
    have hrest : (s.iterateFrom randomBytes k (n + 1)) = (s.iterate (randomBytes k)).andThen
        fun _ s => if s.isRunning then s.iterateFrom randomBytes (k + 1) n else s.answer () := rfl
    change _ = (s.perform _).session.after (iterationsFrom randomBytes (k + 1) n) ∧
      _ = (s.perform _).signals ++
        (s.perform _).session.signals (iterationsFrom randomBytes (k + 1) n)
    rw [hfirst, hrest]
    simp only [Reply.andThen, Reply.map]
    cases hr : (s.iterate (randomBytes k)).session.isRunning with
    | true =>
      obtain ⟨hafter, hsignals⟩ := ih (s.iterate (randomBytes k)).session (k + 1)
      simp only [if_true, hafter, hsignals, and_self]
    | false =>
      obtain ⟨hafter, hsignals⟩ := iterationsFrom_of_not_running hr randomBytes (k + 1) n
      simp only [Bool.false_eq_true, if_false, hafter, hsignals, answer, and_self]

/-- A cycle keeps the run, whatever it does to it. -/
theorem cycle_of_active {s : Session} {run : Run} (h : s.mode = .active run) (randomByte : UInt8) :
    ∃ run', (s.cycle randomByte).session.mode = .active run' := by
  unfold cycle
  split
  · exact ⟨_, rfl⟩
  · exact ⟨run, h⟩

/-! ## Attaching -/

theorem attach_of_available {s : Session} {e : Engine} (h : s.mode = .available e)
    (attachment : Attachment) :
    s.attach attachment = { s with mode := .available (e.attach attachment) } := by
  unfold attach
  rw [h]

theorem attach_of_not_available {s : Session} (h : ∀ e, s.mode ≠ .available e)
    (attachment : Attachment) : s.attach attachment = s := by
  unfold attach
  split
  · exact absurd ‹_› (h _)
  · rfl

/-! ## Starting -/

/-- The machine right after a program was loaded into the new machine. -/
def loadedMachine (program : Bytes) : Machine :=
  (Machine.powerOn.machine.load program).machine

/-- The session that has just begun a run, before the keys are refreshed. -/
def begun (s : Session) (e : Engine) : Session :=
  { s with
    mode := .active ⟨e.withMachine (loadedMachine s.program), 0, none⟩
    snapshot := ⟨(loadedMachine s.program).screen.packed s.options.color⟩
    overruns := 0 }

theorem start_of_active {s : Session} {run : Run} (h : s.mode = .active run) :
    s.start = s.answer (.error .alreadyRunning) := by
  unfold start
  rw [h]

theorem start_of_lost {s : Session} (h : s.mode = .lost) :
    s.start = s.answer (.error .machineLost) := by
  unfold start
  rw [h]

theorem start_of_load_error {s : Session} {e : Engine} {cause : LoadError}
    (hm : s.mode = .available e) (hs : e.machine.Sound)
    (hl : (Machine.powerOn.machine.load s.program).result = .error cause) :
    s.start =
      ⟨{ s with mode := .available (e.withMachine Machine.powerOn.machine) },
        .error (.load cause), [], [.reset]⟩ := by
  have hload : Machine.powerOn.machine.load s.program =
      ⟨Machine.powerOn.machine, .error cause, []⟩ := by
    unfold Machine.load at hl ⊢
    split at hl
    · rw [if_pos ‹_›, ← hl]
    · split at hl
      · rw [if_neg ‹_›, if_pos ‹_›, ← hl]
      · cases hl
  simp only [start, hm, Machine.restart, hs.reset_eq, hload]
  rfl

theorem start_of_load {s : Session} {e : Engine} {size : Nat}
    (hm : s.mode = .available e) (hs : e.machine.Sound)
    (hl : (Machine.powerOn.machine.load s.program).result = .ok size) :
    s.start =
      ⟨(s.begun e).refresh.session, .ok (), (s.begun e).refresh.signals,
        [.reset] ++ (Machine.powerOn.machine.load s.program).log ++ [.started s.options.rate] ++
          (s.begun e).refresh.log⟩ := by
  simp only [start, hm, Machine.restart, hs.reset_eq, hl, Snapshot.bytes_update, List.append_nil]
  rfl

/-! ## Stopping -/

/-- What stopping a run is answered with. -/
def verdict (run : Run) (overruns : Nat) : Except SessionError Report :=
  match run.ending with
  | none => .ok ⟨run.cycles, overruns⟩
  | some (.fault fault) => .error (.execution fault)
  | some .crash => .error .crashed

/-- What becomes of the machine when a run is stopped: it is at hand again, unless the run
crashed. -/
def modeAfter (run : Run) : Mode :=
  match run.ending with
  | some .crash => .lost
  | _ => .available run.engine

theorem verdict_eq_crashed_iff {run : Run} {overruns : Nat} :
    verdict run overruns = .error .crashed ↔ run.ending = some .crash := by
  unfold verdict
  split <;> simp_all

theorem verdict_eq_execution_iff {run : Run} {overruns : Nat} {fault : Fault} :
    verdict run overruns = .error (.execution fault) ↔ run.ending = some (.fault fault) := by
  unfold verdict
  split <;> simp_all

theorem verdict_eq_ok_iff {run : Run} {overruns : Nat} {report : Report} :
    verdict run overruns = .ok report ↔ run.ending = none ∧ report = ⟨run.cycles, overruns⟩ := by
  unfold verdict
  split <;> simp_all [eq_comm]

theorem verdict_ne_notRunning (run : Run) (overruns : Nat) :
    verdict run overruns ≠ .error .notRunning := by
  unfold verdict
  split <;> simp

theorem modeAfter_of_crash {run : Run} (h : run.ending = some .crash) : modeAfter run = .lost := by
  unfold modeAfter
  rw [h]

theorem modeAfter_of_no_crash {run : Run} (h : run.ending ≠ some .crash) :
    modeAfter run = .available run.engine := by
  unfold modeAfter
  split
  · exact absurd ‹_› h
  · rfl

theorem settle_of_active {s : Session} {run : Run} (h : s.mode = .active run) :
    s.settle.session = { s with mode := modeAfter run } ∧
      s.settle.result = verdict run s.overruns ∧ s.settle.signals = [] := by
  obtain ⟨e, cycles, ending⟩ := run
  unfold settle verdict modeAfter
  rw [h]
  cases ending with
  | none => exact ⟨rfl, rfl, rfl⟩
  | some ending =>
    cases ending with
    | fault fault => exact ⟨rfl, rfl, rfl⟩
    | crash => exact ⟨rfl, rfl, rfl⟩

theorem settle_of_not_active {s : Session} (h : ∀ run, s.mode ≠ .active run) :
    s.settle = s.answer (.error .notRunning) := by
  unfold settle
  split
  · exact absurd ‹_› (h _)
  · exact absurd ‹_› (h _)
  · exact absurd ‹_› (h _)
  · rfl

theorem stop_of_not_active {s : Session} (h : ∀ run, s.mode ≠ .active run) (randomByte : UInt8) :
    s.stop randomByte = s.answer (.error .notRunning) := by
  have hrunning : s.isRunning = false := by
    rw [Bool.eq_false_iff]
    intro hr
    obtain ⟨e, cycles, hm⟩ := isRunning_eq_true_iff.1 hr
    exact h _ hm
  rw [stop, cycle_of_not_running hrunning, ← settle_of_not_active h]
  rfl

/-- **A stop is refused** just if there is no run. -/
theorem stop_eq_notRunning_iff {s : Session} {randomByte : UInt8} :
    (s.stop randomByte).result = .error .notRunning ↔ ∀ run, s.mode ≠ .active run := by
  constructor
  · intro h run hm
    obtain ⟨run', hm'⟩ := cycle_of_active hm randomByte
    exact verdict_ne_notRunning _ _ ((settle_of_active hm').2.1.symm.trans h)
  · intro h
    rw [stop_of_not_active h]
    rfl

/-- A stop that reports a crash has found a run that crashed, if only in its last cycle. -/
theorem active_of_stop_crashed {s : Session} {randomByte : UInt8}
    (h : (s.stop randomByte).result = .error .crashed) :
    (∃ run, s.mode = .active run) ∧
      ∃ e cycles, (s.cycle randomByte).session.mode = .active ⟨e, cycles, some .crash⟩ := by
  cases hm : s.mode with
  | available e | lost =>
    rw [stop_of_not_active (by rw [hm]; exact fun _ => Mode.noConfusion)] at h
    cases h
  | active run =>
    obtain ⟨run', hm'⟩ := cycle_of_active hm randomByte
    have hverdict : verdict run' _ = .error .crashed := (settle_of_active hm').2.1.symm.trans h
    obtain ⟨e, cycles, ending⟩ := run'
    obtain rfl : ending = some .crash := verdict_eq_crashed_iff.1 hverdict
    exact ⟨⟨run, rfl⟩, e, cycles, hm'⟩

/-- Giving a session up stops the run that is present, if there is one. -/
theorem close_eq_stop (s : Session) (randomByte : UInt8) :
    (s.close randomByte).session = (s.stop randomByte).session ∧
      (s.close randomByte).signals = (s.stop randomByte).signals := by
  unfold close
  split
  · exact ⟨rfl, rfl⟩
  · rename_i hm
    rw [stop_of_not_active hm]
    exact ⟨rfl, rfl⟩

/-! ## What the operations leave alone -/

theorem cycle_frame (s : Session) (randomByte : UInt8) :
    ∃ mode snapshot,
      (s.cycle randomByte).session = { s with mode := mode, snapshot := snapshot } := by
  unfold cycle
  split
  · exact ⟨_, _, rfl⟩
  · exact ⟨_, _, rfl⟩

theorem refresh_frame (s : Session) : ∃ mode, s.refresh.session = { s with mode := mode } := by
  unfold refresh
  split
  · split
    · exact ⟨_, rfl⟩
    · exact ⟨_, rfl⟩
  · exact ⟨_, rfl⟩

theorem settle_frame (s : Session) : ∃ mode, s.settle.session = { s with mode := mode } := by
  unfold settle
  split
  · exact ⟨_, rfl⟩
  · exact ⟨_, rfl⟩
  · exact ⟨_, rfl⟩
  · exact ⟨_, rfl⟩

theorem stop_frame (s : Session) (randomByte : UInt8) :
    ∃ mode snapshot,
      (s.stop randomByte).session = { s with mode := mode, snapshot := snapshot } := by
  obtain ⟨mode, snapshot, hcycle⟩ := s.cycle_frame randomByte
  obtain ⟨mode', hsettle⟩ := (s.cycle randomByte).session.settle_frame
  refine ⟨mode', snapshot, hsettle.trans ?_⟩
  rw [hcycle]

theorem attach_frame (s : Session) (attachment : Attachment) :
    ∃ mode, s.attach attachment = { s with mode := mode } := by
  unfold attach
  split
  · exact ⟨_, rfl⟩
  · exact ⟨_, rfl⟩

theorem start_frame (s : Session) :
    ∃ mode snapshot overruns, s.start.session =
      { s with mode := mode, snapshot := snapshot, overruns := overruns } := by
  unfold start
  split
  · exact ⟨_, _, _, rfl⟩
  · exact ⟨_, _, _, rfl⟩
  · dsimp only
    split
    · exact ⟨_, _, _, rfl⟩
    · obtain ⟨mode, h⟩ := refresh_frame _
      exact ⟨_, _, _, h⟩

/-- The user's keypad takes the moves that the operation stands for; the program and the options stay
as they are. -/
theorem perform_eq (s : Session) (operation : Operation) :
    ∃ mode snapshot overruns, (s.perform operation).session =
      { s with
        mode := mode
        snapshot := snapshot
        keypad := s.keypad.moveAll operation.moves
        overruns := overruns } := by
  cases operation with
  | keys move => cases move with | _ => exact ⟨_, _, _, rfl⟩
  | attach attachment =>
    obtain ⟨mode, h⟩ := s.attach_frame attachment
    exact ⟨_, _, _, h⟩
  | start =>
    obtain ⟨mode, snapshot, overruns, h⟩ := s.start_frame
    exact ⟨_, _, _, h⟩
  | iterate randomByte meanwhile =>
    obtain ⟨mode, snapshot, hc⟩ := s.cycle_frame randomByte
    obtain ⟨mode', hr⟩ := ((s.cycle randomByte).session.moveAll meanwhile).refresh_frame
    rw [moveAll_eq, hc] at hr
    refine ⟨mode', snapshot, s.overruns, Eq.trans ?_ hr⟩
    change ((s.cycle randomByte).session.moveAll meanwhile).refresh.session = _
    rw [moveAll_eq, hc]
  | countOverrun =>
    change ∃ mode snapshot overruns, (if s.isRunning then s.countOverrun else s) = _
    split
    · exact ⟨_, _, _, rfl⟩
    · exact ⟨_, _, _, rfl⟩
  | stop randomByte =>
    obtain ⟨mode, snapshot, h⟩ := s.stop_frame randomByte
    exact ⟨_, _, _, h⟩

/-- No operation changes the program or the options. -/
theorem perform_frame (s : Session) (operation : Operation) :
    (s.perform operation).session.program = s.program ∧
      (s.perform operation).session.options = s.options := by
  obtain ⟨mode, snapshot, overruns, h⟩ := s.perform_eq operation
  rw [h]
  exact ⟨rfl, rfl⟩

theorem keypad_perform (s : Session) (operation : Operation) :
    (s.perform operation).session.keypad = s.keypad.moveAll operation.moves := by
  obtain ⟨mode, snapshot, overruns, h⟩ := s.perform_eq operation
  rw [h]

theorem after_frame (s : Session) (history : List Operation) :
    (s.after history).program = s.program ∧ (s.after history).options = s.options := by
  induction history generalizing s with
  | nil => exact ⟨rfl, rfl⟩
  | cons operation rest ih =>
    obtain ⟨hp, ho⟩ := s.perform_frame operation
    obtain ⟨hp', ho'⟩ := ih (s.perform operation).session
    exact ⟨hp'.trans hp, ho'.trans ho⟩

end Session

end Chip8
