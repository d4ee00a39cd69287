import Chip8.Proofs.Session.Effect

/-!
# What histories keep to

Whatever is done to a session, its machine is one that requests lead to from a new machine
(`Sound`). As long as no start succeeds, the session stays as good as new but for its machine, its
callbacks and its keypad (`Unstarted`). Both are shown operation by operation and then for whole
histories.
-/

namespace Chip8

namespace Session

/-- The engine of a session, whether it is at hand or part of a run. -/
def engine? (s : Session) : Option Engine :=
  match s.mode with
  | .available e => some e
  | .active run => some run.engine
  | .lost => none

/-- The machine of a session, if there is one, is reachable. -/
def Sound (s : Session) : Prop :=
  ∀ e, s.engine? = some e → e.machine.Reachable

/-- The keys and callbacks of the session may have been touched, and so may its machine, but
nothing was ever started. -/
structure Unstarted (s : Session) : Prop where
  snapshot_eq : s.snapshot = Snapshot.empty
  overruns_eq : s.overruns = 0
  available : ∃ e, s.mode = .available e

section Operations

variable {s : Session}

/-! ## Reachable machines -/

theorem engine?_of_available {e : Engine} (h : s.mode = .available e) : s.engine? = some e := by
  unfold engine?
  rw [h]

theorem engine?_of_active {run : Run} (h : s.mode = .active run) :
    s.engine? = some run.engine := by
  unfold engine?
  rw [h]

theorem Sound.of_available (hs : s.Sound) {e : Engine} (hm : s.mode = .available e) :
    e.machine.Sound :=
  (hs e (engine?_of_available hm)).sound

/-- If the second session has a machine, it is that of the first one. -/
def KeepsMachine (s s' : Session) : Prop :=
  ∀ e', s'.engine? = some e' → ∃ e, s.engine? = some e ∧ e'.machine = e.machine

theorem keepsMachine_of_mode {s' : Session} (hm : s'.mode = s.mode) : s.KeepsMachine s' := by
  have he : s'.engine? = s.engine? := by
    unfold engine?
    rw [hm]
  exact fun e' h => ⟨e', he ▸ h, rfl⟩

theorem keepsMachine_attach (s : Session) (attachment : Attachment) :
    s.KeepsMachine (s.attach attachment) := by
  cases hm : s.mode with
  | available e =>
    rw [attach_of_available hm]
    intro e' h
    obtain rfl := Option.some.inj h
    refine ⟨e, engine?_of_available hm, ?_⟩
    cases attachment with
    | _ => rfl
  | active run | lost =>
    rw [attach_of_not_available (by rw [hm]; exact fun _ => Mode.noConfusion)]
    exact keepsMachine_of_mode rfl

theorem keepsMachine_settle (s : Session) : s.KeepsMachine s.settle.session := by
  cases hm : s.mode with
  | active run =>
    rw [(settle_of_active hm).1]
    intro e h
    by_cases hcrash : run.ending = some .crash
    · simp only [engine?, modeAfter_of_crash hcrash] at h
      cases h
    · simp only [engine?, modeAfter_of_no_crash hcrash] at h
      obtain rfl := Option.some.inj h
      exact ⟨run.engine, engine?_of_active hm, rfl⟩
  | available e | lost =>
    rw [settle_of_not_active (by rw [hm]; exact fun _ => Mode.noConfusion)]
    exact keepsMachine_of_mode rfl

theorem Sound.of_keepsMachine {s' : Session} (hs : s.Sound) (hk : s.KeepsMachine s') :
    s'.Sound := by
  intro e' h
  obtain ⟨e, he, hmachine⟩ := hk e' h
  rw [hmachine]
  exact hs e he

theorem Sound.cycle (hs : s.Sound) (randomByte : UInt8) : (s.cycle randomByte).session.Sound := by
  cases hr : s.isRunning with
  | false =>
    rw [cycle_of_not_running hr]
    exact hs
  | true =>
    obtain ⟨e, cycles, h⟩ := isRunning_eq_true_iff.1 hr
    rw [cycle_of_holds h]
    intro e' h'
    obtain rfl := Option.some.inj h'
    rw [Engine.machine_turn]
    exact (hs e (engine?_of_active h)).perform (.cycle randomByte)

theorem Sound.refresh (hs : s.Sound) : s.refresh.session.Sound := by
  cases hr : s.isRunning with
  | false =>
    rw [refresh_of_not_running hr]
    exact hs
  | true =>
    obtain ⟨e, cycles, h⟩ := isRunning_eq_true_iff.1 hr
    cases hd : s.options.refreshDue cycles with
    | false =>
      rw [refresh_of_not_due h hd]
      exact hs
    | true =>
      obtain ⟨keys, hkeys⟩ := e.machine_refresh s.keypad
      rw [refresh_of_due h hd]
      intro e' h'
      obtain rfl := Option.some.inj h'
      rw [hkeys]
      exact (hs e (engine?_of_active h)).perform (.setKeys keys)

theorem reachable_loadedMachine (program : Bytes) : (loadedMachine program).Reachable :=
  Machine.Reachable.powerOn.perform (.load program)

theorem sound_begun (s : Session) (e : Engine) : (s.begun e).Sound := by
  intro e' h
  obtain rfl := Option.some.inj h
  exact reachable_loadedMachine s.program

/-- **What a start comes to**: it is refused because of a run, because of the lost machine or
because of the program, or else it begins a run. -/
theorem Sound.start_cases (hs : s.Sound) :
    (∃ run, s.mode = .active run ∧ s.start = s.answer (.error .alreadyRunning)) ∨
      (s.mode = .lost ∧ s.start = s.answer (.error .machineLost)) ∨
      (∃ e cause, s.mode = .available e ∧
        (Machine.powerOn.machine.load s.program).result = .error cause ∧
        s.start = ⟨{ s with mode := .available (e.withMachine Machine.powerOn.machine) },
          .error (.load cause), [], [.reset]⟩) ∨
      ∃ e size, s.mode = .available e ∧
        (Machine.powerOn.machine.load s.program).result = .ok size ∧
        s.start = ⟨(s.begun e).refresh.session, .ok (), (s.begun e).refresh.signals,
          [.reset] ++ (Machine.powerOn.machine.load s.program).log ++ [.started s.options.rate] ++
            (s.begun e).refresh.log⟩ := by
  cases hm : s.mode with
  | active run => exact .inl ⟨run, rfl, start_of_active hm⟩
  | lost => exact .inr (.inl ⟨rfl, start_of_lost hm⟩)
  | available e =>
    cases hl : (Machine.powerOn.machine.load s.program).result with
    | error cause =>
      exact .inr (.inr (.inl ⟨e, cause, rfl, rfl, start_of_load_error hm (hs.of_available hm) hl⟩))
    | ok size =>
      exact .inr (.inr (.inr ⟨e, size, rfl, rfl, start_of_load hm (hs.of_available hm) hl⟩))

theorem Sound.start (hs : s.Sound) : s.start.session.Sound := by
  rcases hs.start_cases with ⟨run, -, h⟩ | ⟨-, h⟩ | ⟨e, cause, -, -, h⟩ | ⟨e, size, -, -, h⟩
  · rw [h]
    exact hs
  · rw [h]
    exact hs
  · rw [h]
    intro e' h'
    obtain rfl := Option.some.inj h'
    exact .powerOn
  · rw [h]
    exact (sound_begun s e).refresh

/-- No operation leads out of the sound sessions. -/
theorem Sound.perform (hs : s.Sound) (operation : Operation) :
    (s.perform operation).session.Sound := by
  cases operation with
  | keys move => cases move with | _ => exact hs
  | attach attachment => exact hs.of_keepsMachine (s.keepsMachine_attach attachment)
  | start => exact hs.start
  | iterate randomByte meanwhile =>
    refine Sound.refresh ((hs.cycle randomByte).of_keepsMachine (keepsMachine_of_mode ?_))
    rw [moveAll_eq]
  | countOverrun =>
    refine hs.of_keepsMachine (keepsMachine_of_mode ?_)
    change (if s.isRunning then s.countOverrun else s).mode = s.mode
    split <;> rfl
  | stop randomByte =>
    exact (hs.cycle randomByte).of_keepsMachine (keepsMachine_settle _)

theorem Sound.after (hs : s.Sound) (history : List Operation) : (s.after history).Sound := by
  induction history generalizing s with
  | nil => exact hs
  | cons operation rest ih => exact ih (hs.perform operation)

theorem sound_fresh (program : Bytes) (options : Options) : (fresh program options).Sound := by
  intro e h
  obtain rfl := Option.some.inj h
  exact .powerOn

/-! ## Before the first start -/

theorem unstarted_fresh (program : Bytes) (options : Options) :
    (fresh program options).Unstarted :=
  ⟨rfl, rfl, _, rfl⟩

/-- Nothing but a start that succeeds ends this. -/
theorem Unstarted.perform (h : s.Unstarted) (hs : s.Sound) {operation : Operation}
    (hno : (s.perform operation).result ≠ .started (.ok ())) :
    (s.perform operation).session.Unstarted := by
  obtain ⟨hsnapshot, hoverruns, e, hm⟩ := h
  have hrunning : s.isRunning = false := by
    unfold isRunning
    rw [hm]
  cases operation with
  | keys move => cases move with | _ => exact ⟨hsnapshot, hoverruns, e, hm⟩
  | attach attachment =>
    change (s.attach attachment).Unstarted
    rw [attach_of_available hm]
    exact ⟨hsnapshot, hoverruns, _, rfl⟩
  | start =>
    change s.start.session.Unstarted
    rcases hs.start_cases with ⟨run, hm', -⟩ | ⟨hm', -⟩ | ⟨e', cause, -, -, h⟩ | ⟨e', size, -, -, h⟩
    · cases hm.symm.trans hm'
    · cases hm.symm.trans hm'
    · rw [h]
      exact ⟨hsnapshot, hoverruns, _, rfl⟩
    · refine absurd (congrArg Answer.started ?_) hno
      rw [h]
  | iterate randomByte meanwhile =>
    rw [perform_iterate_of_not_running hrunning, moveAll_eq]
    exact ⟨hsnapshot, hoverruns, e, hm⟩
  | countOverrun =>
    change (if s.isRunning then s.countOverrun else s).Unstarted
    rw [hrunning]
    exact ⟨hsnapshot, hoverruns, e, hm⟩
  | stop randomByte =>
    change (s.stop randomByte).session.Unstarted
    rw [stop_of_not_active (by rw [hm]; intro _ h; cases h)]
    exact ⟨hsnapshot, hoverruns, e, hm⟩

theorem Unstarted.after (h : s.Unstarted) (hs : s.Sound) {history : List Operation}
    (hno : ∀ seen ∈ s.observations history, seen.answer ≠ .started (.ok ())) :
    (s.after history).Unstarted := by
  induction history generalizing s with
  | nil => exact h
  | cons operation rest ih =>
    rw [observations, List.forall_mem_cons] at hno
    exact ih (h.perform hs hno.1) (hs.perform operation) hno.2

end Operations

end Session

end Chip8
