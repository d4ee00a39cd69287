import Chip8.Proofs.Session.Invariant

/-!
# The loop of a run, point by point

A session is looked at between two of its operations, while its snapshot is shared with others that
may look at any time. So the loop of a run is taken apart here into steps, each of which does one
thing: the refresh, the cycle, taking the changed screen over into the snapshot, and one call for
each callback. `turn_eq_run` and `refresh_eq_step` say that these steps make up what a session does
in one go.

All along the way, the snapshot shows the screen of the machine (`Fresh`) unless the loop is just
about to take a changed screen over (`Stale`). This needs that a cycle which is not said to touch
the screen leaves it alone.
-/

namespace Chip8

/-- Where the loop of a run stands. -/
inductive Point
  /-- The keys are about to be refreshed, if they are due. -/
  | refresh
  /-- A cycle is about to be executed. -/
  | cycle
  /-- A cycle was completed, and its screen is about to be taken over if the cycle touched it. -/
  | publish (outcome : Outcome)
  /-- The callback for screens is about to be called, if the cycle touched the screen. -/
  | callScreen (outcome : Outcome)
  /-- The callback for sound is about to be called, if the sound timer ran out. -/
  | callSound (outcome : Outcome)
  /-- The run has ended. -/
  | ended (ending : Engine.Ending)

/-- The loop of a run at any of its points. -/
structure Loop where
  engine : Engine
  /-- The number of completed cycles. -/
  cycles : Nat
  snapshot : Snapshot
  point : Point
  /-- The calls made so far. -/
  signals : List Signal

namespace Loop

/-- Goes on to the next point after calling back, unless a callback crashed. -/
def proceed (l : Loop) (called : Engine.Called) (next : Point) : Loop :=
  { l with
    engine := called.engine
    point := if called.crashed then .ended .crash else next
    signals := l.signals ++ called.signals }

/-- Takes the loop from one point to the next. The user's `handle` and a random byte are at hand
in case the step needs them. -/
def step (options : Options) (handle : Keypad) (randomByte : UInt8) (l : Loop) : Loop :=
  match l.point with
  | .refresh =>
    l.proceed (if options.refreshDue l.cycles then l.engine.refresh handle else l.engine.quiet)
      .cycle
  | .cycle =>
    let cycled := l.engine.machine.cycle randomByte
    let e := l.engine.withMachine cycled.machine
    match cycled.result with
    | .error fault => { l with engine := e, point := .ended (.fault fault) }
    | .ok outcome => { l with engine := e, cycles := l.cycles + 1, point := .publish outcome }
  | .publish outcome =>
    { l with
      snapshot :=
        if outcome.screenChanged then
          (l.snapshot.update l.engine.machine.screen options.color).1
        else
          l.snapshot
      point := .callScreen outcome }
  | .callScreen outcome =>
    l.proceed (if outcome.screenChanged then l.engine.callScreen else l.engine.quiet)
      (.callSound outcome)
  | .callSound outcome =>
    l.proceed (if outcome.soundExpired then l.engine.callSound else l.engine.quiet) .refresh
  | .ended _ => l

/-- Takes one step after another, each with its keypad and its random byte. -/
def run (options : Options) (inputs : List (Keypad × UInt8)) (l : Loop) : Loop :=
  inputs.foldl (fun l input => l.step options input.1 input.2) l

end Loop

/-- The point that a turn leads to. -/
def Point.after (ending : Option Engine.Ending) : Point :=
  ending.elim .refresh .ended

/-- How the run ended, if it has. -/
def Point.ending? : Point → Option Engine.Ending
  | .ended ending => some ending
  | _ => none

@[simp]
theorem Point.ending?_after (ending : Option Engine.Ending) : (after ending).ending? = ending := by
  cases ending with
  | _ => rfl

namespace Session

/-- The loop of a session that is held at a point of its run. -/
def loop (s : Session) (e : Engine) (cycles : Nat) (point : Point) : Loop :=
  ⟨e, cycles, s.snapshot, point, []⟩

/-- The session with its run where the loop has got to. -/
def withLoop (s : Session) (l : Loop) : Session :=
  { s with mode := .active ⟨l.engine, l.cycles, l.point.ending?⟩, snapshot := l.snapshot }

end Session

/-! ## The steps of a refresh and of a turn -/

namespace Loop

variable {options : Options}

/-- A loop that has ended stays as it is. -/
theorem run_of_ended {l : Loop} {ending : Engine.Ending} (h : l.point = .ended ending)
    (inputs : List (Keypad × UInt8)) : l.run options inputs = l := by
  induction inputs with
  | nil => rfl
  | cons input rest ih =>
    have hstep : l.step options input.1 input.2 = l := by
      unfold step
      rw [h]
    change (l.step options input.1 input.2).run options rest = l
    rw [hstep]
    exact ih

theorem ending?_proceed (l : Loop) (called : Engine.Called) :
    (l.proceed called .cycle).point.ending? = if called.crashed then some .crash else none := by
  unfold proceed
  cases called.crashed with
  | _ => rfl

/-- The two calls after a cycle announce its outcome. -/
theorem run_calls {l : Loop} {outcome : Outcome} (h : l.point = .callScreen outcome)
    (first second : Keypad × UInt8) :
    l.run options [first, second] = l.proceed (l.engine.announce outcome) .refresh := by
  have hscreen : l.step options first.1 first.2 =
      l.proceed (if outcome.screenChanged then l.engine.callScreen else l.engine.quiet)
        (.callSound outcome) := by
    unfold step
    rw [h]
  change (l.step options first.1 first.2).step options second.1 second.2 = _
  rw [hscreen, Engine.announce, Engine.Called.andThen]
  generalize (if outcome.screenChanged then l.engine.callScreen else l.engine.quiet) = called
  cases hc : called.crashed with
  | true => simp only [step, proceed, hc, if_true]
  | false =>
    simp only [step, proceed, hc, Bool.false_eq_true, if_false, List.append_assoc]

/-- A refresh that is due is one step. -/
theorem step_of_refresh {l : Loop} (h : l.point = .refresh)
    (hd : options.refreshDue l.cycles = true) (handle : Keypad) (randomByte : UInt8) :
    l.step options handle randomByte = l.proceed (l.engine.refresh handle) .cycle := by
  unfold step
  rw [h]
  simp only [hd, if_true]

/-- **A turn is four steps**: the cycle, taking the screen over, and two calls. -/
theorem run_of_cycle {l : Loop} (h : l.point = .cycle) (handle : Keypad) (randomByte : UInt8)
    (second third fourth : Keypad × UInt8) :
    let turn := l.engine.turn randomByte options.color l.snapshot
    l.run options [(handle, randomByte), second, third, fourth] =
      ⟨turn.engine, if turn.completed then l.cycles + 1 else l.cycles, turn.snapshot,
        .after turn.ending, l.signals ++ turn.signals⟩ := by
  intro turn
  cases hr : (l.engine.machine.cycle randomByte).result with
  | error fault =>
    have hm : (l.engine.machine.cycle randomByte).machine = l.engine.machine :=
      Machine.machine_of_fault (Machine.result_eq_error_iff.1 hr) randomByte
    have hstep : l.step options handle randomByte = { l with point := .ended (.fault fault) } := by
      unfold step
      rw [h]
      simp only [hr, hm]
      rfl
    change (l.step options handle randomByte).run options [second, third, fourth] = _
    rw [hstep, run_of_ended rfl]
    simp only [turn, Engine.turn_of_fault hr, List.append_nil]
    rfl
  | ok outcome =>
    have hstep : (l.step options handle randomByte).step options second.1 second.2 =
        { l with
          engine := l.engine.withMachine (l.engine.machine.cycle randomByte).machine
          cycles := l.cycles + 1
          snapshot := Engine.snapshotAfter l.snapshot options.color outcome
            (l.engine.machine.cycle randomByte).machine
          point := .callScreen outcome } := by
      unfold step
      rw [h]
      simp only [hr, Snapshot.bytes_update]
      rfl
    change ((l.step options handle randomByte).step options second.1 second.2).run options
      [third, fourth] = _
    rw [hstep, run_calls rfl]
    simp only [turn, Engine.turn_of_outcome hr, proceed, if_true]
    cases (Engine.announce outcome _).crashed with
    | true => rfl
    | false => rfl

end Loop

namespace Session

variable {s : Session}

/-- **A cycle of a session** is four steps of its loop. -/
theorem cycle_eq_run {e : Engine} {cycles : Nat} (h : s.Holds e cycles) (handle : Keypad)
    (randomByte : UInt8) (second third fourth : Keypad × UInt8) :
    let l := (s.loop e cycles .cycle).run s.options [(handle, randomByte), second, third, fourth]
    (∃ ending, l.point = .after ending) ∧ (s.cycle randomByte).session = s.withLoop l ∧
      (s.cycle randomByte).signals = l.signals := by
  intro l
  have hl : l = _ := Loop.run_of_cycle (l := s.loop e cycles .cycle) rfl handle randomByte second
    third fourth
  rw [cycle_of_holds h, hl]
  simp only [withLoop, Point.ending?_after, loop, List.nil_append]
  exact ⟨⟨_, rfl⟩, rfl, trivial⟩

/-- **A refresh of a session** is the step of its loop that comes next, if the run has not ended. -/
theorem refresh_eq_step {l : Loop} {ending : Option Engine.Ending} (hp : l.point = .after ending)
    (randomByte : UInt8) :
    (s.withLoop l).refresh.session = s.withLoop (l.step s.options s.keypad randomByte) ∧
      l.signals ++ (s.withLoop l).refresh.signals =
        (l.step s.options s.keypad randomByte).signals := by
  cases ending with
  | some ending =>
    have hm : (s.withLoop l).mode = .active ⟨l.engine, l.cycles, some ending⟩ := by
      simp only [withLoop, hp, Point.ending?_after]
    rw [refresh_of_not_running (isRunning_of_ending hm)]
    simp only [Loop.step, hp, Point.after, Option.elim_some, answer, List.append_nil, and_self]
  | none =>
    have hp' : l.point = .refresh := hp
    have hh : (s.withLoop l).Holds l.engine l.cycles := by
      simp only [Holds, withLoop, hp', Point.ending?]
    cases hd : s.options.refreshDue l.cycles with
    | false =>
      rw [refresh_of_not_due hh hd]
      simp only [Loop.step, hp', hd, Bool.false_eq_true, if_false, answer, withLoop, Loop.proceed,
        Engine.quiet, Point.ending?, and_self]
    | true =>
      rw [refresh_of_due hh hd, Loop.step_of_refresh hp' hd]
      refine ⟨?_, rfl⟩
      simp only [withLoop, Loop.ending?_proceed]
      rfl

/-- **An iteration of a session** is five steps of its loop: those of the cycle and the refresh,
which looks at the keypad after the user's moves. -/
theorem iterate_eq_run {e : Engine} {cycles : Nat} (h : s.Holds e cycles) (handle : Keypad)
    (randomByte lastByte : UInt8) (second third fourth : Keypad × UInt8)
    (meanwhile : List KeyMove) :
    let l := (s.loop e cycles .cycle).run s.options [(handle, randomByte), second, third, fourth,
      (s.keypad.moveAll meanwhile, lastByte)]
    (s.perform (.iterate randomByte meanwhile)).session = (s.moveAll meanwhile).withLoop l ∧
      (s.perform (.iterate randomByte meanwhile)).signals = l.signals := by
  intro l
  obtain ⟨⟨ending, hp⟩, hsession, hsignals⟩ :=
    cycle_eq_run h handle randomByte second third fourth
  have hmoved : (s.cycle randomByte).session.moveAll meanwhile = (s.moveAll meanwhile).withLoop _ :=
    (congrArg (·.moveAll meanwhile) hsession).trans (by rw [moveAll_eq, moveAll_eq]; rfl)
  have hrefresh := refresh_eq_step (s := s.moveAll meanwhile) hp lastByte
  rw [← hmoved, ← hsignals] at hrefresh
  have hstep : l = Loop.step (s.moveAll meanwhile).options (s.moveAll meanwhile).keypad lastByte
      ((s.loop e cycles .cycle).run s.options [(handle, randomByte), second, third, fourth]) := by
    rw [moveAll_eq]
    rfl
  rw [hstep]
  exact hrefresh

/-- **The first refresh of a session** is the first step of its loop. -/
theorem start_eq_step {e : Engine} {size : Nat} (hm : s.mode = .available e)
    (hs : e.machine.Sound) (hl : (Machine.powerOn.machine.load s.program).result = .ok size)
    (randomByte : UInt8) :
    let l := ((s.begun e).loop (e.withMachine (loadedMachine s.program)) 0 .refresh).step s.options
      s.keypad randomByte
    s.start.session = (s.begun e).withLoop l ∧ s.start.signals = l.signals := by
  have hp : ((s.begun e).loop (e.withMachine (loadedMachine s.program)) 0 .refresh).point =
      .after none := rfl
  rw [start_of_load hm hs hl]
  exact refresh_eq_step (s := s.begun e) hp randomByte

end Session

namespace Loop

variable {options : Options}

/-! ## The snapshot along the way -/

/-- The machine of a loop stays reachable. -/
theorem reachable_step {l : Loop} (h : l.engine.machine.Reachable) (handle : Keypad)
    (randomByte : UInt8) : (l.step options handle randomByte).engine.machine.Reachable := by
  cases hp : l.point with
  | refresh =>
    simp only [step, hp]
    split
    · obtain ⟨keys, hkeys⟩ := l.engine.machine_refresh handle
      simp only [proceed, hkeys]
      exact h.perform (.setKeys keys)
    · exact h
  | cycle =>
    simp only [step, hp]
    split
    · exact h.perform (.cycle randomByte)
    · exact h.perform (.cycle randomByte)
  | publish outcome | ended ending =>
    simp only [step, hp]
    exact h
  | callScreen outcome =>
    simp only [step, hp, proceed]
    split
    · rw [Engine.callScreen_eq, Engine.machine_record]
      exact h
    · exact h
  | callSound outcome =>
    simp only [step, hp, proceed]
    split
    · rw [Engine.callSound_eq, Engine.machine_record]
      exact h
    · exact h

theorem reachable_run {l : Loop} (h : l.engine.machine.Reachable)
    (inputs : List (Keypad × UInt8)) : (l.run options inputs).engine.machine.Reachable := by
  induction inputs generalizing l with
  | nil => exact h
  | cons input rest ih => exact ih (reachable_step h input.1 input.2)

/-- The loop is about to take a changed screen over. -/
def Stale (l : Loop) : Prop :=
  ∃ outcome, l.point = .publish outcome ∧ outcome.screenChanged = true

/-- The snapshot shows the screen of the machine. -/
def Fresh (color : Color) (l : Loop) : Prop :=
  l.snapshot = ⟨l.engine.machine.screen.packed color⟩

/-- Calling back keeps a snapshot fresh if it leaves the screen alone. -/
theorem Fresh.proceed {l : Loop} {color : Color} (h : l.Fresh color) {called : Engine.Called}
    (hs : called.engine.machine.screen = l.engine.machine.screen) (next : Point) :
    (l.proceed called next).Fresh color := by
  change l.snapshot = ⟨called.engine.machine.screen.packed color⟩
  rw [hs]
  exact h

/-- **Every step** leaves the snapshot fresh, unless the next step is to take a changed screen
over. -/
theorem fresh_step {l : Loop} (h : ¬l.Stale → l.Fresh options.color) (handle : Keypad)
    (randomByte : UInt8) (hn : ¬(l.step options handle randomByte).Stale) :
    (l.step options handle randomByte).Fresh options.color := by
  have hfresh : (∀ outcome, l.point ≠ .publish outcome) → l.Fresh options.color :=
    fun hp => h fun ⟨outcome, hpublish, _⟩ => hp outcome hpublish
  cases hp : l.point with
  | refresh =>
    have hl := hfresh (by rw [hp]; exact fun _ => Point.noConfusion)
    simp only [step, hp]
    split
    · obtain ⟨keys, hkeys⟩ := l.engine.machine_refresh handle
      exact hl.proceed (by rw [hkeys]; rfl) _
    · exact hl.proceed rfl _
  | cycle =>
    have hl := hfresh (by rw [hp]; exact fun _ => Point.noConfusion)
    simp only [step, hp] at hn ⊢
    cases hr : (l.engine.machine.cycle randomByte).result with
    | error fault =>
      have hm := Machine.machine_of_fault (Machine.result_eq_error_iff.1 hr) randomByte
      simp only [hm]
      exact hl
    | ok outcome =>
      simp only [hr] at hn ⊢
      have hsame : outcome.screenChanged = false := by
        rw [Bool.eq_false_iff]
        exact fun hc => hn ⟨outcome, rfl, hc⟩
      change l.snapshot = ⟨(l.engine.machine.cycle randomByte).machine.screen.packed options.color⟩
      rw [Machine.screen_cycle hr hsame]
      exact hl
  | publish outcome =>
    simp only [Fresh, step, hp, Snapshot.bytes_update]
    cases hc : outcome.screenChanged with
    | true => exact if_pos rfl
    | false =>
      refine (if_neg Bool.false_ne_true).trans (h ?_)
      rintro ⟨outcome', hp', hc'⟩
      obtain rfl := Point.publish.inj (hp.symm.trans hp')
      cases hc.symm.trans hc'
  | callScreen outcome =>
    have hl := hfresh (by rw [hp]; exact fun _ => Point.noConfusion)
    simp only [step, hp]
    split
    · rw [Engine.callScreen_eq]
      exact hl.proceed (congrArg Machine.screen (Engine.machine_record _ _ _)) _
    · exact hl.proceed rfl _
  | callSound outcome =>
    have hl := hfresh (by rw [hp]; exact fun _ => Point.noConfusion)
    simp only [step, hp]
    split
    · rw [Engine.callSound_eq]
      exact hl.proceed (congrArg Machine.screen (Engine.machine_record _ _ _)) _
    · exact hl.proceed rfl _
  | ended ending =>
    have hl := hfresh (by rw [hp]; exact fun _ => Point.noConfusion)
    simp only [step, hp]
    exact hl

/-- **Any number of steps** leave the snapshot fresh, unless the next step is to take a changed
screen over. -/
theorem fresh_run {l : Loop} (h : ¬l.Stale → l.Fresh options.color)
    (inputs : List (Keypad × UInt8)) (hn : ¬(l.run options inputs).Stale) :
    (l.run options inputs).Fresh options.color := by
  induction inputs generalizing l with
  | nil => exact h hn
  | cons input rest ih => exact ih (fresh_step h input.1 input.2) hn

end Loop

end Chip8
