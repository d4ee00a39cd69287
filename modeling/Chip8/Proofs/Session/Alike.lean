import Chip8.Proofs.Session.Invariant

/-!
# Sessions that cannot be told apart

Two callbacks are alike if they answer every series of calls with the same replies, whatever they
remember in between. Sessions are alike if they agree in all but their callbacks, and have alike
callbacks. Everything that is done to such sessions comes to the same and leaves them alike
(`Alike.perform`), so that no history tells one from the other (`Alike.history`).
-/

namespace Chip8

/-! ## Callbacks -/

namespace Callback

variable {α β : Type}

/-- The replies to a series of calls; none comes after a crash. -/
def replies (c : Callback α β) : List α → List (Option β)
  | [] => []
  | argument :: rest =>
    match c.call argument with
    | none => [none]
    | some (reply, c) => some reply :: c.replies rest

/-- The callbacks give the same replies to the same calls. -/
def Alike (c d : Callback α β) : Prop :=
  ∀ arguments, c.replies arguments = d.replies arguments

theorem Alike.refl (c : Callback α β) : c.Alike c :=
  fun _ => rfl

/-- Alike callbacks take a call in the same way, and are alike after that. -/
theorem Alike.call {c d : Callback α β} (h : c.Alike d) (argument : α) :
    (c.call argument = none ∧ d.call argument = none) ∨
      ∃ reply c' d', c.call argument = some (reply, c') ∧ d.call argument = some (reply, d') ∧
        c'.Alike d' := by
  have hcall := fun rest => h (argument :: rest)
  simp only [replies] at hcall
  cases hc : c.call argument with
  | none =>
    cases hd : d.call argument with
    | none => exact .inl ⟨rfl, rfl⟩
    | some answer =>
      simp only [hc, hd] at hcall
      cases (hcall [])
  | some answer =>
    obtain ⟨reply, c'⟩ := answer
    cases hd : d.call argument with
    | none =>
      simp only [hc, hd] at hcall
      cases (hcall [])
    | some answer' =>
      obtain ⟨reply', d'⟩ := answer'
      simp only [hc, hd, List.cons.injEq, Option.some.injEq] at hcall
      obtain rfl := (hcall []).1
      exact .inr ⟨reply, c', d', rfl, rfl, fun rest => (hcall rest).2⟩

theorem rel_map {γ δ : Type _} {ε ζ : Type _} {r : γ → δ → Prop} {r' : ε → ζ → Prop}
    {x : Option γ} {y : Option δ} (h : Option.Rel r x y) {f : γ → ε} {g : δ → ζ}
    (hf : ∀ {a b}, r a b → r' (f a) (g b)) : Option.Rel r' (x.map f) (y.map g) := by
  cases h with
  | none => exact .none
  | some h => exact .some (hf h)

/-- Callbacks that may be missing are alike if both are missing or both are there and alike. -/
abbrev AlikeIfAny (c? d? : Option (Callback α β)) : Prop :=
  Option.Rel Alike c? d?

theorem alikeIfAny_refl (c? : Option (Callback α β)) : AlikeIfAny c? c? := by
  cases c? with
  | none => exact .none
  | some c => exact .some (.refl c)

theorem AlikeIfAny.isSome_eq {c? d? : Option (Callback α β)} (h : AlikeIfAny c? d?) :
    c?.isSome = d?.isSome := by
  cases h with
  | _ => rfl

theorem AlikeIfAny.tell {c? d? : Option (Callback α β)} (h : AlikeIfAny c? d?) (argument : α) :
    Option.Rel AlikeIfAny (tell c? argument) (tell d? argument) := by
  cases h with
  | none => exact .some .none
  | some h =>
    rcases h.call argument with ⟨hc, hd⟩ | ⟨reply, c', d', hc, hd, halike⟩
    · simp only [Callback.tell, hc, hd]
      exact .none
    · simp only [Callback.tell, hc, hd]
      exact .some (.some halike)

end Callback

/-! ## Engines -/

namespace Engine

/-- The callbacks of the engines are alike. -/
structure CallbacksAlike (e e' : Engine) : Prop where
  onScreen : Callback.AlikeIfAny e.onScreen e'.onScreen
  onKeypad : Callback.AlikeIfAny e.onKeypad e'.onKeypad
  onSound : Callback.AlikeIfAny e.onSound e'.onSound

/-- The engines have the same machine, and alike callbacks. -/
structure Alike (e e' : Engine) : Prop extends CallbacksAlike e e' where
  machine_eq : e.machine = e'.machine

/-- What two engines come to when they call back. -/
structure Called.Alike (c c' : Called) : Prop where
  engine : c.engine.Alike c'.engine
  signals_eq : c.signals = c'.signals
  crashed_eq : c.crashed = c'.crashed

variable {e e' : Engine}

theorem CallbacksAlike.withMachine (h : e.CallbacksAlike e') (m : Machine) :
    (e.withMachine m).Alike (e'.withMachine m) :=
  ⟨⟨h.onScreen, h.onKeypad, h.onSound⟩, rfl⟩

theorem Alike.quiet (h : e.Alike e') : e.quiet.Alike e'.quiet :=
  ⟨h, rfl, rfl⟩

theorem Alike.attach (h : e.Alike e') (attachment : Attachment) :
    (e.attach attachment).Alike (e'.attach attachment) := by
  cases attachment with
  | screen callback =>
    exact ⟨⟨Callback.alikeIfAny_refl _, h.onKeypad, h.onSound⟩, h.machine_eq⟩
  | keypad callback =>
    exact ⟨⟨h.onScreen, Callback.alikeIfAny_refl _, h.onSound⟩, h.machine_eq⟩
  | sound callback =>
    exact ⟨⟨h.onScreen, h.onKeypad, Callback.alikeIfAny_refl _⟩, h.machine_eq⟩

theorem Alike.hear (h : e.Alike e') (signal : Signal) :
    Option.Rel Alike (e.hear signal) (e'.hear signal) := by
  cases signal with
  | keypad keys =>
    exact Callback.rel_map (h.onKeypad.tell keys) fun halike =>
      ⟨⟨h.onScreen, halike, h.onSound⟩, h.machine_eq⟩
  | screen screen =>
    exact Callback.rel_map (h.onScreen.tell screen) fun halike =>
      ⟨⟨halike, h.onKeypad, h.onSound⟩, h.machine_eq⟩
  | sound =>
    exact Callback.rel_map (h.onSound.tell ()) fun halike =>
      ⟨⟨h.onScreen, h.onKeypad, halike⟩, h.machine_eq⟩

theorem Alike.record (h : e.Alike e') (wanted : Bool) (signal : Signal) :
    (e.record wanted signal).Alike (e'.record wanted signal) := by
  cases wanted with
  | false => exact h.quiet
  | true =>
    simp only [Engine.record, if_true]
    have hheard := h.hear signal
    generalize e.hear signal = heard, e'.hear signal = heard' at hheard
    cases hheard with
    | none => exact ⟨h, rfl, rfl⟩
    | some halike => exact ⟨halike, rfl, rfl⟩

theorem Called.Alike.andThen {c c' : Called} (h : c.Alike c') {f f' : Engine → Called}
    (hf : ∀ {e e'}, e.Alike e' → (f e).Alike (f' e')) : (c.andThen f).Alike (c'.andThen f') := by
  simp only [Called.andThen, h.crashed_eq]
  cases c'.crashed with
  | true => exact h
  | false =>
    have hnext := hf h.engine
    refine ⟨hnext.engine, ?_, hnext.crashed_eq⟩
    simp only [Bool.false_eq_true, if_false, h.signals_eq, hnext.signals_eq]

theorem Alike.announce (h : e.Alike e') (outcome : Outcome) :
    (e.announce outcome).Alike (e'.announce outcome) := by
  rw [announce_eq, announce_eq, h.machine_eq, h.onScreen.isSome_eq]
  refine (h.record _ _).andThen fun h => ?_
  rw [h.onSound.isSome_eq]
  exact h.record _ _

theorem Alike.refresh (h : e.Alike e') (handle : Keypad) :
    (e.refresh handle).Alike (e'.refresh handle) := by
  have hkeypad := h.onKeypad
  generalize hc : e.onKeypad = c?, hd : e'.onKeypad = d? at hkeypad
  cases hkeypad with
  | none =>
    rw [refresh_of_no_callback hc, refresh_of_no_callback hd, h.machine_eq]
    exact (h.withMachine _).quiet
  | some halike =>
    rcases halike.call e.machine.keys with ⟨hcrash, hcrash'⟩ |
      ⟨reply, c', d', hreply, hreply', hnext⟩
    · rw [h.machine_eq] at hcrash'
      rw [refresh_of_crash hc hcrash, refresh_of_crash hd hcrash', h.machine_eq]
      exact ⟨h, rfl, rfl⟩
    · rw [h.machine_eq] at hreply'
      rw [refresh_of_answer hc hreply, refresh_of_answer hd hreply', h.machine_eq]
      exact ⟨⟨⟨h.onScreen, .some hnext, h.onSound⟩, rfl⟩, rfl, rfl⟩

/-- What two engines come to in a turn. -/
structure Turn.Alike (t t' : Turn) : Prop where
  engine : t.engine.Alike t'.engine
  snapshot_eq : t.snapshot = t'.snapshot
  completed_eq : t.completed = t'.completed
  ending_eq : t.ending = t'.ending
  signals_eq : t.signals = t'.signals
  log_eq : t.log = t'.log

theorem Alike.turn (h : e.Alike e') (randomByte : UInt8) (color : Color) (snapshot : Snapshot) :
    (e.turn randomByte color snapshot).Alike (e'.turn randomByte color snapshot) := by
  cases hr : (e.machine.cycle randomByte).result with
  | error fault =>
    have hr' : (e'.machine.cycle randomByte).result = .error fault := h.machine_eq ▸ hr
    rw [turn_of_fault hr, turn_of_fault hr', h.machine_eq]
    exact ⟨h, rfl, rfl, rfl, rfl, rfl⟩
  | ok outcome =>
    have hr' : (e'.machine.cycle randomByte).result = .ok outcome := h.machine_eq ▸ hr
    have hcalled := (h.withMachine (e.machine.cycle randomByte).machine).announce outcome
    rw [h.machine_eq] at hcalled
    rw [turn_of_outcome hr, turn_of_outcome hr', h.machine_eq]
    exact ⟨hcalled.engine, rfl, rfl, by simp only [hcalled.crashed_eq], hcalled.signals_eq, rfl⟩

end Engine

/-! ## Sessions -/

/-- The modes agree, with alike engines in them. -/
inductive Mode.Alike : Mode → Mode → Prop
  | available {e e' : Engine} (h : e.Alike e') : Alike (.available e) (.available e')
  | active {e e' : Engine} {cycles : Nat} {ending : Option Engine.Ending} (h : e.Alike e') :
    Alike (.active ⟨e, cycles, ending⟩) (.active ⟨e', cycles, ending⟩)
  | lost : Alike .lost .lost

namespace Session

/-- The sessions agree in everything but their callbacks, which are alike. -/
structure Alike (s s' : Session) : Prop where
  program_eq : s.program = s'.program
  options_eq : s.options = s'.options
  mode : s.mode.Alike s'.mode
  snapshot_eq : s.snapshot = s'.snapshot
  keypad_eq : s.keypad = s'.keypad
  overruns_eq : s.overruns = s'.overruns

/-- Two replies with alike sessions agree in everything else. -/
structure Reply.Alike {α : Type} (r r' : Reply α) : Prop where
  session : r.session.Alike r'.session
  result_eq : r.result = r'.result
  signals_eq : r.signals = r'.signals
  log_eq : r.log = r'.log

section Operations

variable {s s' : Session} {α β : Type}

theorem Alike.answer (h : s.Alike s') (result : α) : (s.answer result).Alike (s'.answer result) :=
  ⟨h, rfl, rfl, rfl⟩

theorem Reply.Alike.map {r r' : Reply α} (h : r.Alike r') (f : α → β) :
    (r.map f).Alike (r'.map f) :=
  ⟨h.session, congrArg f h.result_eq, h.signals_eq, h.log_eq⟩

theorem Reply.Alike.andThen {r r' : Reply α} (h : r.Alike r') {f f' : α → Session → Reply β}
    (hf : ∀ {s s' : Session}, s.Alike s' → (f r.result s).Alike (f' r.result s')) :
    (r.andThen f).Alike (r'.andThen f') := by
  have hnext := hf h.session
  simp only [Reply.andThen, ← h.result_eq]
  refine ⟨hnext.session, hnext.result_eq, ?_, ?_⟩
  · rw [h.signals_eq, hnext.signals_eq]
  · rw [h.log_eq, hnext.log_eq]

/-- Alike sessions with alike modes in place of their own. -/
theorem Alike.withMode (h : s.Alike s') {mode mode' : Mode} (hm : mode.Alike mode')
    {snapshot snapshot' : Snapshot} (hs : snapshot = snapshot') :
    { s with mode := mode, snapshot := snapshot }.Alike
      { s' with mode := mode', snapshot := snapshot' } :=
  ⟨h.program_eq, h.options_eq, hm, hs, h.keypad_eq, h.overruns_eq⟩

/-- Either a run is in progress in both of them, or in none. -/
theorem Alike.running_cases (h : s.Alike s') :
    (s.isRunning = false ∧ s'.isRunning = false) ∨
      ∃ e e' cycles, s.Holds e cycles ∧ s'.Holds e' cycles ∧ e.Alike e' := by
  have hmode := h.mode
  simp only [isRunning, Holds]
  generalize s.mode = mode, s'.mode = mode' at hmode
  cases hmode with
  | available he => exact .inl ⟨rfl, rfl⟩
  | lost => exact .inl ⟨rfl, rfl⟩
  | @active e e' cycles ending he =>
    cases ending with
    | none => exact .inr ⟨e, e', cycles, rfl, rfl, he⟩
    | some ending => exact .inl ⟨rfl, rfl⟩

theorem Alike.isRunning_eq (h : s.Alike s') : s.isRunning = s'.isRunning := by
  rcases h.running_cases with ⟨hr, hr'⟩ | ⟨e, e', cycles, hh, hh', -⟩
  · rw [hr, hr']
  · rw [isRunning_eq_true_iff.2 ⟨e, cycles, hh⟩, isRunning_eq_true_iff.2 ⟨e', cycles, hh'⟩]

theorem Alike.machine?_eq (h : s.Alike s') : s.machine? = s'.machine? := by
  have hmode := h.mode
  simp only [machine?]
  generalize s.mode = mode, s'.mode = mode' at hmode
  cases hmode with
  | available he => exact congrArg some he.machine_eq
  | active he => rfl
  | lost => rfl

theorem Alike.cycle (h : s.Alike s') (randomByte : UInt8) :
    (s.cycle randomByte).Alike (s'.cycle randomByte) := by
  rcases h.running_cases with ⟨hr, hr'⟩ | ⟨e, e', cycles, hh, hh', he⟩
  · rw [cycle_of_not_running hr, cycle_of_not_running hr']
    exact h.answer ()
  · have hturn : (e.turn randomByte s.options.color s.snapshot).Alike
        (e'.turn randomByte s'.options.color s'.snapshot) := by
      rw [← h.options_eq, ← h.snapshot_eq]
      exact he.turn randomByte _ _
    rw [cycle_of_holds hh, cycle_of_holds hh']
    simp only [hturn.completed_eq, hturn.ending_eq]
    exact ⟨h.withMode (.active hturn.engine) hturn.snapshot_eq, rfl, hturn.signals_eq, hturn.log_eq⟩

theorem Alike.refresh (h : s.Alike s') : s.refresh.Alike s'.refresh := by
  rcases h.running_cases with ⟨hr, hr'⟩ | ⟨e, e', cycles, hh, hh', he⟩
  · rw [refresh_of_not_running hr, refresh_of_not_running hr']
    exact h.answer ()
  · cases hd : s.options.refreshDue cycles with
    | false =>
      rw [refresh_of_not_due hh hd, refresh_of_not_due hh' (h.options_eq ▸ hd)]
      exact h.answer ()
    | true =>
      have hcalled : (e.refresh s.keypad).Alike (e'.refresh s'.keypad) := by
        rw [← h.keypad_eq]
        exact he.refresh _
      rw [refresh_of_due hh hd, refresh_of_due hh' (h.options_eq ▸ hd)]
      simp only [hcalled.crashed_eq]
      exact ⟨h.withMode (.active hcalled.engine) h.snapshot_eq, rfl, hcalled.signals_eq, rfl⟩

theorem Alike.settle (h : s.Alike s') : s.settle.Alike s'.settle := by
  have hmode := h.mode
  unfold Session.settle
  generalize hm : s.mode = mode, hm' : s'.mode = mode' at hmode
  cases hmode with
  | available he => exact h.answer _
  | lost => exact h.answer _
  | @active e e' cycles ending he =>
    have hresult : verdict ⟨e, cycles, ending⟩ s.overruns =
        verdict ⟨e', cycles, ending⟩ s'.overruns := by
      rw [h.overruns_eq]
      rfl
    have hlog : [LogEntry.stopped cycles s.overruns] = [.stopped cycles s'.overruns] := by
      rw [h.overruns_eq]
    cases ending with
    | none => exact ⟨h.withMode (.available he) h.snapshot_eq, hresult, rfl, hlog⟩
    | some ending =>
      cases ending with
      | fault fault => exact ⟨h.withMode (.available he) h.snapshot_eq, hresult, rfl, hlog⟩
      | crash => exact ⟨h.withMode .lost h.snapshot_eq, hresult, rfl, rfl⟩

theorem Alike.attach (h : s.Alike s') (attachment : Attachment) :
    (s.attach attachment).Alike (s'.attach attachment) := by
  have hmode := h.mode
  unfold Session.attach
  generalize hm : s.mode = mode, hm' : s'.mode = mode' at hmode
  cases hmode with
  | available he => exact h.withMode (.available (he.attach attachment)) h.snapshot_eq
  | active he => exact h
  | lost => exact h

theorem Alike.moveAll (h : s.Alike s') (moves : List KeyMove) :
    (s.moveAll moves).Alike (s'.moveAll moves) := by
  rw [moveAll_eq, moveAll_eq]
  exact ⟨h.program_eq, h.options_eq, h.mode, h.snapshot_eq, by rw [h.keypad_eq], h.overruns_eq⟩

/-- **A start forgets the machine.** It comes to the same for sessions that agree in their program,
options and keypad and have alike callbacks. Their snapshots and overruns only count if the program
cannot be loaded. -/
theorem start_alike (hs : s.Sound) (hs' : s'.Sound) {e e' : Engine} (hm : s.mode = .available e)
    (hm' : s'.mode = .available e') (he : e.CallbacksAlike e') (hprogram : s.program = s'.program)
    (hoptions : s.options = s'.options) (hkeypad : s.keypad = s'.keypad)
    (hrest : ∀ cause, (Machine.powerOn.machine.load s.program).result = .error cause →
      s.snapshot = s'.snapshot ∧ s.overruns = s'.overruns) : s.start.Alike s'.start := by
  cases hl : (Machine.powerOn.machine.load s.program).result with
  | error cause =>
    obtain ⟨hsnapshot, hoverruns⟩ := hrest cause hl
    rw [start_of_load_error hm (hs.of_available hm) hl,
      start_of_load_error hm' (hs'.of_available hm') (hprogram ▸ hl)]
    exact ⟨⟨hprogram, hoptions, .available (he.withMachine _), hsnapshot, hkeypad, hoverruns⟩,
      rfl, rfl, rfl⟩
  | ok size =>
    have hbegun : (s.begun e).Alike (s'.begun e') := by
      refine ⟨hprogram, hoptions, ?_, ?_, hkeypad, rfl⟩
      · simp only [begun, hprogram]
        exact .active (he.withMachine _)
      · simp only [begun, hprogram, hoptions]
    have hrefreshed := hbegun.refresh
    rw [start_of_load hm (hs.of_available hm) hl,
      start_of_load hm' (hs'.of_available hm') (hprogram ▸ hl)]
    refine ⟨hrefreshed.session, rfl, hrefreshed.signals_eq, ?_⟩
    simp only [hprogram, hoptions, hrefreshed.log_eq]

theorem Alike.start (h : s.Alike s') (hs : s.Sound) (hs' : s'.Sound) :
    s.start.Alike s'.start := by
  have hmode := h.mode
  generalize hm : s.mode = mode, hm' : s'.mode = mode' at hmode
  cases hmode with
  | available he =>
    exact start_alike hs hs' hm hm' he.toCallbacksAlike h.program_eq h.options_eq h.keypad_eq
      fun _ _ => ⟨h.snapshot_eq, h.overruns_eq⟩
  | active he =>
    rw [start_of_active hm, start_of_active hm']
    exact h.answer _
  | lost =>
    rw [start_of_lost hm, start_of_lost hm']
    exact h.answer _

/-- **Whatever is done** to alike sessions comes to the same and leaves them alike. -/
theorem Alike.perform (h : s.Alike s') (hs : s.Sound) (hs' : s'.Sound) (operation : Operation) :
    (s.perform operation).Alike (s'.perform operation) := by
  cases operation with
  | keys move => exact Alike.answer (h.moveAll [move]) Answer.done
  | attach attachment => exact Alike.answer (h.attach attachment) Answer.done
  | start => exact (h.start hs hs').map _
  | iterate randomByte meanwhile =>
    have hiterated : ((s.cycle randomByte).andThen fun _ s => (s.moveAll meanwhile).refresh).Alike
        ((s'.cycle randomByte).andThen fun _ s => (s.moveAll meanwhile).refresh) :=
      (h.cycle randomByte).andThen fun h => (h.moveAll meanwhile).refresh
    exact hiterated.map fun _ => Answer.done
  | countOverrun =>
    have hcounted : (if s.isRunning then s.countOverrun else s).Alike
        (if s'.isRunning then s'.countOverrun else s') := by
      rw [h.isRunning_eq]
      split
      · exact ⟨h.program_eq, h.options_eq, h.mode, h.snapshot_eq, h.keypad_eq,
          congrArg (· + 1) h.overruns_eq⟩
      · exact h
    exact hcounted.answer Answer.done
  | stop randomByte =>
    have hstopped : (s.stop randomByte).Alike (s'.stop randomByte) :=
      (h.cycle randomByte).andThen fun h => h.settle
    exact hstopped.map _

/-- What is seen of an operation is what its reply shows. -/
theorem observe_eq_of_alike {operation : Operation}
    (h : (s.perform operation).Alike (s'.perform operation)) :
    s.observe operation = s'.observe operation := by
  simp only [observe, h.result_eq, h.signals_eq, h.log_eq, h.session.isRunning_eq,
    h.session.machine?_eq, h.session.snapshot_eq, h.session.keypad_eq, h.session.overruns_eq,
    h.session.options_eq]

/-- **No history tells alike sessions apart**, nor does it make them differ. -/
theorem Alike.history (h : s.Alike s') (hs : s.Sound) (hs' : s'.Sound)
    (history : List Operation) :
    s.observations history = s'.observations history ∧
      (s.after history).Alike (s'.after history) := by
  induction history generalizing s s' with
  | nil => exact ⟨rfl, h⟩
  | cons operation rest ih =>
    have hreply := h.perform hs hs' operation
    obtain ⟨hrest, hafter⟩ :=
      ih hreply.session (hs.perform operation) (hs'.perform operation)
    rw [observations, observations, observe_eq_of_alike hreply, hrest]
    exact ⟨rfl, hafter⟩

end Operations

end Session

end Chip8
