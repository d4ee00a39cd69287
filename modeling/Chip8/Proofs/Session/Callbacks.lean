import Chip8.Session.Engine

/-!
# How callbacks take their calls

The calls of a run are recorded as signals. `hear` hands one recorded call to the callbacks of an
engine and `hearAll` a list of them, so that a record alone tells whether a callback crashed: the
callbacks of the engine that the run began with either take all calls or crash on the last one
(`CrashesOn`). Refreshing and announcing an outcome record just the calls that the callbacks got
(`reports_refresh`, `reports_announce`). What an outcome is announced by is `announcements`; a crash
cuts it short, and nothing else does (`signals_announce`).
-/

namespace Chip8

/-- The callback, if there is one, after it has taken a call; nothing at all if the call crashes. -/
def Callback.tell {α β : Type} (callback? : Option (Callback α β)) (argument : α) :
    Option (Option (Callback α β)) :=
  match callback? with
  | none => some none
  | some callback => (callback.call argument).map fun (_, callback) => some callback

/-- A callback that takes a call stays attached. -/
theorem Callback.isSome_of_tell {α β : Type} {callback? after : Option (Callback α β)}
    {argument : α} (h : tell callback? argument = some after) :
    after.isSome = callback?.isSome := by
  cases callback? with
  | none =>
    obtain rfl : none = after := Option.some.inj h
    rfl
  | some callback =>
    obtain ⟨_, -, rfl⟩ := Option.map_eq_some_iff.1 h
    rfl

namespace Engine

/-- The engine with another machine in it. -/
def withMachine (e : Engine) (m : Machine) : Engine :=
  { e with machine := m }

/-- The engine after its callbacks have taken a call, or nothing if the call crashes. -/
def hear (e : Engine) : Signal → Option Engine
  | .keypad keys => (Callback.tell e.onKeypad keys).map fun after => { e with onKeypad := after }
  | .screen screen =>
    (Callback.tell e.onScreen screen).map fun after => { e with onScreen := after }
  | .sound => (Callback.tell e.onSound ()).map fun after => { e with onSound := after }

/-- The engine after its callbacks have taken all calls of a list, or nothing if one crashes. -/
def hearAll (e : Engine) : List Signal → Option Engine
  | [] => some e
  | signal :: rest => (e.hear signal).bind fun e => e.hearAll rest

/-- The callbacks take all calls but the last one, and crash on that. -/
def CrashesOn (e : Engine) (signals : List Signal) : Prop :=
  ∃ earlier last e', signals = earlier ++ [last] ∧ e.hearAll earlier = some e' ∧ e'.hear last = none

/-- Which kinds of callbacks are attached: for screens, for keys and for sound. -/
def kinds (e : Engine) : Bool × Bool × Bool :=
  (e.onScreen.isSome, e.onKeypad.isSome, e.onSound.isSome)

/-! ## Taking calls -/

theorem hearAll_append (e : Engine) (earlier later : List Signal) :
    e.hearAll (earlier ++ later) = (e.hearAll earlier).bind fun e => e.hearAll later := by
  induction earlier generalizing e with
  | nil => rfl
  | cons signal rest ih =>
    rw [List.cons_append, hearAll, hearAll]
    cases e.hear signal with
    | none => rfl
    | some e' => exact ih e'

theorem hearAll_singleton (e : Engine) (signal : Signal) : e.hearAll [signal] = e.hear signal := by
  rw [hearAll]
  cases e.hear signal with
  | none => rfl
  | some e' => rfl

/-- Without callbacks, every call is taken. -/
theorem hearAll_ofMachine (m : Machine) (signals : List Signal) :
    (ofMachine m).hearAll signals = some (ofMachine m) := by
  induction signals with
  | nil => rfl
  | cons signal rest ih =>
    have hhear : (ofMachine m).hear signal = some (ofMachine m) := by
      cases signal with
      | _ => rfl
    rw [hearAll, hhear, Option.bind_some, ih]

theorem CrashesOn.hearAll_eq_none {e : Engine} {signals : List Signal} (h : e.CrashesOn signals) :
    e.hearAll signals = none := by
  obtain ⟨earlier, last, e', rfl, hearlier, hlast⟩ := h
  rw [hearAll_append, hearlier, Option.bind_some, hearAll_singleton, hlast]

theorem crashesOn_singleton {e : Engine} {signal : Signal} (h : e.hear signal = none) :
    e.CrashesOn [signal] :=
  ⟨[], signal, e, rfl, rfl, h⟩

/-- A crash on later calls is one on all calls. -/
theorem CrashesOn.append {e e' : Engine} {earlier later : List Signal}
    (he : e.hearAll earlier = some e') (h : e'.CrashesOn later) :
    e.CrashesOn (earlier ++ later) := by
  obtain ⟨between, last, e'', rfl, hbetween, hlast⟩ := h
  refine ⟨earlier ++ between, last, e'', (List.append_assoc ..).symm, ?_, hlast⟩
  rw [hearAll_append, he, Option.bind_some, hbetween]

/-- The machine takes no part in calls. -/
theorem hear_withMachine (e : Engine) (m : Machine) (signal : Signal) :
    (e.withMachine m).hear signal = (e.hear signal).map (·.withMachine m) := by
  cases signal with
  | _ => simp only [hear, withMachine, Option.map_map, Function.comp_def]

theorem hearAll_withMachine (e : Engine) (m : Machine) (signals : List Signal) :
    (e.withMachine m).hearAll signals = (e.hearAll signals).map (·.withMachine m) := by
  induction signals generalizing e with
  | nil => rfl
  | cons signal rest ih =>
    rw [hearAll, hearAll, hear_withMachine]
    cases e.hear signal with
    | none => rfl
    | some e' => exact ih e'

theorem CrashesOn.withMachine {e : Engine} {signals : List Signal} (h : e.CrashesOn signals)
    (m : Machine) : (e.withMachine m).CrashesOn signals := by
  obtain ⟨earlier, last, e', rfl, hearlier, hlast⟩ := h
  refine ⟨earlier, last, e'.withMachine m, rfl, ?_, ?_⟩
  · rw [hearAll_withMachine, hearlier, Option.map_some]
  · rw [hear_withMachine, hlast, Option.map_none]

/-- Callbacks that take their calls stay attached. -/
theorem kinds_hear {e e' : Engine} {signal : Signal} (h : e.hear signal = some e') :
    e'.kinds = e.kinds := by
  cases signal with
  | _ =>
    obtain ⟨after, hafter, rfl⟩ := Option.map_eq_some_iff.1 h
    simp only [kinds, Callback.isSome_of_tell hafter]

theorem kinds_hearAll {e e' : Engine} {signals : List Signal} (h : e.hearAll signals = some e') :
    e'.kinds = e.kinds := by
  induction signals generalizing e with
  | nil =>
    obtain rfl : e = e' := Option.some.inj h
    rfl
  | cons signal rest ih =>
    obtain ⟨between, hbetween, hrest⟩ := Option.bind_eq_some_iff.1 h
    rw [ih hrest, kinds_hear hbetween]

/-- Without callbacks there is none to crash. -/
theorem not_crashesOn_of_no_callbacks {e : Engine} (h : e.kinds = (false, false, false))
    (signals : List Signal) : ¬e.CrashesOn signals := by
  rintro ⟨earlier, last, e', -, hearlier, hlast⟩
  have hkinds : e'.kinds = (false, false, false) := (kinds_hearAll hearlier).trans h
  simp only [kinds, Prod.mk.injEq, Option.isSome_eq_false_iff, Option.isNone_iff_eq_none] at hkinds
  obtain ⟨hscreen, hkeypad, hsound⟩ := hkinds
  cases last with
  | _ => simp [hear, hscreen, hkeypad, hsound, Callback.tell] at hlast

theorem machine_hear {e e' : Engine} {signal : Signal} (h : e.hear signal = some e') :
    e'.machine = e.machine := by
  cases signal with
  | _ =>
    obtain ⟨after, -, rfl⟩ := Option.map_eq_some_iff.1 h
    rfl

/-! ## Calls on record -/

/-- The calls on record are the ones that the callbacks of `e` got, the last of which crashed if the
record says so. -/
def Called.Reports (c : Called) (e : Engine) : Prop :=
  if c.crashed then e.CrashesOn c.signals
  else e.hearAll c.signals = some (c.engine.withMachine e.machine)

/-- Calls on record continue earlier ones, whichever machines were in the engines meanwhile. -/
theorem Called.Reports.continues {c : Called} {e₀ e : Engine} {m m₀ : Machine}
    {earlier : List Signal} (hc : c.Reports (e.withMachine m))
    (he : e₀.hearAll earlier = some (e.withMachine m₀)) :
    if c.crashed then e₀.CrashesOn (earlier ++ c.signals)
    else e₀.hearAll (earlier ++ c.signals) = some (c.engine.withMachine m₀) := by
  unfold Reports at hc
  cases hcrashed : c.crashed with
  | true =>
    rw [hcrashed, if_pos rfl] at hc
    exact (hc.withMachine m₀).append he
  | false =>
    rw [hcrashed, if_neg Bool.false_ne_true] at hc
    rw [if_neg Bool.false_ne_true, hearAll_append, he, Option.bind_some]
    change ((e.withMachine m).withMachine m₀).hearAll c.signals = _
    rw [hearAll_withMachine, hc]
    rfl

/-- Hands a call to the callbacks, if it is wanted, and puts it on record. -/
def record (wanted : Bool) (signal : Signal) (e : Engine) : Called :=
  if wanted then
    match e.hear signal with
    | none => ⟨e, [signal], true⟩
    | some e' => ⟨e', [signal], false⟩
  else
    e.quiet

theorem reports_record (wanted : Bool) (signal : Signal) (e : Engine) :
    (e.record wanted signal).Reports e := by
  cases wanted with
  | false => rfl
  | true =>
    simp only [record, if_true]
    cases h : e.hear signal with
    | none => exact crashesOn_singleton h
    | some e' =>
      change e.hearAll [signal] = some (e'.withMachine e.machine)
      rw [hearAll_singleton, h, ← machine_hear h]
      rfl

theorem machine_record (wanted : Bool) (signal : Signal) (e : Engine) :
    (e.record wanted signal).engine.machine = e.machine := by
  cases wanted with
  | false => rfl
  | true =>
    simp only [record, if_true]
    cases h : e.hear signal with
    | none => rfl
    | some e' => exact machine_hear h

theorem signals_record (wanted : Bool) (signal : Signal) (e : Engine) :
    (e.record wanted signal).signals = if wanted then [signal] else [] := by
  cases wanted with
  | false => rfl
  | true =>
    simp only [record, if_true]
    cases e.hear signal with
    | none => rfl
    | some e' => rfl

theorem callScreen_eq (e : Engine) :
    e.callScreen = e.record e.onScreen.isSome (.screen e.machine.screen) := by
  unfold callScreen record
  cases hc : e.onScreen with
  | none => rfl
  | some callback =>
    simp only [hear, hc, Callback.tell, Option.isSome_some, if_true]
    cases callback.call e.machine.screen with
    | none => rfl
    | some answer => rfl

theorem callSound_eq (e : Engine) : e.callSound = e.record e.onSound.isSome .sound := by
  unfold callSound record
  cases hc : e.onSound with
  | none => rfl
  | some callback =>
    simp only [hear, hc, Callback.tell, Option.isSome_some, if_true]
    cases callback.call () with
    | none => rfl
    | some answer => rfl

/-! ## Announcing an outcome -/

/-- The calls by which the outcome of a cycle is announced. -/
def announcements (e : Engine) (outcome : Outcome) : List Signal :=
  (if outcome.screenChanged && e.onScreen.isSome then [.screen e.machine.screen] else []) ++
    if outcome.soundExpired && e.onSound.isSome then [.sound] else []

theorem announce_eq (outcome : Outcome) (e : Engine) :
    e.announce outcome =
      (e.record (outcome.screenChanged && e.onScreen.isSome) (.screen e.machine.screen)).andThen
        fun e => e.record (outcome.soundExpired && e.onSound.isSome) .sound := by
  unfold announce
  simp only [callScreen_eq, callSound_eq]
  cases outcome.screenChanged <;> cases outcome.soundExpired <;> rfl

theorem machine_andThen {c : Called} {f : Engine → Called}
    (hf : (f c.engine).engine.machine = c.engine.machine) :
    (c.andThen f).engine.machine = c.engine.machine := by
  unfold Called.andThen
  cases c.crashed with
  | true => rfl
  | false => exact hf

theorem Called.Reports.andThen {c : Called} {e : Engine} {f : Engine → Called} (hc : c.Reports e)
    (hm : c.engine.machine = e.machine) (hf : (f c.engine).Reports c.engine) :
    (c.andThen f).Reports e := by
  obtain ⟨between, signals, crashed⟩ := c
  cases crashed with
  | true => exact hc
  | false =>
    have hheard : e.hearAll signals = some between := by
      rw [show e.hearAll signals = some (between.withMachine e.machine) from hc, ← hm]
      rfl
    change (f between).Reports between at hf
    unfold Reports at hf
    simp only [Reports, Called.andThen, Bool.false_eq_true, if_false]
    cases hcrashed : (f between).crashed with
    | true =>
      rw [hcrashed, if_pos rfl] at hf
      exact hf.append hheard
    | false =>
      rw [hcrashed, if_neg Bool.false_ne_true] at hf
      rw [if_neg Bool.false_ne_true, hearAll_append, hheard, Option.bind_some, hf, ← hm]

/-- Announcing leaves the machine alone. -/
theorem machine_announce (outcome : Outcome) (e : Engine) :
    (e.announce outcome).engine.machine = e.machine := by
  rw [announce_eq]
  exact (machine_andThen (machine_record _ _ _)).trans (machine_record _ _ e)

theorem onKeypad_record (wanted : Bool) {signal : Signal} (h : ∀ keys, signal ≠ .keypad keys)
    (e : Engine) : (e.record wanted signal).engine.onKeypad = e.onKeypad := by
  cases wanted with
  | false => rfl
  | true =>
    simp only [record, if_true]
    cases hh : e.hear signal with
    | none => rfl
    | some e' =>
      cases signal with
      | keypad keys => exact absurd rfl (h keys)
      | screen screen | sound =>
        obtain ⟨after, -, rfl⟩ := Option.map_eq_some_iff.1 hh
        rfl

/-- Announcing does not call the callback for keys. -/
theorem onKeypad_announce (outcome : Outcome) (e : Engine) :
    (e.announce outcome).engine.onKeypad = e.onKeypad := by
  have hscreen : (e.record (outcome.screenChanged && e.onScreen.isSome)
      (.screen e.machine.screen)).engine.onKeypad = e.onKeypad :=
    onKeypad_record _ (fun _ => Signal.noConfusion) e
  rw [announce_eq, Called.andThen]
  split
  · exact hscreen
  · exact (onKeypad_record _ (fun _ => Signal.noConfusion) _).trans hscreen

theorem reports_announce (outcome : Outcome) (e : Engine) : (e.announce outcome).Reports e := by
  rw [announce_eq]
  exact (reports_record _ _ e).andThen (machine_record _ _ e) (reports_record _ _ _)

/-- Engines that report no crash have the kinds of callbacks that they had before. -/
theorem Called.Reports.kinds_eq {c : Called} {e : Engine} (hc : c.Reports e)
    (hcrashed : c.crashed = false) : c.engine.kinds = e.kinds := by
  unfold Reports at hc
  rw [hcrashed, if_neg Bool.false_ne_true] at hc
  have hkinds : (c.engine.withMachine e.machine).kinds = e.kinds := kinds_hearAll hc
  exact hkinds

/-- An outcome is announced by its announcements, unless a callback crashes on the way. -/
theorem signals_announce (outcome : Outcome) (e : Engine) :
    (e.announce outcome).signals <+: e.announcements outcome ∧
      ((e.announce outcome).crashed = false →
        (e.announce outcome).signals = e.announcements outcome) := by
  have hr := reports_record (outcome.screenChanged && e.onScreen.isSome)
    (.screen e.machine.screen) e
  have hs := signals_record (outcome.screenChanged && e.onScreen.isSome)
    (.screen e.machine.screen) e
  rw [announce_eq, Called.andThen, announcements, ← hs]
  generalize e.record _ _ = c at hr
  cases hc : c.crashed with
  | true =>
    refine ⟨List.prefix_append _ _, fun h => ?_⟩
    rw [if_pos rfl, hc] at h
    cases h
  | false =>
    have hsound : c.engine.onSound.isSome = e.onSound.isSome :=
      congrArg (·.2.2) (hr.kinds_eq hc)
    simp only [Bool.false_eq_true, if_false, signals_record, hsound, List.prefix_rfl, true_and,
      implies_true]

/-! ## Refreshing the keys -/

theorem refresh_of_no_callback {e : Engine} (h : e.onKeypad = none) (handle : Keypad) :
    e.refresh handle = (e.withMachine (e.machine.setKeys handle)).quiet := by
  obtain ⟨m, onScreen, onKeypad, onSound⟩ := e
  cases h
  rfl

theorem refresh_of_answer {e : Engine} {callback callback' : Callback Keypad Keypad}
    {refreshed : Keypad} (h : e.onKeypad = some callback)
    (ha : callback.call e.machine.keys = some (refreshed, callback')) (handle : Keypad) :
    e.refresh handle =
      ⟨{ e with machine := e.machine.setKeys refreshed, onKeypad := some callback' },
        [.keypad e.machine.keys], false⟩ := by
  simp only [refresh, h, ha]

theorem refresh_of_crash {e : Engine} {callback : Callback Keypad Keypad}
    (h : e.onKeypad = some callback) (ha : callback.call e.machine.keys = none)
    (handle : Keypad) : e.refresh handle = ⟨e, [.keypad e.machine.keys], true⟩ := by
  simp only [refresh, h, ha]

theorem reports_refresh (handle : Keypad) (e : Engine) : (e.refresh handle).Reports e := by
  cases hc : e.onKeypad with
  | none =>
    rw [refresh_of_no_callback hc]
    rfl
  | some callback =>
    have hhear : e.hear (.keypad e.machine.keys) =
        (callback.call e.machine.keys).map fun (_, after) => { e with onKeypad := some after } := by
      simp only [hear, hc, Callback.tell, Option.map_map]
      rfl
    cases ha : callback.call e.machine.keys with
    | none =>
      rw [refresh_of_crash hc ha]
      refine crashesOn_singleton ?_
      rw [hhear, ha]
      rfl
    | some answer =>
      rw [refresh_of_answer hc ha]
      change e.hearAll [.keypad e.machine.keys] = _
      rw [hearAll_singleton, hhear, ha]
      rfl

end Engine

end Chip8
