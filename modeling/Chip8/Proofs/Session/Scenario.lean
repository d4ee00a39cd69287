import Chip8.Proofs.Reachable
import Chip8.Proofs.Session.Effect

/-!
# Scenarios

What a run should come to, told without any session. A `Scenario` holds all that a run depends on:
the program, the interval between refreshes, the callbacks, the user's keypad at every refresh and
the random bytes. From these alone follow the requests that the bare machine gets (`requests`), the
machine after any number of cycles (`machine`, and `ready` once the keys for the next cycle are in)
and the calls of callbacks (`signals`).

A run is at either of two points: it has completed a cycle (`Completed`), or it has the keys for the
next one (`Held`). A refresh leads from the first to the second, a turn of the engine from the
second to the first, unless a callback crashes (`CrashedAt`). Each of the three says where the
machine is, which calls were made and how the callbacks took them.
-/

namespace Chip8

/-- All that a run depends on. -/
structure Scenario where
  program : Bytes
  /-- The number of cycles from one refresh of the keys to the next. -/
  interval : Nat
  /-- The engine with the callbacks as they are when the run begins; its machine plays no part. -/
  engine : Engine
  /-- The user's keypad when the keys are refreshed before a cycle. -/
  handle : Nat → Keypad
  /-- The random byte that is at hand in a cycle. -/
  bytes : Nat → UInt8

namespace Scenario

/-- The keys and the callback for keys before the refresh for cycle `k`: all keys are released at
first, and every refresh calls the callback with what it left at the one before. There is nothing
without a callback, or after it crashed. -/
def listener (w : Scenario) : Nat → Option (Keypad × Callback Keypad Keypad)
  | 0 => w.engine.onKeypad.map fun callback => (Keypad.released, callback)
  | k + 1 =>
    if w.interval ∣ k then
      (w.listener k).bind fun (keys, callback) => callback.call keys
    else
      w.listener k

/-- The keys that a refresh before cycle `k` brings: what the callback answers, or the user's keypad
if there is no callback. -/
def refreshed (w : Scenario) (k : Nat) : Keypad :=
  match w.engine.onKeypad with
  | none => w.handle k
  | some _ => ((w.listener (k + 1)).map Prod.fst).getD Keypad.released

/-! ## The bare machine -/

/-- The refresh before cycle `k` as requests to the machine. -/
def refreshRequests (w : Scenario) (k : Nat) : List Request :=
  if w.interval ∣ k then [.setKeys (w.refreshed k)] else []

/-- The first `c` cycles, each after its refresh, as requests to the machine. -/
def requests (w : Scenario) (c : Nat) : List Request :=
  (List.range c).flatMap fun k => w.refreshRequests k ++ [.cycle (w.bytes k)]

/-- A new machine that has loaded the program and executed `c` cycles. -/
def machine (w : Scenario) (c : Nat) : Machine :=
  Machine.powerOn.machine.performAll (.load w.program :: w.requests c)

/-- The machine before cycle `c`, with the keys for it. -/
def ready (w : Scenario) (c : Nat) : Machine :=
  (w.machine c).performAll (w.refreshRequests c)

/-- What cycle `k` results in. -/
def result (w : Scenario) (k : Nat) : Except Fault Outcome :=
  ((w.ready k).cycle (w.bytes k)).result

/-- The results of the first `c` cycles. -/
def results (w : Scenario) (c : Nat) : List (Except Fault Outcome) :=
  (List.range c).map w.result

/-- Cycle `k` does not fail. -/
def Completes (w : Scenario) (k : Nat) : Prop :=
  ∃ outcome, w.result k = .ok outcome

/-! ## The calls of callbacks -/

/-- The call of the callback for keys before cycle `k`. -/
def refreshSignals (w : Scenario) (k : Nat) : List Signal :=
  match w.listener k with
  | some (keys, _) => if w.interval ∣ k then [.keypad keys] else []
  | none => []

/-- The calls after cycle `k`: of the callback for screens if the cycle touched the screen, and of
the callback for sound if the sound timer ran out. -/
def outcomeSignals (w : Scenario) (k : Nat) : List Signal :=
  match w.result k with
  | .error _ => []
  | .ok outcome =>
    (if outcome.screenChanged && w.engine.onScreen.isSome then
        [.screen (w.machine (k + 1)).screen] else []) ++
      if outcome.soundExpired && w.engine.onSound.isSome then [.sound] else []

/-- The calls in the first `c` cycles, each with its refresh. -/
def signals (w : Scenario) (c : Nat) : List Signal :=
  (List.range c).flatMap fun k => w.refreshSignals k ++ w.outcomeSignals k

/-! ## One cycle more -/

theorem machine_succ (w : Scenario) (c : Nat) :
    w.machine (c + 1) = ((w.ready c).cycle (w.bytes c)).machine := by
  have hrequests : w.requests (c + 1) =
      w.requests c ++ (w.refreshRequests c ++ [.cycle (w.bytes c)]) := by
    unfold requests
    rw [List.range_succ, List.flatMap_append, List.flatMap_singleton]
  rw [machine, hrequests, ← List.cons_append, Machine.performAll_append,
    Machine.performAll_append]
  rfl

theorem signals_succ (w : Scenario) (c : Nat) :
    w.signals (c + 1) = w.signals c ++ (w.refreshSignals c ++ w.outcomeSignals c) := by
  unfold signals
  rw [List.range_succ, List.flatMap_append, List.flatMap_singleton]

/-- The calls before a cycle come before those of every later one. -/
theorem signals_prefix_of_le (w : Scenario) {c d : Nat} (h : c ≤ d) :
    w.signals c ++ w.refreshSignals c <+: w.signals d ++ w.refreshSignals d := by
  induction h with
  | refl => exact List.prefix_rfl
  | @step d _ ih =>
    refine ih.trans ?_
    rw [signals_succ, ← List.append_assoc, List.append_assoc _ (w.outcomeSignals d)]
    exact List.prefix_append _ _

theorem results_succ (w : Scenario) (c : Nat) :
    w.results (c + 1) = w.results c ++ [w.result c] := by
  unfold results
  rw [List.range_succ, List.map_append, List.map_singleton]

theorem listener_of_no_callback {w : Scenario} (h : w.engine.onKeypad = none) (k : Nat) :
    w.listener k = none := by
  induction k with
  | zero => rw [listener, h, Option.map_none]
  | succ k ih =>
    rw [listener, ih]
    split <;> rfl

theorem refreshed_of_no_callback {w : Scenario} (h : w.engine.onKeypad = none) (k : Nat) :
    w.refreshed k = w.handle k := by
  unfold refreshed
  rw [h]

/-! ## Points of a run -/

/-- A run that has completed `c` cycles and not yet refreshed the keys for the next one. -/
structure Completed (w : Scenario) (c : Nat) (e : Engine) (signals : List Signal) : Prop where
  machine_eq : e.machine = w.machine c
  signals_eq : signals = w.signals c
  heard : w.engine.hearAll signals = some (e.withMachine w.engine.machine)
  listener_eq : w.listener c = e.onKeypad.map fun callback => (e.machine.keys, callback)

/-- A run that is held right before cycle `c`, with the keys for it. -/
structure Held (w : Scenario) (c : Nat) (e : Engine) (signals : List Signal) : Prop where
  machine_eq : e.machine = w.ready c
  signals_eq : signals = w.signals c ++ w.refreshSignals c
  heard : w.engine.hearAll signals = some (e.withMachine w.engine.machine)
  listener_eq : w.listener (c + 1) = e.onKeypad.map fun callback => (e.machine.keys, callback)

/-- A run in which a callback crashed after `c` completed cycles: at the refresh for the next one,
or when the outcome of the last one was announced. The calls up to the crash were made. -/
structure CrashedAt (w : Scenario) (c : Nat) (e : Engine) (signals : List Signal) : Prop where
  machine_eq : e.machine = w.machine c
  signals_prefix : signals <+: w.signals c ++ w.refreshSignals c
  crashes : w.engine.CrashesOn signals

section Steps

variable {w : Scenario} {c : Nat} {e : Engine} {signals : List Signal}

theorem kinds_of_heard (h : w.engine.hearAll signals = some (e.withMachine w.engine.machine)) :
    e.kinds = w.engine.kinds := by
  have hk : (e.withMachine w.engine.machine).kinds = w.engine.kinds := Engine.kinds_hearAll h
  exact hk

/-- A run begins with the program loaded and all keys released. -/
theorem completed_zero (w : Scenario) :
    w.Completed 0 (w.engine.withMachine (Session.loadedMachine w.program)) [] where
  machine_eq := rfl
  signals_eq := rfl
  heard := rfl
  listener_eq := by
    have hkeys : (Session.loadedMachine w.program).keys = Keypad.released := by
      unfold Session.loadedMachine Machine.load
      split
      · rfl
      · split <;> rfl
    rw [listener]
    change _ = w.engine.onKeypad.map
      fun callback => ((Session.loadedMachine w.program).keys, callback)
    rw [hkeys]

/-! ## A refresh -/

/-- A refresh that is not due changes nothing. -/
theorem Completed.held (h : w.Completed c e signals) (hd : ¬w.interval ∣ c) :
    w.Held c e signals where
  machine_eq := by
    rw [ready, refreshRequests, if_neg hd]
    exact h.machine_eq
  signals_eq := by
    have hnone : w.refreshSignals c = [] := by
      unfold refreshSignals
      split
      · rw [if_neg hd]
      · rfl
    rw [hnone, List.append_nil]
    exact h.signals_eq
  heard := h.heard
  listener_eq := by
    rw [listener, if_neg hd]
    exact h.listener_eq

/-- A refresh that is due sets the keys of the scenario. -/
theorem ready_of_dvd (w : Scenario) (hd : w.interval ∣ c) :
    w.ready c = (w.machine c).setKeys (w.refreshed c) := by
  rw [ready, refreshRequests, if_pos hd]
  rfl

theorem Completed.onKeypad_eq_none_iff (h : w.Completed c e signals) :
    e.onKeypad = none ↔ w.engine.onKeypad = none := by
  have hk : e.onKeypad.isSome = w.engine.onKeypad.isSome :=
    congrArg (·.2.1) (kinds_of_heard h.heard)
  rw [← Option.isNone_iff_eq_none, ← Option.isNone_iff_eq_none, ← Option.not_isSome,
    ← Option.not_isSome, hk]

/-- **A refresh that is due** brings the keys of the scenario, unless the callback crashes. -/
theorem Completed.refresh (h : w.Completed c e signals) (hd : w.interval ∣ c) :
    if (e.refresh (w.handle c)).crashed then
      w.CrashedAt c (e.refresh (w.handle c)).engine (signals ++ (e.refresh (w.handle c)).signals)
    else
      w.Held c (e.refresh (w.handle c)).engine (signals ++ (e.refresh (w.handle c)).signals) := by
  have hheard := (Engine.reports_refresh (w.handle c) e).continues (m := e.machine) h.heard
  cases hc : e.onKeypad with
  | none =>
    have hw : w.engine.onKeypad = none := h.onKeypad_eq_none_iff.1 hc
    rw [Engine.refresh_of_no_callback hc] at hheard ⊢
    refine ⟨?_, ?_, hheard, ?_⟩
    · rw [ready_of_dvd w hd, refreshed_of_no_callback hw, ← h.machine_eq]
      rfl
    · rw [refreshSignals, listener_of_no_callback hw, h.signals_eq]
      rfl
    · rw [listener_of_no_callback hw]
      exact (congrArg (Option.map _) hc).symm
  | some callback =>
    have hl : w.listener c = some (e.machine.keys, callback) := by
      rw [h.listener_eq, hc, Option.map_some]
    have hsignals : w.refreshSignals c = [.keypad e.machine.keys] := by
      unfold refreshSignals
      rw [hl]
      exact if_pos hd
    cases ha : callback.call e.machine.keys with
    | none =>
      rw [Engine.refresh_of_crash hc ha] at hheard ⊢
      refine ⟨h.machine_eq, ?_, hheard⟩
      simp only [hsignals, h.signals_eq, List.prefix_rfl]
    | some answer =>
      obtain ⟨keys, callback'⟩ := answer
      have hnext : w.listener (c + 1) = some (keys, callback') := by
        rw [listener, if_pos hd, hl, Option.bind_some]
        exact ha
      have hrefreshed : w.refreshed c = keys := by
        unfold refreshed
        cases hw : w.engine.onKeypad with
        | none =>
          rw [h.onKeypad_eq_none_iff.2 hw] at hc
          cases hc
        | some _ => rw [hnext]; rfl
      rw [Engine.refresh_of_answer hc ha] at hheard ⊢
      refine ⟨?_, ?_, hheard, ?_⟩
      · rw [ready_of_dvd w hd, hrefreshed, ← h.machine_eq]
      · rw [hsignals, h.signals_eq]
      · exact hnext

/-! ## A cycle -/

/-- The outcome of a cycle is announced by the calls of the scenario. -/
theorem Held.outcomeSignals_eq (h : w.Held c e signals) {outcome : Outcome}
    (hr : w.result c = .ok outcome) :
    w.outcomeSignals c = (e.withMachine (w.machine (c + 1))).announcements outcome := by
  have hk := kinds_of_heard h.heard
  have hscreen : e.onScreen.isSome = w.engine.onScreen.isSome := congrArg (·.1) hk
  have hsound : e.onSound.isSome = w.engine.onSound.isSome := congrArg (·.2.2) hk
  unfold outcomeSignals Engine.announcements
  rw [hr, ← hscreen, ← hsound]
  rfl

/-- **A cycle that completes** leads to the next machine and is announced by the calls of the
scenario, unless a callback crashes. -/
theorem Held.announce (h : w.Held c e signals) {outcome : Outcome}
    (hr : w.result c = .ok outcome) :
    let called := (e.withMachine (w.machine (c + 1))).announce outcome
    if called.crashed then w.CrashedAt (c + 1) called.engine (signals ++ called.signals)
    else w.Completed (c + 1) called.engine (signals ++ called.signals) := by
  intro called
  have hheard := (Engine.reports_announce outcome (e.withMachine (w.machine (c + 1)))).continues
    h.heard
  have hmachine : called.engine.machine = w.machine (c + 1) := Engine.machine_announce outcome _
  obtain ⟨hbegin, hall⟩ := Engine.signals_announce outcome (e.withMachine (w.machine (c + 1)))
  rw [← h.outcomeSignals_eq hr] at hbegin hall
  cases hc : called.crashed with
  | true =>
    rw [hc, if_pos rfl] at hheard
    refine ⟨hmachine, ?_, hheard⟩
    rw [signals_succ, h.signals_eq, ← List.append_assoc (w.signals c)]
    exact List.prefix_append_of_prefix ((List.prefix_append_right_inj _).2 hbegin)
  | false =>
    rw [hc, if_neg Bool.false_ne_true] at hheard
    refine ⟨hmachine, ?_, hheard, ?_⟩
    · rw [signals_succ, h.signals_eq, ← List.append_assoc (w.signals c)]
      exact congrArg _ (hall hc)
    · have hkeys : called.engine.machine.keys = e.machine.keys := by
        rw [hmachine, machine_succ, Machine.keys_cycle, h.machine_eq]
      rw [hkeys, h.listener_eq, Engine.onKeypad_announce]
      rfl

end Steps

end Scenario

end Chip8
