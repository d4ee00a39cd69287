import Chip8.Proofs.Session.Invariant
import Chip8.Proofs.Session.Scenario

/-!
# The course of a run

A session that is started and then operated on without being stopped follows a scenario
(`Follows`): the one with the keypads that its operations lead to and the random bytes that they
bring (`scenario`). The run is going as long as every cycle completes and every call is taken; it
stays where it is once a cycle faulted or a callback crashed (`Scenario.Course`).

Every operation keeps to the scenario (`Follows.perform`), so a list of them does (`Follows.after`),
and so does the stop in the end (`Follows.stop`).
-/

namespace Chip8

/-- What became of a run in which `n` cycles were due: the run itself, the calls of callbacks in it
and what its cycles resulted in. If it is going, `point` says where it is. -/
inductive Scenario.Course (w : Scenario) (point : Nat → Engine → List Signal → Prop) (n : Nat) :
    Run → List Signal → List (Except Fault Outcome) → Prop
  | going {e : Engine} {signals : List Signal} (completes : ∀ k < n, w.Completes k)
      (here : point n e signals) : Course w point n ⟨e, n, none⟩ signals (w.results n)
  | faulted {c : Nat} {e : Engine} {signals : List Signal} {fault : Fault} (due : c < n)
      (completes : ∀ k < c, w.Completes k) (held : w.Held c e signals)
      (fails : w.result c = .error fault) :
      Course w point n ⟨e, c, some (.fault fault)⟩ signals (w.results (c + 1))
  | crashed {c : Nat} {e : Engine} {signals : List Signal} (due : c ≤ n)
      (completes : ∀ k < c, w.Completes k) (here : w.CrashedAt c e signals) :
      Course w point n ⟨e, c, some .crash⟩ signals (w.results c)

section Course

variable {w : Scenario} {point : Nat → Engine → List Signal → Prop} {n : Nat}

/-- A run goes on if its callbacks have taken their calls, and has crashed if they have not. -/
theorem Scenario.Course.of_called {called : Engine.Called} {signals : List Signal}
    (completes : ∀ k < n, w.Completes k)
    (here : if called.crashed then w.CrashedAt n called.engine signals
      else point n called.engine signals) :
    w.Course point n ⟨called.engine, n, if called.crashed then some .crash else none⟩ signals
      (w.results n) := by
  cases hc : called.crashed with
  | true =>
    rw [hc, if_pos rfl] at here
    exact .crashed (Nat.le_refl n) completes here
  | false =>
    rw [hc, if_neg Bool.false_ne_true] at here
    exact .going completes here

/-- A run in which the callbacks take all calls before the first fault is over with that fault. -/
theorem Scenario.Course.of_fails {run : Run} {signals : List Signal}
    {results : List (Except Fault Outcome)} (h : w.Course point n run signals results) {c : Nat}
    {fault : Fault} (hdue : c < n) (hcompletes : ∀ k < c, w.Completes k)
    (hfails : w.result c = .error fault)
    (hheard : (w.engine.hearAll (w.signals c ++ w.refreshSignals c)).isSome) :
    run.ending = some (.fault fault) ∧ run.cycles = c ∧
      signals = w.signals c ++ w.refreshSignals c := by
  have hfirst : ∀ c', (∀ k < c', w.Completes k) → c' ≤ c := by
    refine fun c' hc' => Nat.le_of_not_lt fun hlt => ?_
    obtain ⟨outcome, ho⟩ := hc' c hlt
    rw [hfails] at ho
    cases ho
  cases h with
  | going completes here => exact absurd hdue (Nat.not_lt.2 (hfirst n completes))
  | @faulted c' e _ fault' due completes held fails =>
    have hc : c' = c := by
      refine Nat.le_antisymm (hfirst c' completes) (Nat.le_of_not_lt fun hlt => ?_)
      obtain ⟨outcome, ho⟩ := hcompletes c' hlt
      rw [fails] at ho
      cases ho
    subst hc
    rw [hfails, Except.error.injEq] at fails
    exact ⟨by rw [fails], rfl, held.signals_eq⟩
  | @crashed c' e _ due completes here =>
    obtain ⟨later, hlater⟩ := here.signals_prefix.trans
      (w.signals_prefix_of_le (hfirst c' completes))
    rw [← hlater, Engine.hearAll_append, here.crashes.hearAll_eq_none] at hheard
    cases hheard

section Completed

variable {run : Run} {signals : List Signal} {results : List (Except Fault Outcome)}

/-- The callbacks have taken the calls of a run that did not crash. -/
theorem Scenario.Course.heard (h : w.Course w.Completed n run signals results)
    (hending : run.ending ≠ some .crash) :
    w.engine.hearAll signals = some (run.engine.withMachine w.engine.machine) := by
  cases h with
  | going completes here => exact here.heard
  | faulted due completes held fails => exact held.heard
  | crashed due completes here => exact absurd rfl hending

/-- **A run crashes** if and only if one of its callbacks does. -/
theorem Scenario.Course.hearAll_eq_none_iff (h : w.Course w.Completed n run signals results) :
    w.engine.hearAll signals = none ↔ run.ending = some .crash := by
  constructor
  · intro hnone
    refine Decidable.byContradiction fun hending => ?_
    rw [h.heard hending] at hnone
    cases hnone
  · intro hending
    cases h with
    | going | faulted => cases hending
    | crashed due completes here => exact here.crashes.hearAll_eq_none

theorem Scenario.error_notMem_results {c : Nat} {fault : Fault}
    (completes : ∀ k < c, w.Completes k) : .error fault ∉ w.results c := by
  intro hmem
  obtain ⟨k, hk, hfails⟩ := List.mem_map.1 hmem
  obtain ⟨outcome, ho⟩ := completes k (List.mem_range.1 hk)
  rw [hfails] at ho
  cases ho

/-- **A run ends in a fault** if and only if one of its cycles results in that. -/
theorem Scenario.Course.error_mem_iff (h : w.Course w.Completed n run signals results)
    {fault : Fault} : .error fault ∈ results ↔ run.ending = some (.fault fault) := by
  cases h with
  | going completes here =>
    refine iff_of_false (error_notMem_results completes) fun h => ?_
    cases h
  | faulted due completes held fails =>
    rw [results_succ, List.mem_append, List.mem_singleton, fails,
      or_iff_right (error_notMem_results completes)]
    simp only [Except.error.injEq, Option.some.injEq, Engine.Ending.fault.injEq]
    exact eq_comm
  | crashed due completes here =>
    refine iff_of_false (error_notMem_results completes) fun h => ?_
    cases h

/-- A run that has not ended counts its cycles. -/
theorem Scenario.Course.length_eq (h : w.Course w.Completed n run signals results)
    (hending : run.ending = none) : results.length = run.cycles := by
  cases h with
  | going completes here => rw [results, List.length_map, List.length_range]
  | faulted | crashed => cases hending

end Completed

end Course

namespace Session

/-! ## What operations bring to a run -/

/-- The random byte that an operation brings. -/
def Operation.byte? : Operation → Option UInt8
  | .iterate randomByte _ | .stop randomByte => some randomByte
  | _ => none

def Operation.isStop : Operation → Bool
  | .stop _ => true
  | _ => false

/-- The number of iterations that an operation asks for. -/
def Operation.iterations : Operation → Nat
  | .iterate _ _ => 1
  | _ => 0

/-- The number of iterations that a list of operations asks for. -/
def iterations : List Operation → Nat
  | [] => 0
  | operation :: rest => operation.iterations + iterations rest

/-- The random byte that the operations bring for cycle `k`. -/
def byteAt (operations : List Operation) (k : Nat) : UInt8 :=
  (operations.filterMap Operation.byte?).getD k 0

/-- The keypad that the operations lead to by refresh `k`. Refresh zero comes before all of them,
every other one at the end of an iteration. -/
def handleAt : Keypad → List Operation → Nat → Keypad
  | pad, _, 0 => pad
  | pad, [], _ + 1 => pad
  | pad, .keys move :: rest, k + 1 => handleAt (pad.move move) rest (k + 1)
  | pad, .iterate _ meanwhile :: rest, k + 1 => handleAt (pad.moveAll meanwhile) rest k
  | pad, _ :: rest, k + 1 => handleAt pad rest (k + 1)

/-- What a run with the callbacks of `e` should come to if it is followed by `operations`. -/
def scenario (s : Session) (e : Engine) (operations : List Operation) : Scenario where
  program := s.program
  interval := s.options.refreshInterval
  engine := e
  handle := handleAt s.keypad operations
  bytes := byteAt operations

theorem byteAt_succ {operation : Operation} {randomByte : UInt8}
    (h : operation.byte? = some randomByte) {rest : List Operation} (k : Nat) :
    byteAt (operation :: rest) (k + 1) = byteAt rest k := by
  rw [byteAt, List.filterMap_cons_some h, List.getD_cons_succ]
  rfl

/-- What the cycle that is held results in, if there is one. -/
def attempt (s : Session) (randomByte : UInt8) : List (Except Fault Outcome) :=
  match s.mode with
  | .active ⟨e, _, none⟩ => [(e.machine.cycle randomByte).result]
  | _ => []

/-- What the cycles result in that the operations execute. -/
def cycleResults (s : Session) : List Operation → List (Except Fault Outcome)
  | [] => []
  | operation :: rest =>
    operation.byte?.elim [] s.attempt ++ (s.perform operation).session.cycleResults rest

theorem attempt_of_holds {s : Session} {e : Engine} {cycles : Nat} (h : s.Holds e cycles)
    (randomByte : UInt8) : s.attempt randomByte = [(e.machine.cycle randomByte).result] := by
  unfold Holds at h
  simp only [attempt, h]

theorem attempt_of_not_running {s : Session} (h : s.isRunning = false) (randomByte : UInt8) :
    s.attempt randomByte = [] := by
  unfold attempt
  split
  · rename_i e cycles hm
    rw [isRunning_eq_true_iff.2 ⟨e, cycles, hm⟩] at h
    cases h
  · rfl

/-! ## Following a scenario -/

/-- The session has a run, and that takes the course of the scenario. -/
def Follows (s : Session) (w : Scenario) (point : Nat → Engine → List Signal → Prop) (n : Nat)
    (signals : List Signal) (results : List (Except Fault Outcome)) : Prop :=
  ∃ run, s.mode = .active run ∧ w.Course point n run signals results

/-- From refresh `n + 1` and from cycle `n` on, the scenario has what the operations bring. -/
structure Expects (s : Session) (w : Scenario) (n : Nat) (operations : List Operation) : Prop where
  interval_eq : s.options.refreshInterval = w.interval
  handle_eq : ∀ k, w.handle (n + 1 + k) = handleAt s.keypad operations (k + 1)
  bytes_eq : ∀ k, w.bytes (n + k) = byteAt operations k

section Steps

variable {s : Session} {w : Scenario} {point : Nat → Engine → List Signal → Prop} {n : Nat}
  {signals : List Signal} {results : List (Except Fault Outcome)} {rest : List Operation}
  {randomByte : UInt8}

theorem Follows.congr {s' : Session} (h : s.Follows w point n signals results)
    (hm : s'.mode = s.mode) : s'.Follows w point n signals results := by
  obtain ⟨run, hrun, hcourse⟩ := h
  exact ⟨run, hm.trans hrun, hcourse⟩

/-- A run that has not ended is held before the cycle that is due. -/
theorem Follows.holds (h : s.Follows w point n signals results) (hr : s.isRunning = true) :
    ∃ e, s.Holds e n ∧ point n e signals := by
  obtain ⟨run, hm, hcourse⟩ := h
  cases hcourse with
  | going completes here => exact ⟨_, hm, here⟩
  | faulted | crashed =>
    rw [isRunning_of_ending hm] at hr
    cases hr

/-- A run without callbacks goes on for as long as its cycles complete. -/
theorem Follows.isRunning (h : s.Follows w point n signals results)
    (hkinds : w.engine.kinds = (false, false, false)) (hcompletes : ∀ k < n, w.Completes k) :
    s.isRunning = true := by
  obtain ⟨run, hm, hcourse⟩ := h
  cases hcourse with
  | going completes here => exact isRunning_eq_true_iff.2 ⟨_, _, hm⟩
  | faulted due completes held fails =>
    obtain ⟨outcome, ho⟩ := hcompletes _ due
    rw [fails] at ho
    cases ho
  | crashed due completes here =>
    exact absurd here.crashes (Engine.not_crashesOn_of_no_callbacks hkinds _)

/-- **The cycle that is held** takes the run to the end of that cycle. -/
theorem Follows.cycle (h : s.Follows w w.Held n signals results) (hb : w.bytes n = randomByte) :
    (s.cycle randomByte).session.Follows w w.Completed (n + 1)
      (signals ++ (s.cycle randomByte).signals) (results ++ s.attempt randomByte) := by
  obtain ⟨run, hm, hcourse⟩ := h
  cases hcourse with
  | @going e _ completes held =>
    have hresult : (e.machine.cycle randomByte).result = w.result n := by
      rw [Scenario.result, hb, held.machine_eq]
    have hmachine : (e.machine.cycle randomByte).machine = w.machine (n + 1) := by
      rw [Scenario.machine_succ, hb, held.machine_eq]
    rw [cycle_of_holds hm, attempt_of_holds hm, hresult, ← Scenario.results_succ]
    cases hr : w.result n with
    | error fault =>
      rw [Engine.turn_of_fault (hresult.trans hr), List.append_nil]
      exact ⟨_, rfl, .faulted (Nat.lt_succ_self n) completes held hr⟩
    | ok outcome =>
      have hcompletes : ∀ k < n + 1, w.Completes k :=
        Nat.forall_lt_succ_right.2 ⟨completes, outcome, hr⟩
      have hannounce := held.announce hr
      rw [Engine.turn_of_outcome (hresult.trans hr)]
      simp only [hmachine] at hannounce ⊢
      exact ⟨_, rfl, .of_called hcompletes hannounce⟩
  | faulted due completes held fails =>
    have hr := isRunning_of_ending hm
    rw [cycle_of_not_running hr, attempt_of_not_running hr, answer, List.append_nil,
      List.append_nil]
    exact ⟨_, hm, .faulted (Nat.lt_succ_of_lt due) completes held fails⟩
  | crashed due completes here =>
    have hr := isRunning_of_ending hm
    rw [cycle_of_not_running hr, attempt_of_not_running hr, answer, List.append_nil,
      List.append_nil]
    exact ⟨_, hm, .crashed (Nat.le_succ_of_le due) completes here⟩

/-- **A refresh** takes the run to the next cycle, whether it is due or not. -/
theorem Follows.refresh (h : s.Follows w w.Completed n signals results)
    (hi : s.options.refreshInterval = w.interval) (hk : s.keypad = w.handle n) :
    s.refresh.session.Follows w w.Held n (signals ++ s.refresh.signals) results := by
  obtain ⟨run, hm, hcourse⟩ := h
  cases hcourse with
  | @going e _ completes here =>
    cases hd : s.options.refreshDue n with
    | false =>
      have hdvd : ¬w.interval ∣ n := by
        rw [Options.refreshDue, hi, beq_eq_false_iff_ne] at hd
        exact fun h => hd (Nat.mod_eq_zero_of_dvd h)
      rw [refresh_of_not_due hm hd, answer, List.append_nil]
      exact ⟨_, hm, .going completes (here.held hdvd)⟩
    | true =>
      have hdvd : w.interval ∣ n := by
        rw [Options.refreshDue, hi, beq_iff_eq] at hd
        exact Nat.dvd_of_mod_eq_zero hd
      rw [refresh_of_due hm hd, hk]
      exact ⟨_, rfl, .of_called completes (here.refresh hdvd)⟩
  | faulted due completes held fails =>
    rw [refresh_of_not_running (isRunning_of_ending hm), answer, List.append_nil]
    exact ⟨_, hm, .faulted due completes held fails⟩
  | crashed due completes here =>
    rw [refresh_of_not_running (isRunning_of_ending hm), answer, List.append_nil]
    exact ⟨_, hm, .crashed due completes here⟩

/-! ## Operation by operation -/

/-- The random byte of the next cycle comes with the operation that executes it. -/
theorem Expects.byte_eq {operation : Operation} (h : s.Expects w n (operation :: rest))
    (hb : operation.byte? = some randomByte) : w.bytes n = randomByte := by
  rw [← Nat.add_zero n, h.bytes_eq 0, byteAt, List.filterMap_cons_some hb]
  rfl

/-- While a run is present, operations without a cycle do no more than to move keys. -/
theorem perform_of_active {run : Run} (hm : s.mode = .active run) {operation : Operation}
    (hb : operation.byte? = none) (rest : List Operation) :
    (s.perform operation).session.mode = s.mode ∧ (s.perform operation).signals = [] ∧
      ∀ k, handleAt s.keypad (operation :: rest) (k + 1) =
        handleAt (s.perform operation).session.keypad rest (k + 1) := by
  cases operation with
  | keys move =>
    cases move with
    | _ => exact ⟨rfl, rfl, fun _ => rfl⟩
  | attach attachment =>
    have hattach : s.attach attachment = s :=
      attach_of_not_available (by rw [hm]; exact fun _ => Mode.noConfusion) attachment
    exact ⟨congrArg mode hattach, rfl, fun k =>
      congrArg (handleAt · rest (k + 1)) (congrArg keypad hattach).symm⟩
  | start =>
    simp only [Session.perform, start_of_active hm, Reply.map, answer, handleAt, implies_true,
      and_self]
  | countOverrun =>
    refine ⟨?_, rfl, fun k => ?_⟩
    · change (if s.isRunning then s.countOverrun else s).mode = s.mode
      split <;> rfl
    · change _ = handleAt (if s.isRunning then s.countOverrun else s).keypad rest (k + 1)
      split <;> rfl
  | iterate randomByte meanwhile | stop randomByte => cases hb

theorem Follows.perform_idle (h : s.Follows w point n signals results) {operation : Operation}
    (he : s.Expects w n (operation :: rest)) (hb : operation.byte? = none) :
    (s.perform operation).session.Follows w point n (signals ++ (s.perform operation).signals)
        results ∧
      (s.perform operation).session.Expects w n rest := by
  obtain ⟨run, hm, -⟩ := id h
  obtain ⟨hmode, hsignals, hhandle⟩ := perform_of_active hm hb rest
  rw [hsignals, List.append_nil]
  refine ⟨h.congr hmode, ?_, fun k => (he.handle_eq k).trans (hhandle k), fun k => ?_⟩
  · rw [(s.perform_frame operation).2]
    exact he.interval_eq
  · rw [he.bytes_eq k, byteAt, byteAt, List.filterMap_cons_none hb]

theorem Follows.perform_iterate (h : s.Follows w w.Held n signals results)
    {meanwhile : List KeyMove} (he : s.Expects w n (.iterate randomByte meanwhile :: rest)) :
    (s.perform (.iterate randomByte meanwhile)).session.Follows w w.Held (n + 1)
        (signals ++ (s.perform (.iterate randomByte meanwhile)).signals)
        (results ++ s.attempt randomByte) ∧
      (s.perform (.iterate randomByte meanwhile)).session.Expects w (n + 1) rest := by
  obtain ⟨mode, snapshot, hcycle⟩ := s.cycle_frame randomByte
  have hmoved : (s.cycle randomByte).session.moveAll meanwhile =
      ⟨s.program, s.options, mode, snapshot, s.keypad.moveAll meanwhile, s.overruns⟩ := by
    rw [moveAll_eq, hcycle]
  have hfollows : ((s.cycle randomByte).session.moveAll meanwhile).Follows w w.Completed (n + 1)
      (signals ++ (s.cycle randomByte).signals) (results ++ s.attempt randomByte) :=
    (h.cycle (he.byte_eq rfl)).congr (by rw [moveAll_eq])
  have hkeypad : s.keypad.moveAll meanwhile = w.handle (n + 1) := by
    have h0 := he.handle_eq 0
    rw [handleAt] at h0
    rw [h0]
    cases rest with
    | _ => rfl
  constructor
  · have hrefreshed := hfollows.refresh (by rw [hmoved]; exact he.interval_eq)
      (by rw [hmoved]; exact hkeypad)
    rw [List.append_assoc] at hrefreshed
    exact hrefreshed
  · obtain ⟨mode', hrefresh⟩ := ((s.cycle randomByte).session.moveAll meanwhile).refresh_frame
    change ((s.cycle randomByte).session.moveAll meanwhile).refresh.session.Expects w (n + 1) rest
    rw [hrefresh, hmoved]
    refine ⟨he.interval_eq, fun k => ?_, fun k => ?_⟩
    · rw [Nat.add_assoc (n + 1), Nat.add_comm 1 k]
      exact he.handle_eq (k + 1)
    · rw [Nat.add_assoc, Nat.add_comm 1 k, he.bytes_eq (k + 1)]
      exact byteAt_succ rfl k

/-- **Every operation but a stop** keeps to the scenario. -/
theorem Follows.perform (h : s.Follows w w.Held n signals results) {operation : Operation}
    (he : s.Expects w n (operation :: rest)) (hstop : operation.isStop = false) :
    (s.perform operation).session.Follows w w.Held (n + operation.iterations)
        (signals ++ (s.perform operation).signals)
        (results ++ operation.byte?.elim [] s.attempt) ∧
      (s.perform operation).session.Expects w (n + operation.iterations) rest := by
  cases operation with
  | iterate randomByte meanwhile => exact h.perform_iterate he
  | stop randomByte => cases hstop
  | keys | attach | start | countOverrun =>
    simpa only [Operation.byte?, Operation.iterations, Option.elim_none, List.append_nil,
      Nat.add_zero] using h.perform_idle he rfl

/-- **A run follows its scenario** through any operations that do not stop it. -/
theorem Follows.after {during : List Operation} (h : s.Follows w w.Held n signals results)
    (he : s.Expects w n (during ++ rest)) (hstop : ∀ operation ∈ during, operation.isStop = false) :
    (s.after during).Follows w w.Held (n + iterations during) (signals ++ s.signals during)
        (results ++ s.cycleResults during) ∧
      (s.after during).Expects w (n + iterations during) rest := by
  induction during generalizing s n signals results with
  | nil =>
    simp only [iterations, Nat.add_zero, Session.signals, observations, List.flatMap_nil,
      cycleResults, List.append_nil]
    exact ⟨h, he⟩
  | cons operation during ih =>
    rw [List.forall_mem_cons] at hstop
    obtain ⟨hfollows, hexpects⟩ := h.perform he hstop.1
    have hrest := ih hfollows hexpects hstop.2
    rw [List.append_assoc, List.append_assoc, Nat.add_assoc] at hrest
    exact hrest

/-- **A stop** executes the cycle that is held and settles what became of the run. -/
theorem Follows.stop (h : s.Follows w w.Held n signals results)
    (he : s.Expects w n (.stop randomByte :: rest)) :
    ∃ run,
      (s.cycle randomByte).session.mode = .active run ∧
      w.Course w.Completed (n + 1) run (signals ++ (s.stop randomByte).signals)
        (results ++ s.attempt randomByte) ∧
      (s.stop randomByte).result = verdict run s.overruns ∧
      (s.stop randomByte).session.mode = modeAfter run := by
  obtain ⟨run, hm, hcourse⟩ := h.cycle (he.byte_eq rfl)
  obtain ⟨mode, snapshot, hcycle⟩ := s.cycle_frame randomByte
  obtain ⟨hsession, hresult, hsignals⟩ := settle_of_active hm
  have hstopped : (s.stop randomByte).signals = (s.cycle randomByte).signals := by
    change (s.cycle randomByte).signals ++ (s.cycle randomByte).session.settle.signals = _
    rw [hsignals, List.append_nil]
  refine ⟨run, hm, hstopped ▸ hcourse, hresult.trans ?_, ?_⟩
  · rw [hcycle]
  · change (s.cycle randomByte).session.settle.session.mode = _
    rw [hsession]

/-- **A start that succeeds** begins the run that the operations after it lead to. -/
theorem follows_start {e : Engine} {size : Nat} (hm : s.mode = .available e)
    (hs : e.machine.Sound) (hl : (Machine.powerOn.machine.load s.program).result = .ok size)
    (rest : List Operation) :
    s.start.session.Follows (s.scenario e rest) (s.scenario e rest).Held 0 s.start.signals [] ∧
      s.start.session.Expects (s.scenario e rest) 0 rest := by
  have hbegun : (s.begun e).Follows (s.scenario e rest) (s.scenario e rest).Completed 0 [] [] :=
    ⟨_, rfl, .going (fun k hk => absurd hk (Nat.not_lt_zero k)) (Scenario.completed_zero _)⟩
  rw [start_of_load hm hs hl]
  refine ⟨hbegun.refresh rfl ?_, ?_⟩
  · cases rest with
    | _ => rfl
  · obtain ⟨mode, hrefresh⟩ := (s.begun e).refresh_frame
    change (s.begun e).refresh.session.Expects (s.scenario e rest) 0 rest
    rw [hrefresh]
    refine ⟨rfl, fun k => ?_, fun k => ?_⟩
    · rw [Nat.zero_add, Nat.add_comm]
      rfl
    · rw [Nat.zero_add]
      rfl

end Steps

/-! ## Whole runs -/

section Runs

variable {s : Session} {e : Engine} {size : Nat} {during rest : List Operation}

/-- **A run follows its scenario** from the start on. -/
theorem follows_during (hs : s.Sound) (hm : s.mode = .available e)
    (hl : (Machine.powerOn.machine.load s.program).result = .ok size)
    (hstop : ∀ operation ∈ during, operation.isStop = false) (rest : List Operation) :
    let w := s.scenario e (during ++ rest)
    (s.after (.start :: during)).Follows w w.Held (iterations during)
        (s.signals (.start :: during)) (s.cycleResults (.start :: during)) ∧
      (s.after (.start :: during)).Expects w (iterations during) rest := by
  obtain ⟨hfollows, hexpects⟩ := follows_start hm (hs.of_available hm) hl (during ++ rest)
  have hrun := hfollows.after hexpects hstop
  rw [Nat.zero_add] at hrun
  exact hrun

/-- **A run follows its scenario** to the end, which a stop puts to it. -/
theorem course_of_stop (hs : s.Sound) (hm : s.mode = .available e)
    (hl : (Machine.powerOn.machine.load s.program).result = .ok size)
    (hstop : ∀ operation ∈ during, operation.isStop = false) (lastByte : UInt8)
    (rest : List Operation) :
    let w := s.scenario e (during ++ .stop lastByte :: rest)
    let held := s.after (.start :: during)
    ∃ run,
      (held.cycle lastByte).session.mode = .active run ∧
      w.Course w.Completed (iterations during + 1) run
        (s.signals (.start :: during) ++ (held.stop lastByte).signals)
        (s.cycleResults (.start :: during) ++ held.attempt lastByte) ∧
      (held.stop lastByte).result = verdict run held.overruns ∧
      (held.stop lastByte).session.mode = modeAfter run := by
  obtain ⟨hfollows, hexpects⟩ := follows_during hs hm hl hstop (.stop lastByte :: rest)
  exact hfollows.stop hexpects

end Runs

end Session

end Chip8
