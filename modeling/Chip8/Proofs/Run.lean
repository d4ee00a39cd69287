import Chip8.Proofs.Faults

/-!
# Runs

A run is a machine together with a list of requests; its points are counted by requests, so that
`before k` is the machine before request number `k`. A request may complete a cycle, which then has
an outcome (`outcome?`) and, unless it only looked at the keys, has carried out an instruction
(`completed?`). `Step` lists the ways in which a request can go and `step` says that there are no
others: what a whole run keeps is proved from what every step keeps.
-/

namespace Chip8.Machine

/-! ## Points of a run -/

/-- The machine before request number `k` of a run. -/
def before (m : Machine) (requests : List Request) (k : Nat) : Machine :=
  m.performAll (requests.take k)

/-- The instruction that request number `k` of a run executes, if that is a cycle which executes
one. -/
def executed? (m : Machine) (requests : List Request) (k : Nat) : Option Instruction :=
  match requests[k]? with
  | some (.cycle _) => (m.before requests k).instruction?
  | _ => none

/-- How many of the first `k` requests of a run execute an instruction of a kind. -/
def executions (kind : Instruction → Bool) (m : Machine) (requests : List Request) (k : Nat) :
    Nat :=
  (List.range k).countP fun i => (m.executed? requests i).any kind

/-- No cycle of the run fails. -/
def Succeeds (m : Machine) (requests : List Request) : Prop :=
  ∀ k randomByte, requests[k]? = some (.cycle randomByte) →
    ∃ outcome, ((m.before requests k).cycle randomByte).result = .ok outcome

theorem before_succ (m : Machine) (requests : List Request) (k : Nat) :
    m.before requests (k + 1) =
      match requests[k]? with
      | some request => (m.before requests k).perform request
      | none => m.before requests k := by
  unfold before
  rw [List.take_add_one, performAll_append]
  cases requests[k]? with
  | some request => rfl
  | none => rfl

theorem executions_succ (kind : Instruction → Bool) (m : Machine) (requests : List Request)
    (k : Nat) :
    executions kind m requests (k + 1) =
      executions kind m requests k + if (m.executed? requests k).any kind then 1 else 0 := by
  unfold executions
  rw [List.range_succ, List.countP_append, List.countP_singleton]

theorem executed?_eq_some_iff {m : Machine} {requests : List Request} {k : Nat}
    {instruction : Instruction} :
    m.executed? requests k = some instruction ↔
      (∃ randomByte, requests[k]? = some (.cycle randomByte)) ∧
        (m.before requests k).instruction? = some instruction := by
  unfold executed?
  split
  · rename_i randomByte hk
    exact ⟨fun h => ⟨⟨randomByte, hk⟩, h⟩, And.right⟩
  · rename_i hk
    constructor
    · intro h
      cases h
    · rintro ⟨⟨randomByte, hb⟩, -⟩
      exact absurd hb (hk randomByte)

/-! ## Results -/

/-- What a request comes to, if it is a cycle: an outcome or a fault. -/
def resultOf (m : Machine) : Request → Option (Except Fault Outcome)
  | .cycle randomByte => some (m.cycle randomByte).result
  | _ => none

/-- What request number `k` of a run comes to, if that is a cycle. -/
def result? (m : Machine) (requests : List Request) (k : Nat) : Option (Except Fault Outcome) :=
  requests[k]?.bind (m.before requests k).resultOf

/-! ## Completed cycles -/

/-- The outcome of a request, if it is a cycle that does not fail. -/
def outcomeOf (m : Machine) : Request → Option Outcome
  | .cycle randomByte => (m.cycle randomByte).result.toOption
  | _ => none

/-- The instruction that a request carries out, if it is a cycle that executes one and does not
fail. -/
def completedBy (m : Machine) (request : Request) : Option Instruction :=
  (m.outcomeOf request).bind fun _ => m.instruction?

/-- The outcome of request number `k` of a run, if that is a cycle which does not fail. -/
def outcome? (m : Machine) (requests : List Request) (k : Nat) : Option Outcome :=
  requests[k]?.bind (m.before requests k).outcomeOf

/-- The instruction that request number `k` of a run carries out, if that is a cycle which executes
one and does not fail. -/
def completed? (m : Machine) (requests : List Request) (k : Nat) : Option Instruction :=
  requests[k]?.bind (m.before requests k).completedBy

/-- Outcomes are the results that are not faults. -/
theorem outcome?_eq_toOption_result? (m : Machine) (requests : List Request) (k : Nat) :
    m.outcome? requests k = (m.result? requests k).bind Except.toOption := by
  unfold outcome? result?
  cases requests[k]? with
  | none => rfl
  | some request =>
    cases request with
    | _ => rfl

/-! ## Steps -/

/-- The ways in which a request can go, each with the outcome, the instruction that is carried out
and the machine afterwards. -/
inductive Step (m : Machine) : Request → Option Outcome → Option Instruction → Machine → Prop
  /-- The machine is reset. -/
  | restart : Step m .restart none none m.reset
  /-- A program is loaded or refused. -/
  | load (program : Bytes) : Step m (.load program) none none (m.load program).machine
  /-- The keys are set. -/
  | setKeys (keys : Keypad) : Step m (.setKeys keys) none none (m.setKeys keys)
  /-- A cycle fails. -/
  | fail (randomByte : UInt8) {fault : Fault} (h : m.fault? = some fault) :
    Step m (.cycle randomByte) none none m
  /-- A cycle looks at the keys since an instruction waits for one. -/
  | poll (randomByte : UInt8) {x : Register} (h : m.awaiting = some x) :
    Step m (.cycle randomByte) (some ⟨false, (m.poll x).soundTimer == 1⟩) none
      ((m.poll x).complete false []).machine
  /-- A cycle carries out an instruction. -/
  | carryOut (randomByte : UInt8) {instruction : Instruction}
    (hi : m.instruction? = some instruction) (hr : m.refusal instruction = none) :
    Step m (.cycle randomByte)
      (some ⟨instruction.changesScreen, (m.effect randomByte instruction).soundTimer == 1⟩)
      (some instruction)
      ((m.effect randomByte instruction).complete instruction.changesScreen []).machine

theorem outcomeOf_of_ok {m : Machine} {randomByte : UInt8} {outcome : Outcome}
    (h : (m.cycle randomByte).result = .ok outcome) :
    m.outcomeOf (.cycle randomByte) = some outcome := by
  simp only [outcomeOf, h, Except.toOption]

theorem outcomeOf_of_fault {m : Machine} {fault : Fault} (h : m.fault? = some fault)
    (randomByte : UInt8) : m.outcomeOf (.cycle randomByte) = none := by
  simp only [outcomeOf, result_of_fault h, Except.toOption]

theorem step_cycle_of_fault {m : Machine} {fault : Fault} (h : m.fault? = some fault)
    (randomByte : UInt8) :
    m.Step (.cycle randomByte) (m.outcomeOf (.cycle randomByte))
      (m.completedBy (.cycle randomByte)) (m.perform (.cycle randomByte)) := by
  rw [completedBy, outcomeOf_of_fault h, perform, machine_of_fault h]
  exact .fail randomByte h

/-- **Every request goes one of the ways.** -/
theorem step (m : Machine) (request : Request) :
    m.Step request (m.outcomeOf request) (m.completedBy request) (m.perform request) := by
  cases request with
  | restart => exact .restart
  | load program => exact .load program
  | setKeys keys => exact .setKeys keys
  | cycle randomByte =>
    rcases cycle_cases randomByte m with ⟨x, ha, hc⟩ | ⟨fault, ha, hf, -⟩ |
      ⟨word, instruction, fault, ha, hf, hr, -⟩ | ⟨word, instruction, ha, hf, hr, hc⟩
    · have hi : m.instruction? = none := by simp only [instruction?, ha]
      have ho := outcomeOf_of_ok (congrArg Response.result hc)
      rw [completedBy, ho, Option.bind_some, hi, perform, hc]
      exact .poll randomByte ha
    · exact step_cycle_of_fault (fault?_of_fetch_error ha hf) randomByte
    · exact step_cycle_of_fault ((fault?_of_fetch ha hf).trans hr) randomByte
    · have hi := instruction?_of_fetch ha hf
      have ho := outcomeOf_of_ok (congrArg Response.result hc)
      rw [completedBy, ho, Option.bind_some, hi, perform, hc]
      exact .carryOut randomByte hi hr

/-- What a run comes to with one request more. -/
theorem step_before {m : Machine} {requests : List Request} {k : Nat} {request : Request}
    (h : requests[k]? = some request) :
    (m.before requests k).Step request (m.outcome? requests k) (m.completed? requests k)
      (m.before requests (k + 1)) := by
  rw [before_succ, outcome?, completed?, h]
  exact (m.before requests k).step request

theorem before_succ_of_none {m : Machine} {requests : List Request} {k : Nat}
    (h : requests[k]? = none) :
    m.before requests (k + 1) = m.before requests k ∧ m.outcome? requests k = none ∧
      m.completed? requests k = none := by
  rw [before_succ, outcome?, completed?, h]
  exact ⟨rfl, rfl, rfl⟩

/-- A cycle of a machine that shows no fault has an outcome. -/
theorem outcome?_of_no_fault {m : Machine} {requests : List Request} {k : Nat}
    {randomByte : UInt8} (hk : requests[k]? = some (.cycle randomByte))
    (hf : (m.before requests k).fault? = none) :
    ∃ outcome, m.outcome? requests k = some outcome := by
  obtain ⟨outcome, ho⟩ := result_of_no_fault hf randomByte
  rw [outcome?, hk]
  exact ⟨outcome, outcomeOf_of_ok ho⟩

/-- The requests with an outcome are the cycles of machines that show no fault. -/
theorem isSome_outcome?_eq (m : Machine) (requests : List Request) (k : Nat) :
    (m.outcome? requests k).isSome =
      match requests[k]? with
      | some (.cycle _) => (m.before requests k).fault?.isNone
      | _ => false := by
  cases hk : requests[k]? with
  | none =>
    rw [outcome?, hk]
    rfl
  | some request =>
    cases request with
    | cycle randomByte =>
      cases hf : (m.before requests k).fault? with
      | none =>
        obtain ⟨outcome, ho⟩ := outcome?_of_no_fault hk hf
        rw [ho]
        rfl
      | some fault =>
        rw [outcome?, hk, Option.bind_some, outcomeOf_of_fault hf]
        rfl
    | restart | load | setKeys =>
      rw [outcome?, hk]
      rfl

/-! ## Which instruction is carried out -/

/-- A request carries out an instruction if and only if it is a cycle that fetches the instruction
and the machine shows no fault. -/
theorem completedBy_eq_some_iff {m : Machine} {request : Request} {instruction : Instruction} :
    m.completedBy request = some instruction ↔
      (∃ randomByte, request = .cycle randomByte) ∧ m.fault? = none ∧
        m.instruction? = some instruction := by
  cases request with
  | cycle randomByte =>
    cases hf : m.fault? with
    | some fault =>
      rw [completedBy, outcomeOf_of_fault hf]
      simp
    | none =>
      obtain ⟨outcome, ho⟩ := result_of_no_fault hf randomByte
      rw [completedBy, outcomeOf_of_ok ho]
      simp
  | restart | load | setKeys => simp [completedBy, outcomeOf]

/-- A request that carries out an instruction is a cycle with an outcome. -/
theorem isSome_outcome? {m : Machine} {requests : List Request} {k : Nat}
    {instruction : Instruction} (h : m.completed? requests k = some instruction) :
    (m.outcome? requests k).isSome = true := by
  obtain ⟨request, hk, hc⟩ := Option.bind_eq_some_iff.1 h
  obtain ⟨outcome, ho, -⟩ := Option.bind_eq_some_iff.1 hc
  rw [outcome?, hk, Option.bind_some, ho]
  rfl

theorem completed?_eq_some_iff {m : Machine} {requests : List Request} {k : Nat}
    {instruction : Instruction} :
    m.completed? requests k = some instruction ↔
      (∃ randomByte, requests[k]? = some (.cycle randomByte)) ∧
        (m.before requests k).fault? = none ∧
        (m.before requests k).instruction? = some instruction := by
  rw [completed?, Option.bind_eq_some_iff]
  constructor
  · rintro ⟨request, hk, hc⟩
    obtain ⟨⟨randomByte, rfl⟩, hrest⟩ := completedBy_eq_some_iff.1 hc
    exact ⟨⟨randomByte, hk⟩, hrest⟩
  · rintro ⟨⟨randomByte, hk⟩, hrest⟩
    exact ⟨_, hk, completedBy_eq_some_iff.2 ⟨⟨randomByte, rfl⟩, hrest⟩⟩

end Chip8.Machine
