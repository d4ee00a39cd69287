import Chip8.Instruction.Decode
import Chip8.Log
import Chip8.Machine.Execute

/-!
# Cycles

What can be asked of a machine: to execute a cycle, to load a program, to be reset. Each answers
with a `Response`: the machine afterwards, the result and what was logged.

A cycle looks at the keys if an instruction waits for one; else it fetches a word, decodes it and
executes the instruction. A cycle that completes lets both timers run on; a cycle that faults does
not get that far.
-/

namespace Chip8

/-- What a completed cycle means to the outside world. -/
structure Outcome where
  /-- The cycle touched the screen. -/
  screenChanged : Bool
  /-- The sound timer ran out in this cycle. -/
  soundExpired : Bool
  deriving DecidableEq

namespace Machine

/-- What a machine answers to a request. -/
structure Response (α : Type) where
  machine : Machine
  result : α
  log : List LogEntry

/-! ## Powering on and loading -/

/-- A new machine. -/
def powerOn : Response Unit :=
  ⟨new, (), [.reset]⟩

/-- Puts the machine into its power-on state. -/
def restart (m : Machine) : Response Unit :=
  ⟨m.reset, (), [.reset]⟩

/-- Copies a program to where execution starts, unless it is empty or too large. The result is its
size. -/
def load (program : Bytes) (m : Machine) : Response (Except LoadError Nat) :=
  if program.isEmpty then
    ⟨m, .error .emptyProgram, []⟩
  else if Memory.programLimit < program.length then
    ⟨m, .error (.programTooLarge program.length), []⟩
  else
    ⟨{ m with memory := m.memory.store Memory.programStart program }, .ok program.length,
      [.loaded program.length]⟩

/-- Loading a program touches memory and nothing else. -/
theorem load_eq (program : Bytes) (m : Machine) :
    (m.load program).machine = { m with memory := (m.load program).machine.memory } := by
  unfold load
  split
  · rfl
  · split <;> rfl

/-- What is in memory afterwards depends on the program and on memory alone. -/
theorem memory_load_congr {m m' : Machine} (h : m.memory = m'.memory) (program : Bytes) :
    (m.load program).machine.memory = (m'.load program).machine.memory := by
  unfold load
  split
  · exact h
  · split
    · exact h
    · exact congrArg (Memory.store · Memory.programStart program) h

/-! ## A single cycle -/

/-- The word at the program counter and the instruction it stands for. -/
def fetch (m : Machine) : Except Fault (UInt16 × Instruction) :=
  match m.memory.word? m.pc.toNat with
  | none => .error (.fetchOutOfBounds m.pc)
  | some word =>
    match Instruction.lookup word with
    | none => .error (.unknownInstruction word m.pc)
    | some instruction => .ok (word, instruction)

/-- What a look at the keys writes to the log: the key that ends the wait, if one is down. -/
def pollLog (m : Machine) : List LogEntry :=
  match m.keys.lowest? with
  | some key => [.keyTaken key]
  | none => []

/-- What the execution of an instruction writes to the log. -/
def executionLog (m : Machine) : Instruction → List LogEntry
  | .awaitKey x =>
    match m.keys.lowest? with
    | some key => [.keyTaken key]
    | none => [.awaitingKey x]
  | _ => []

/-- Completes a cycle: notes whether it touched the screen and lets both timers run on. The sound
timer runs out when it gets from one to zero. -/
def complete (screenChanged : Bool) (log : List LogEntry) (m : Machine) :
    Response (Except Fault Outcome) :=
  let soundExpired := m.soundTimer == 1
  { machine := { m with screenChanged := screenChanged }.tick
    result := .ok ⟨screenChanged, soundExpired⟩
    log := if soundExpired then log ++ [.soundExpired] else log }

/-- Executes one cycle. A random byte is at hand in case the cycle needs one. -/
def cycle (randomByte : UInt8) (m : Machine) : Response (Except Fault Outcome) :=
  match m.awaiting with
  | some x => (m.poll x).complete false m.pollLog
  | none =>
    match m.fetch with
    | .error fault => ⟨m, .error fault, []⟩
    | .ok (word, instruction) =>
      let announcement := LogEntry.executing m.pc word instruction
      let log := m.executionLog instruction
      match execute randomByte instruction m with
      | .error fault m' => ⟨m', .error fault, [announcement]⟩
      | .ok _ m' => m'.complete instruction.changesScreen (announcement :: log)

/-! ## Cycles by what is fetched -/

/-- Exactly what is encoded at the program counter is fetched. -/
theorem fetch_eq_ok_iff {m : Machine} {word : UInt16} {instruction : Instruction} :
    m.fetch = .ok (word, instruction) ↔
      m.memory.word? m.pc.toNat = some word ∧ Instruction.decode word = some instruction := by
  unfold fetch
  cases m.memory.word? m.pc.toNat with
  | none => simp
  | some w =>
    simp only [Instruction.lookup_eq_decode, Option.some.injEq]
    constructor
    · intro h
      cases hd : Instruction.decode w with
      | none => simp [hd] at h
      | some i =>
        simp only [hd, Except.ok.injEq, Prod.mk.injEq] at h
        obtain ⟨rfl, rfl⟩ := h
        exact ⟨rfl, hd⟩
    · rintro ⟨rfl, hd⟩
      rw [hd]

/-- A cycle that finds a pending wait for a key only looks at the keys. -/
theorem cycle_of_awaiting {m : Machine} {x : Register} (h : m.awaiting = some x)
    (randomByte : UInt8) :
    m.cycle randomByte = (m.poll x).complete false m.pollLog := by
  simp only [cycle, h]

/-- A cycle that fetches an instruction executes it. -/
theorem cycle_of_fetch {m : Machine} {word : UInt16} {instruction : Instruction}
    (ha : m.awaiting = none) (hf : m.fetch = .ok (word, instruction)) (randomByte : UInt8) :
    m.cycle randomByte =
      match execute randomByte instruction m with
      | .error fault m' => ⟨m', .error fault, [.executing m.pc word instruction]⟩
      | .ok _ m' =>
        m'.complete instruction.changesScreen
          (.executing m.pc word instruction :: m.executionLog instruction) := by
  simp only [cycle, ha, hf]

/-- A cycle that fetches nothing changes nothing. -/
theorem cycle_of_fetch_error {m : Machine} {fault : Fault} (ha : m.awaiting = none)
    (hf : m.fetch = .error fault) (randomByte : UInt8) :
    m.cycle randomByte = ⟨m, .error fault, []⟩ := by
  simp only [cycle, ha, hf]

end Machine

end Chip8
