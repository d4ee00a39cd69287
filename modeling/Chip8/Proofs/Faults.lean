import Chip8.Proofs.Instruction.Format
import Chip8.Proofs.Invariant

/-!
# Failing cycles

A cycle fails if and only if the machine shows a fault (`result_eq_error_iff`), and then it leaves
the machine as it was. Since keys make no difference to the fault, a machine that fails once fails
in the same way until it is restarted or loaded anew (`failed_cycle_sticks`). `dueFault` reads the
fault off the bytes in memory by the formats of instruction words, without decoding them;
`cycle_result_of_reachable` says that a reachable machine fails with just that fault.
-/

namespace Chip8

open Format

/-- Whether the request belongs to playing: new keys or a cycle. -/
def Request.isPlay : Request → Bool
  | .setKeys _ | .cycle _ => true
  | .restart | .load _ => false

namespace Machine

/-! ## The fault that a machine shows -/

/-- A cycle of a machine that shows a fault fails with it and leaves the machine as it was. -/
theorem cycle_of_fault {m : Machine} {fault : Fault} (h : m.fault? = some fault)
    (randomByte : UInt8) : ∃ log, m.cycle randomByte = ⟨m, .error fault, log⟩ := by
  rcases cycle_cases randomByte m with ⟨x, ha, -⟩ | ⟨other, ha, hf, hc⟩ |
    ⟨word, instruction, other, ha, hf, hr, hc⟩ | ⟨word, instruction, ha, hf, hr, -⟩
  · rw [fault?_of_awaiting ha] at h
    cases h
  · rw [fault?_of_fetch_error ha hf, Option.some.injEq] at h
    subst h
    exact ⟨_, hc⟩
  · rw [fault?_of_fetch ha hf, hr, Option.some.injEq] at h
    subst h
    exact ⟨_, hc⟩
  · rw [fault?_of_fetch ha hf, hr] at h
    cases h

theorem result_of_fault {m : Machine} {fault : Fault} (h : m.fault? = some fault)
    (randomByte : UInt8) : (m.cycle randomByte).result = .error fault := by
  obtain ⟨log, hc⟩ := cycle_of_fault h randomByte
  rw [hc]

theorem machine_of_fault {m : Machine} {fault : Fault} (h : m.fault? = some fault)
    (randomByte : UInt8) : (m.cycle randomByte).machine = m := by
  obtain ⟨log, hc⟩ := cycle_of_fault h randomByte
  rw [hc]

theorem result_of_no_fault {m : Machine} (h : m.fault? = none) (randomByte : UInt8) :
    ∃ outcome, (m.cycle randomByte).result = .ok outcome := by
  rcases cycle_cases randomByte m with ⟨x, -, hc⟩ | ⟨other, ha, hf, -⟩ |
    ⟨word, instruction, other, ha, hf, hr, -⟩ | ⟨word, instruction, -, -, -, hc⟩
  · rw [hc]
    exact ⟨_, rfl⟩
  · rw [fault?_of_fetch_error ha hf] at h
    cases h
  · rw [fault?_of_fetch ha hf, hr] at h
    cases h
  · rw [hc]
    exact ⟨_, rfl⟩

theorem result_eq_error_iff {m : Machine} {fault : Fault} {randomByte : UInt8} :
    (m.cycle randomByte).result = .error fault ↔ m.fault? = some fault := by
  constructor
  · intro h
    cases hf : m.fault? with
    | some other =>
      rw [result_of_fault hf, Except.error.injEq] at h
      rw [h]
    | none =>
      obtain ⟨outcome, ho⟩ := result_of_no_fault hf randomByte
      rw [ho] at h
      cases h
  · intro h
    exact result_of_fault h randomByte

theorem result_eq_ok_iff {m : Machine} {randomByte : UInt8} :
    (∃ outcome, (m.cycle randomByte).result = .ok outcome) ↔ m.fault? = none := by
  constructor
  · rintro ⟨outcome, ho⟩
    cases hf : m.fault? with
    | some fault =>
      rw [result_of_fault hf] at ho
      cases ho
    | none => rfl
  · intro h
    exact result_of_no_fault h randomByte

/-! ## Faults stay -/

theorem refusal_setKeys (m : Machine) (keys : Keypad) (instruction : Instruction) :
    (m.setKeys keys).refusal instruction = m.refusal instruction := by
  cases instruction with
  | _ => rfl

/-- The keys make no difference to the fault. -/
theorem fault?_setKeys (m : Machine) (keys : Keypad) : (m.setKeys keys).fault? = m.fault? := by
  unfold fault?
  simp only [refusal_setKeys]
  rfl

/-- Whatever is played with a machine that shows a fault, no more than its keys changes. -/
theorem performAll_of_fault {m : Machine} {fault : Fault} (h : m.fault? = some fault)
    {requests : List Request} (hp : ∀ request ∈ requests, request.isPlay = true) :
    ∃ keys, m.performAll requests = m.setKeys keys := by
  induction requests generalizing m with
  | nil => exact ⟨m.keys, rfl⟩
  | cons request rest ih =>
    rw [List.forall_mem_cons] at hp
    cases request with
    | setKeys keys =>
      obtain ⟨last, hl⟩ := ih (m := m.setKeys keys) (by rw [fault?_setKeys, h]) hp.2
      exact ⟨last, hl⟩
    | cycle randomByte =>
      obtain ⟨last, hl⟩ := ih h hp.2
      rw [performAll, perform, machine_of_fault h]
      exact ⟨last, hl⟩
    | restart => cases hp.1
    | load program => cases hp.1

/-- **A failed cycle changes nothing, and nothing but a restart or a program helps.** Until then
every further cycle fails with the same fault and changes nothing either. -/
theorem failed_cycle_sticks {m : Machine} {randomByte : UInt8} {fault : Fault}
    (h : (m.cycle randomByte).result = .error fault) :
    (m.cycle randomByte).machine = m ∧
      ∀ requests : List Request, (∀ request ∈ requests, request.isPlay = true) →
        ∀ nextByte,
          (((m.cycle randomByte).machine.performAll requests).cycle nextByte).result =
            .error fault ∧
          (((m.cycle randomByte).machine.performAll requests).cycle nextByte).machine =
            (m.cycle randomByte).machine.performAll requests := by
  have hf : m.fault? = some fault := result_eq_error_iff.1 h
  have hm : (m.cycle randomByte).machine = m := machine_of_fault hf randomByte
  refine ⟨hm, fun requests hp nextByte => ?_⟩
  rw [hm]
  obtain ⟨keys, hk⟩ := performAll_of_fault hf hp
  have hlast : (m.performAll requests).fault? = some fault := by
    rw [hk, fault?_setKeys, hf]
  exact ⟨result_of_fault hlast nextByte, machine_of_fault hlast nextByte⟩

/-- A program that starts with a return fails again after a key has gone down. -/
theorem failed_cycle_sticks_return :
    (((powerOn.machine.load [0x00, 0xEE]).machine.performAll
        [.setKeys (Keypad.released.press 5), .cycle 0]).cycle 0).result =
      .error (.stackUnderflow 0x200) := by
  have hf : (powerOn.machine.load [0x00, 0xEE]).machine.fault? = some (.stackUnderflow 0x200) := by
    decide +kernel
  obtain ⟨hm, hs⟩ := failed_cycle_sticks (result_of_fault hf 0)
  rw [hm] at hs
  exact (hs [.setKeys (Keypad.released.press 5), .cycle 0] (by decide) 0).1

/-! ## Which fault is due -/

/-- The fault that is due where the `len` bytes at the index do not all exist. -/
def accessFault (m : Machine) (len : Nat) : Option Fault :=
  if 4096 < m.index.toNat + len then some (.memoryOutOfBounds m.index.toNat len) else none

/-- The fault that is due at the word of an instruction. -/
def operationFault (m : Machine) (w : UInt16) : Option Fault :=
  if Format.call.fits w then
    if m.stack.depth.toNat = 16 then some (.stackOverflow m.pc) else none
  else if Format.ret.fits w then
    if m.stack.depth.toNat = 0 then some (.stackUnderflow m.pc) else none
  else if Format.draw.fits w then m.accessFault (w.toNat % 16)
  else if Format.decimal.fits w then m.accessFault 3
  else if Format.saveRegisters.fits w || Format.restoreRegisters.fits w then
    m.accessFault (w.toNat / 256 % 16 + 1)
  else none

/-- The fault that is due at the program counter: that of a fetch outside of memory, of a word that
fits no format, or of the instruction. -/
def dueFault (m : Machine) : Option Fault :=
  let pc := m.pc.toNat
  let w := UInt16.ofNat (256 * (m.memory.read pc).toNat + (m.memory.read (pc + 1)).toNat)
  if 0xFFF ≤ pc then some (.fetchOutOfBounds m.pc)
  else if Instruction.isKnown w then m.operationFault w
  else some (.unknownInstruction w m.pc)

theorem accessFault_eq (m : Machine) (len : Nat) : m.accessFault len = m.accessRefusal len := by
  unfold accessFault accessRefusal
  by_cases h : 4096 < m.index.toNat + len
  · have hf : ¬Memory.Fits m.index.toNat len := Nat.not_le.2 h
    rw [if_pos h, if_neg hf]
  · have hf : Memory.Fits m.index.toNat len := Nat.not_lt.1 h
    rw [if_neg h, if_pos hf]

section Words

variable {m : Machine} (hs : m.stack.Sound) (w : UInt16)

include hs

/-- The due fault by the value of the word, with the checks of the instructions. -/
theorem operationFault_eq :
    m.operationFault w =
      if w.toNat / 4096 = 0x2 then m.refusal (.call (Instruction.operandAddress w))
      else if w.toNat = 0x00EE then m.refusal .ret
      else if w.toNat / 4096 = 0xD then m.accessRefusal (w.toNat % 16)
      else if w.toNat / 4096 = 0xF ∧ w.toNat % 256 = 0x33 then m.accessRefusal 3
      else if w.toNat / 4096 = 0xF ∧ w.toNat % 256 = 0x55 ∨
          w.toNat / 4096 = 0xF ∧ w.toNat % 256 = 0x65 then
        m.accessRefusal (w.toNat / 256 % 16 + 1)
      else none := by
  have hfull : m.stack.depth.toNat = 16 ↔ m.stack.isFull = true := by
    have := hs.depth_le
    rw [CallStack.isFull_iff]
    omega
  simp only [operationFault, Bool.or_eq_true, fits_call, fits_ret, fits_draw, fits_decimal,
    fits_saveRegisters, fits_restoreRegisters, hfull, ← CallStack.isEmpty_iff, accessFault_eq,
    refusal]

theorem refusal_of_fixedWord :
    ∀ entry ∈ Instruction.fixedWords, entry.1.fits w = true →
      m.refusal (entry.2 w) = m.operationFault w := by
  rw [operationFault_eq hs w]
  simp (disch := decide) only [Instruction.fixedWords, List.forall_mem_cons, fits_ret, fits_single]
  refine ⟨?_, ?_, List.forall_mem_nil _⟩
  all_goals
    intro hw
    simp [hw, refusal]

theorem refusal_of_family :
    ∀ entry ∈ Instruction.families, entry.1.fits w = true →
      m.refusal (entry.2 w) = m.operationFault w := by
  rw [operationFault_eq hs w]
  simp only [Instruction.families, List.forall_mem_cons, fits_call, fits_draw, fits_family]
  refine ⟨?_, ?_, ?_, ?_, ?_, ?_, ?_, ?_, ?_, ?_, List.forall_mem_nil _⟩
  all_goals
    intro ha
    have hw : w.toNat ≠ 0x00EE := by omega
    simp [ha, hw, refusal, Instruction.operandN]

theorem refusal_of_registerOperation :
    ∀ entry ∈ Instruction.registerOperations, entry.1.fits w = true →
      m.refusal (entry.2 w) = m.operationFault w := by
  rw [operationFault_eq hs w]
  simp only [Instruction.registerOperations, List.forall_mem_cons, fits_lastDigit]
  refine ⟨?_, ?_, ?_, ?_, ?_, ?_, ?_, ?_, ?_, ?_, ?_, List.forall_mem_nil _⟩
  all_goals
    rintro ⟨ha, -⟩
    have hw : w.toNat ≠ 0x00EE := by omega
    simp [ha, hw, refusal]

theorem refusal_of_deviceOperation :
    ∀ entry ∈ Instruction.deviceOperations, entry.1.fits w = true →
      m.refusal (entry.2 w) = m.operationFault w := by
  rw [operationFault_eq hs w]
  simp (disch := decide) only [Instruction.deviceOperations, List.forall_mem_cons, fits_decimal,
    fits_saveRegisters, fits_restoreRegisters, fits_lastDigits]
  refine ⟨?_, ?_, ?_, ?_, ?_, ?_, ?_, ?_, ?_, ?_, ?_, List.forall_mem_nil _⟩
  all_goals
    rintro ⟨ha, hb⟩
    have hw : w.toNat ≠ 0x00EE := by omega
    simp [ha, hb, hw, refusal, Instruction.operandX]

/-- An instruction is refused for the fault that is due at its word. -/
theorem refusal_of_decode {instruction : Instruction}
    (h : Instruction.decode w = some instruction) :
    m.refusal instruction = m.operationFault w := by
  obtain ⟨entry, hm, hf, rfl⟩ := Instruction.exists_format_of_decode h
  exact Instruction.forall_mem_instructionSet (refusal_of_fixedWord hs w) (refusal_of_family hs w)
    (refusal_of_registerOperation hs w) (refusal_of_deviceOperation hs w) entry hm hf

end Words

/-- **A machine that does not wait shows the fault that is due.** -/
theorem fault?_eq_dueFault {m : Machine} (hs : m.Sound) (ha : m.awaiting = none) :
    m.fault? = m.dueFault := by
  simp only [fault?, ha, dueFault, Memory.word?]
  by_cases hp : 0xFFF ≤ m.pc.toNat
  · have hout : ¬m.pc.toNat + 1 < Memory.size := Nat.not_lt.2 (Nat.succ_le_succ hp)
    rw [if_pos hp, if_neg hout]
  · have hin : m.pc.toNat + 1 < Memory.size := Nat.succ_lt_succ (Nat.not_le.1 hp)
    rw [if_neg hp, if_pos hin]
    -- from here on the word alone matters, not the bytes it was fetched from
    generalize UInt16.ofNat _ = w
    cases hd : Instruction.decode w with
    | none =>
      rw [Instruction.decode_eq_none_iff.1 hd]
      simp only [hd]
      rfl
    | some instruction =>
      rw [if_pos (Instruction.isKnown_of_decode hd)]
      simp only [hd]
      exact refusal_of_decode hs.stack w hd

/-- **When cycles fail, and with which fault.** A reachable machine that waits for a key completes
its cycle. Any other fails with the fault that is due, and completes its cycle if none is. -/
theorem cycle_result_of_reachable {m : Machine} (h : m.Reachable) (randomByte : UInt8) :
    (m.awaiting.isSome = true → ∃ outcome, (m.cycle randomByte).result = .ok outcome) ∧
      (m.awaiting = none →
        (∀ fault, (m.cycle randomByte).result = .error fault ↔ m.dueFault = some fault) ∧
          ((∃ outcome, (m.cycle randomByte).result = .ok outcome) ↔ m.dueFault = none)) := by
  constructor
  · intro hw
    obtain ⟨x, hx⟩ := Option.isSome_iff_exists.1 hw
    exact result_of_no_fault (fault?_of_awaiting hx) randomByte
  · intro ha
    rw [← fault?_eq_dueFault h.sound ha]
    exact ⟨fun fault => result_eq_error_iff, result_eq_ok_iff⟩

/-- A waiting machine completes its cycle; saving three registers two bytes before the end of
memory fails. -/
theorem cycle_result_of_waiting_and_saving :
    (∃ outcome, ((powerOn.machine.performAll [.load [0xF3, 0x0A], .cycle 0]).cycle 0).result =
        .ok outcome) ∧
      ((powerOn.machine.performAll [.load [0xAF, 0xFE, 0xF2, 0x55], .cycle 0]).cycle 0).result =
        .error (.memoryOutOfBounds 0xFFE 3) := by
  constructor
  · have hw := (cycle_result_of_reachable
      (reachable_performAll .powerOn [.load [0xF3, 0x0A], .cycle 0]) 0).1
    rw [performAll_eq_advanceAll] at hw ⊢
    exact hw (by decide +kernel)
  · have hdue := (cycle_result_of_reachable
      (reachable_performAll .powerOn [.load [0xAF, 0xFE, 0xF2, 0x55], .cycle 0]) 0).2
    rw [performAll_eq_advanceAll] at hdue ⊢
    exact ((hdue (by decide +kernel)).1 _).2 (by decide +kernel)

end Machine

end Chip8
