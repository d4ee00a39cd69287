import Chip8.Text.Decimal
import Chip8.Text.Hex

/-!
# Faults and load errors

What can go wrong on a machine: a cycle ends in a `Fault`, loading a program in a `LoadError`. The
message tells which one it is (`Fault.message_injective`, `LoadError.message_injective`).
-/

namespace Chip8

/-- Why a cycle cannot be completed. -/
inductive Fault
  /-- The word at `address` stands for no instruction. -/
  | unknownInstruction (word address : UInt16)
  /-- No whole word can be fetched at `pc`. -/
  | fetchOutOfBounds (pc : UInt16)
  /-- The instruction needs `len` bytes at `address`, and they do not all exist. -/
  | memoryOutOfBounds (address len : Nat)
  /-- The call at `address` finds the stack full. -/
  | stackOverflow (address : UInt16)
  /-- The return at `address` finds the stack empty. -/
  | stackUnderflow (address : UInt16)
  deriving DecidableEq

/-- The text of the fault. -/
def Fault.message : Fault → String
  | unknownInstruction word address =>
    "Could not find an instruction for opcode " ++ Hex.literal 4 word.toNat ++
      " at address " ++ Hex.literal 3 address.toNat ++ "."
  | fetchOutOfBounds pc =>
    "Program counter " ++ Hex.literal 4 pc.toNat ++ " points outside of memory."
  | memoryOutOfBounds address len =>
    s!"Access of {len} bytes at address " ++ Hex.literal 4 address ++ " exceeds memory."
  | stackOverflow address => "Stack overflow at address " ++ Hex.literal 3 address.toNat ++ "."
  | stackUnderflow address => "Stack underflow at address " ++ Hex.literal 3 address.toNat ++ "."

/-- Why a program is not loaded. -/
inductive LoadError
  /-- There is no byte in it. -/
  | emptyProgram
  /-- It has more bytes than there is room for. -/
  | programTooLarge (size : Nat)
  deriving DecidableEq

/-- The text of the load error. -/
def LoadError.message : LoadError → String
  | emptyProgram => "The program is empty."
  | programTooLarge size => s!"The program is too large ({size} bytes)."

/-! ## Messages tell faults apart -/

namespace Fault

theorem words_message (fault : Fault) :
    words fault.message =
      match fault with
      | unknownInstruction word address =>
        ["Could", "not", "find", "an", "instruction", "for", "opcode", Hex.literal 4 word.toNat,
          "at", "address", Hex.literal 3 address.toNat ++ "."]
      | fetchOutOfBounds pc =>
        ["Program", "counter", Hex.literal 4 pc.toNat, "points", "outside", "of", "memory."]
      | memoryOutOfBounds address len =>
        ["Access", "of", toString len, "bytes", "at", "address", Hex.literal 4 address, "exceeds",
          "memory."]
      | stackOverflow address =>
        ["Stack", "overflow", "at", "address", Hex.literal 3 address.toNat ++ "."]
      | stackUnderflow address =>
        ["Stack", "underflow", "at", "address", Hex.literal 3 address.toNat ++ "."] := by
  have hstop (width n : Nat) : words (Hex.literal width n ++ ".") = [Hex.literal width n ++ "."] :=
    words_append_of_not_mem (Hex.blank_not_mem_literal width n) (by decide)
  cases fault with
  | unknownInstruction word address =>
    change words ("Could not find an instruction for opcode" ++ " " ++ Hex.literal 4 word.toNat ++
      (" " ++ "at address" ++ " ") ++ Hex.literal 3 address.toNat ++ ".") = _
    simp only [String.append_assoc, words_append, Hex.words_literal, hstop]
    rfl
  | fetchOutOfBounds pc =>
    change words ("Program counter" ++ " " ++ Hex.literal 4 pc.toNat ++
      (" " ++ "points outside of memory.")) = _
    simp only [String.append_assoc, words_append, Hex.words_literal]
    rfl
  | memoryOutOfBounds address len =>
    change words ("Access of" ++ " " ++ toString len ++ (" " ++ "bytes at address" ++ " ") ++
      Hex.literal 4 address ++ (" " ++ "exceeds memory.")) = _
    simp only [String.append_assoc, words_append, Hex.words_literal, Decimal.words_toString]
    rfl
  | stackOverflow address =>
    change words ("Stack overflow at address" ++ " " ++ Hex.literal 3 address.toNat ++ ".") = _
    simp only [String.append_assoc, words_append, hstop]
    rfl
  | stackUnderflow address =>
    change words ("Stack underflow at address" ++ " " ++ Hex.literal 3 address.toNat ++ ".") = _
    simp only [String.append_assoc, words_append, hstop]
    rfl

/-- **The message tells the fault.** -/
theorem message_injective {f g : Fault} (h : f.message = g.message) : f = g := by
  have hwords := congrArg words h
  rw [words_message, words_message] at hwords
  cases f with
  | unknownInstruction word address =>
    cases g with
    | unknownInstruction word' address' =>
      simpa [Hex.literal_inj, UInt16.toNat_inj] using hwords
    | _ => simp at hwords
  | fetchOutOfBounds pc =>
    cases g with
    | fetchOutOfBounds pc' => simpa [Hex.literal_inj, UInt16.toNat_inj] using hwords
    | _ => simp at hwords
  | memoryOutOfBounds address len =>
    cases g with
    | memoryOutOfBounds address' len' =>
      simpa [Hex.literal_inj, Decimal.repr_inj, and_comm] using hwords
    | _ => simp at hwords
  | stackOverflow address =>
    cases g with
    | stackOverflow address' => simpa [Hex.literal_inj, UInt16.toNat_inj] using hwords
    | _ => simp at hwords
  | stackUnderflow address =>
    cases g with
    | stackUnderflow address' => simpa [Hex.literal_inj, UInt16.toNat_inj] using hwords
    | _ => simp at hwords

end Fault

namespace LoadError

theorem words_message (e : LoadError) :
    words e.message =
      match e with
      | emptyProgram => ["The", "program", "is", "empty."]
      | programTooLarge size =>
        ["The", "program", "is", "too", "large", "(" ++ toString size, "bytes)."] := by
  cases e with
  | emptyProgram => rfl
  | programTooLarge size =>
    have hsize : words ("(" ++ toString size) = ["(" ++ toString size] :=
      words_append_of_not_mem (by decide) (Decimal.blank_not_mem_toString size)
    change words ("The program is too large" ++ " " ++ "(" ++ toString size ++
      (" " ++ "bytes).")) = _
    rw [words_append, String.append_assoc, String.append_assoc, words_append, hsize]
    rfl

/-- **The message tells the load error.** -/
theorem message_injective {e e' : LoadError} (h : e.message = e'.message) : e = e' := by
  have hwords := congrArg words h
  rw [words_message, words_message] at hwords
  cases e with
  | emptyProgram =>
    cases e' with
    | emptyProgram => rfl
    | programTooLarge size' => simp at hwords
  | programTooLarge size =>
    cases e' with
    | emptyProgram => simp at hwords
    | programTooLarge size' => simpa [Decimal.repr_inj] using hwords

end LoadError

end Chip8
