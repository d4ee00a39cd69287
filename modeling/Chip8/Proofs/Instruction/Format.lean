import Chip8.Instruction.Decode

/-!
# The formats of instruction words

The instruction set as a list of formats such as `8xy4` or `Fx33`, in which some hexadecimal digits
are fixed and the others are operands. A word stands for an instruction if and only if it fits one
of the formats (`decode_eq_none_iff`).
-/

namespace Chip8

/-- A format of words: four hexadecimal digits from the left, each fixed or left open. -/
structure Format where
  first : Option Nat
  second : Option Nat
  third : Option Nat
  fourth : Option Nat

namespace Format

/-- Whether a digit is the fixed one, if there is one. -/
def admits (fixed : Option Nat) (digit : Nat) : Bool :=
  fixed.all fun d => digit == d

/-- Whether the digits of a word are as the format fixes them. -/
def fits (f : Format) (w : UInt16) : Bool :=
  admits f.first (w.toNat / 4096) && admits f.second (w.toNat / 256 % 16) &&
    admits f.third (w.toNat / 16 % 16) && admits f.fourth (w.toNat % 16)

/-- The single word `abcd`. -/
def single (a b c d : Nat) : Format := ⟨some a, some b, some c, some d⟩

/-- The words `annn`. -/
def family (a : Nat) : Format := ⟨some a, none, none, none⟩

/-- The words `axyd`. -/
def lastDigit (a d : Nat) : Format := ⟨some a, none, none, some d⟩

/-- The words `axcd`. -/
def lastDigits (a c d : Nat) : Format := ⟨some a, none, some c, some d⟩

/-- `00EE` -/
def ret : Format := single 0x0 0x0 0xE 0xE

/-- `2nnn` -/
def call : Format := family 0x2

/-- `Dxyn` -/
def draw : Format := family 0xD

/-- `Fx33` -/
def decimal : Format := lastDigits 0xF 0x3 0x3

/-- `Fx55` -/
def saveRegisters : Format := lastDigits 0xF 0x5 0x5

/-- `Fx65` -/
def restoreRegisters : Format := lastDigits 0xF 0x6 0x5

theorem fits_single {a b c d : Nat} {w : UInt16} (hb : b < 16) (hc : c < 16) (hd : d < 16) :
    (single a b c d).fits w = true ↔ w.toNat = 4096 * a + 256 * b + 16 * c + d := by
  simp only [fits, single, admits, Option.all_some, Bool.and_eq_true, beq_iff_eq]
  omega

@[simp]
theorem fits_family {a : Nat} {w : UInt16} : (family a).fits w = true ↔ w.toNat / 4096 = a := by
  simp [fits, family, admits]

@[simp]
theorem fits_lastDigit {a d : Nat} {w : UInt16} :
    (lastDigit a d).fits w = true ↔ w.toNat / 4096 = a ∧ w.toNat % 16 = d := by
  simp [fits, lastDigit, admits]

theorem fits_lastDigits {a c d : Nat} {w : UInt16} (hc : c < 16) (hd : d < 16) :
    (lastDigits a c d).fits w = true ↔ w.toNat / 4096 = a ∧ w.toNat % 256 = 16 * c + d := by
  simp only [fits, lastDigits, admits, Option.all_some, Option.all_none, Bool.and_true,
    Bool.and_eq_true, beq_iff_eq]
  omega

theorem fits_ret {w : UInt16} : ret.fits w = true ↔ w.toNat = 0x00EE :=
  fits_single (by decide) (by decide) (by decide)

theorem fits_call {w : UInt16} : call.fits w = true ↔ w.toNat / 4096 = 0x2 :=
  fits_family

theorem fits_draw {w : UInt16} : draw.fits w = true ↔ w.toNat / 4096 = 0xD :=
  fits_family

theorem fits_decimal {w : UInt16} :
    decimal.fits w = true ↔ w.toNat / 4096 = 0xF ∧ w.toNat % 256 = 0x33 :=
  fits_lastDigits (by decide) (by decide)

theorem fits_saveRegisters {w : UInt16} :
    saveRegisters.fits w = true ↔ w.toNat / 4096 = 0xF ∧ w.toNat % 256 = 0x55 :=
  fits_lastDigits (by decide) (by decide)

theorem fits_restoreRegisters {w : UInt16} :
    restoreRegisters.fits w = true ↔ w.toNat / 4096 = 0xF ∧ w.toNat % 256 = 0x65 :=
  fits_lastDigits (by decide) (by decide)

end Format

namespace Instruction

open Format

/-- The words that are fixed as a whole. -/
def fixedWords : List (Format × (UInt16 → Instruction)) :=
  [(single 0x0 0x0 0xE 0x0, fun _ => .clearScreen),
   (Format.ret, fun _ => .ret)]

/-- The operations told by the first digit alone. -/
def families : List (Format × (UInt16 → Instruction)) :=
  [(family 0x1, fun w => .jump (operandAddress w)),
   (Format.call, fun w => .call (operandAddress w)),
   (family 0x3, fun w => .skipIfEqual (operandX w) (operandByte w)),
   (family 0x4, fun w => .skipUnlessEqual (operandX w) (operandByte w)),
   (family 0x6, fun w => .load (operandX w) (operandByte w)),
   (family 0x7, fun w => .increase (operandX w) (operandByte w)),
   (family 0xA, fun w => .setIndex (operandAddress w)),
   (family 0xB, fun w => .jumpOffset (operandAddress w)),
   (family 0xC, fun w => .random (operandX w) (operandByte w)),
   (Format.draw, fun w => .draw (operandX w) (operandY w) (operandN w))]

/-- The operations on two registers, told by the first and the last digit. -/
def registerOperations : List (Format × (UInt16 → Instruction)) :=
  [(lastDigit 0x5 0x0, fun w => .skipIfSame (operandX w) (operandY w)),
   (lastDigit 0x8 0x0, fun w => .copy (operandX w) (operandY w)),
   (lastDigit 0x8 0x1, fun w => .bitOr (operandX w) (operandY w)),
   (lastDigit 0x8 0x2, fun w => .bitAnd (operandX w) (operandY w)),
   (lastDigit 0x8 0x3, fun w => .bitXor (operandX w) (operandY w)),
   (lastDigit 0x8 0x4, fun w => .add (operandX w) (operandY w)),
   (lastDigit 0x8 0x5, fun w => .subtract (operandX w) (operandY w)),
   (lastDigit 0x8 0x6, fun w => .shiftRight (operandX w)),
   (lastDigit 0x8 0x7, fun w => .subtractFrom (operandX w) (operandY w)),
   (lastDigit 0x8 0xE, fun w => .shiftLeft (operandX w)),
   (lastDigit 0x9 0x0, fun w => .skipUnlessSame (operandX w) (operandY w))]

/-- The operations on one register, told by the first and the last two digits. -/
def deviceOperations : List (Format × (UInt16 → Instruction)) :=
  [(lastDigits 0xE 0x9 0xE, fun w => .skipIfPressed (operandX w)),
   (lastDigits 0xE 0xA 0x1, fun w => .skipUnlessPressed (operandX w)),
   (lastDigits 0xF 0x0 0x7, fun w => .readDelay (operandX w)),
   (lastDigits 0xF 0x0 0xA, fun w => .awaitKey (operandX w)),
   (lastDigits 0xF 0x1 0x5, fun w => .setDelay (operandX w)),
   (lastDigits 0xF 0x1 0x8, fun w => .setSound (operandX w)),
   (lastDigits 0xF 0x1 0xE, fun w => .addIndex (operandX w)),
   (lastDigits 0xF 0x2 0x9, fun w => .glyph (operandX w)),
   (Format.decimal, fun w => .decimal (operandX w)),
   (Format.saveRegisters, fun w => .saveRegisters (operandX w)),
   (Format.restoreRegisters, fun w => .restoreRegisters (operandX w))]

/-- The instruction set: every format, with the instruction that a word of it stands for. -/
def instructionSet : List (Format × (UInt16 → Instruction)) :=
  fixedWords ++ families ++ registerOperations ++ deviceOperations

/-- Whether a word fits one of the formats. -/
def isKnown (w : UInt16) : Bool :=
  instructionSet.any fun entry => entry.1.fits w

/-! ## From formats to meanings -/

theorem decode_of_fixedWord (w : UInt16) :
    ∀ entry ∈ fixedWords, entry.1.fits w = true → decode w = some (entry.2 w) := by
  simp (disch := decide) only [fixedWords, List.forall_mem_cons, fits_ret, fits_single]
  refine ⟨?_, ?_, List.forall_mem_nil _⟩
  all_goals
    intro hw
    simp only [decode, hw]

theorem decode_of_family (w : UInt16) :
    ∀ entry ∈ families, entry.1.fits w = true → decode w = some (entry.2 w) := by
  simp only [families, List.forall_mem_cons, fits_call, fits_draw, fits_family]
  refine ⟨?_, ?_, ?_, ?_, ?_, ?_, ?_, ?_, ?_, ?_, List.forall_mem_nil _⟩
  all_goals
    intro ha
    simp only [decode, ha]

theorem decode_of_registerOperation (w : UInt16) :
    ∀ entry ∈ registerOperations, entry.1.fits w = true → decode w = some (entry.2 w) := by
  simp only [registerOperations, List.forall_mem_cons, fits_lastDigit]
  refine ⟨?_, ?_, ?_, ?_, ?_, ?_, ?_, ?_, ?_, ?_, ?_, List.forall_mem_nil _⟩
  all_goals
    rintro ⟨ha, hd⟩
    simp only [decode, ha, operandN, hd, decodeArithmetic, if_true]

theorem decode_of_deviceOperation (w : UInt16) :
    ∀ entry ∈ deviceOperations, entry.1.fits w = true → decode w = some (entry.2 w) := by
  simp (disch := decide) only [deviceOperations, List.forall_mem_cons, fits_decimal,
    fits_saveRegisters, fits_restoreRegisters, fits_lastDigits]
  refine ⟨?_, ?_, ?_, ?_, ?_, ?_, ?_, ?_, ?_, ?_, ?_, List.forall_mem_nil _⟩
  all_goals
    rintro ⟨ha, hb⟩
    simp only [decode, ha, hb, decodeDevice]

/-- What holds of the entries of every group holds of all entries. -/
theorem forall_mem_instructionSet {P : Format × (UInt16 → Instruction) → Prop}
    (hw : ∀ entry ∈ fixedWords, P entry) (hf : ∀ entry ∈ families, P entry)
    (hr : ∀ entry ∈ registerOperations, P entry) (hd : ∀ entry ∈ deviceOperations, P entry) :
    ∀ entry ∈ instructionSet, P entry := by
  simp only [instructionSet, List.forall_mem_append]
  exact ⟨⟨⟨hw, hf⟩, hr⟩, hd⟩

/-- **A word of a format stands for the instruction of that format.** -/
theorem decode_of_fits {w : UInt16} :
    ∀ entry ∈ instructionSet, entry.1.fits w = true → decode w = some (entry.2 w) :=
  forall_mem_instructionSet (decode_of_fixedWord w) (decode_of_family w)
    (decode_of_registerOperation w) (decode_of_deviceOperation w)

/-- **A word that fits no format stands for nothing.** -/
theorem decode_eq_none {w : UInt16}
    (h : ∀ entry ∈ instructionSet, ¬entry.1.fits w = true) : decode w = none := by
  simp (disch := decide) only [instructionSet, fixedWords, families, registerOperations,
    deviceOperations, List.forall_mem_append, List.forall_mem_cons, fits_ret, fits_call, fits_draw,
    fits_decimal, fits_saveRegisters, fits_restoreRegisters, fits_single, fits_family,
    fits_lastDigit, fits_lastDigits] at h
  simp only [decode]
  -- by the first digit, and then by whatever else tells the operation
  split
  case h_1 ha =>
    split
    case h_3 => rfl
    all_goals
      rename_i hw
      simp [hw] at h
  case h_6 ha =>
    refine if_neg fun hd => ?_
    simp only [operandN] at hd
    simp [ha, hd] at h
  case h_9 ha =>
    simp only [decodeArithmetic, operandN]
    split
    case h_10 => rfl
    all_goals
      rename_i hd
      simp [ha, hd] at h
  case h_10 ha =>
    refine if_neg fun hd => ?_
    simp only [operandN] at hd
    simp [ha, hd] at h
  case h_15 ha =>
    split
    case h_3 => rfl
    all_goals
      rename_i hb
      simp [ha, hb] at h
  case h_16 ha =>
    simp only [decodeDevice]
    split
    case h_10 => rfl
    all_goals
      rename_i hb
      simp [ha, hb] at h
  case h_17 => rfl
  all_goals
    rename_i ha
    simp [ha] at h

/-- **A word stands for nothing if and only if it fits no format.** -/
theorem decode_eq_none_iff {w : UInt16} : decode w = none ↔ isKnown w = false := by
  simp only [isKnown, List.any_eq_false]
  constructor
  · intro h entry hm hf
    rw [decode_of_fits _ hm hf] at h
    cases h
  · exact decode_eq_none

theorem isKnown_of_decode {w : UInt16} {instruction : Instruction}
    (h : decode w = some instruction) : isKnown w = true := by
  rw [← Bool.not_eq_false, ← decode_eq_none_iff, h]
  exact Option.some_ne_none instruction

/-- An instruction is decoded from a word of its format. -/
theorem exists_format_of_decode {w : UInt16} {instruction : Instruction}
    (h : decode w = some instruction) :
    ∃ entry ∈ instructionSet, entry.1.fits w = true ∧ instruction = entry.2 w := by
  obtain ⟨entry, hm, hf⟩ := List.any_eq_true.1 (isKnown_of_decode h)
  rw [decode_of_fits _ hm hf, Option.some.injEq] at h
  exact ⟨entry, hm, hf, h.symm⟩

/-- The word `Fx0A` alone waits for a key that goes into register `x`. -/
theorem decode_eq_awaitKey_iff {w : UInt16} {x : Register} :
    decode w = some (.awaitKey x) ↔ w.toNat = 0xF00A + 256 * x.val := by
  have hm : (lastDigits 0xF 0x0 0xA, fun w => .awaitKey (operandX w)) ∈ instructionSet := by
    simp [instructionSet, deviceOperations]
  have hfits : (lastDigits 0xF 0x0 0xA).fits w = true ↔
      w.toNat / 4096 = 0xF ∧ w.toNat % 256 = 0x0A := fits_lastDigits (by decide) (by decide)
  have hx : (operandX w).val = w.toNat / 256 % 16 := rfl
  constructor
  · intro hd
    have hwait : ∀ entry ∈ instructionSet, Instruction.awaitKey x = entry.2 w →
        entry.1 = lastDigits 0xF 0x0 0xA ∧ x = operandX w := by
      simp [instructionSet, fixedWords, families, registerOperations, deviceOperations]
    obtain ⟨entry, he, hf, hi⟩ := exists_format_of_decode hd
    obtain ⟨hformat, rfl⟩ := hwait entry he hi
    rw [hformat, hfits] at hf
    omega
  · intro hw
    have hlt : x.val < 16 := x.isLt
    have hf : (lastDigits 0xF 0x0 0xA).fits w = true := hfits.2 (by omega)
    have hxw : operandX w = x := Fin.ext (by omega)
    have hd : decode w = some (.awaitKey (operandX w)) := decode_of_fits _ hm hf
    rw [hd, hxw]

end Instruction

end Chip8
