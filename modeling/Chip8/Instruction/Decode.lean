import Chip8.Instruction

/-!
# Decoding instruction words

An instruction is stored as one word of four hexadecimal digits, written here from the left as
`w x y n`. The first digit, sometimes along with the last one or two, tells the operation; `x` and
`y` are registers, `y n` together are an immediate byte and `x y n` an address. `decode` gives the
meaning of every word, `table` holds it for all 65536 words at once, and `lookup_eq_decode` says
that looking a word up is decoding it.
-/

namespace Chip8.Instruction

/-! ## The operands in a word -/

/-- The register named by the second digit. -/
def operandX (w : UInt16) : Register :=
  ⟨w.toNat / 256 % 16, Nat.mod_lt _ (by decide)⟩

/-- The register named by the third digit. -/
def operandY (w : UInt16) : Register :=
  ⟨w.toNat / 16 % 16, Nat.mod_lt _ (by decide)⟩

/-- The last digit. -/
def operandN (w : UInt16) : Fin 16 :=
  ⟨w.toNat % 16, Nat.mod_lt _ (by decide)⟩

/-- The immediate byte in the last two digits. -/
def operandByte (w : UInt16) : UInt8 :=
  UInt8.ofNat (w.toNat % 256)

/-- The address in the last three digits. -/
def operandAddress (w : UInt16) : Address :=
  ⟨w.toNat % 4096, Nat.mod_lt _ (by decide)⟩

/-! ## The meaning of a word -/

/-- The operation on two registers that the last digit of a word `8xyn` tells. -/
def decodeArithmetic (x y : Register) : Nat → Option Instruction
  | 0x0 => some (copy x y)
  | 0x1 => some (bitOr x y)
  | 0x2 => some (bitAnd x y)
  | 0x3 => some (bitXor x y)
  | 0x4 => some (add x y)
  | 0x5 => some (subtract x y)
  | 0x6 => some (shiftRight x)
  | 0x7 => some (subtractFrom x y)
  | 0xE => some (shiftLeft x)
  | _ => none

/-- The operation on one register that the last two digits of a word `Fxkk` tell. -/
def decodeDevice (x : Register) : Nat → Option Instruction
  | 0x07 => some (readDelay x)
  | 0x0A => some (awaitKey x)
  | 0x15 => some (setDelay x)
  | 0x18 => some (setSound x)
  | 0x1E => some (addIndex x)
  | 0x29 => some (glyph x)
  | 0x33 => some (decimal x)
  | 0x55 => some (saveRegisters x)
  | 0x65 => some (restoreRegisters x)
  | _ => none

/-- The instruction that a word stands for, if there is one. -/
def decode (w : UInt16) : Option Instruction :=
  let x := operandX w
  let y := operandY w
  let n := operandN w
  let value := operandByte w
  let target := operandAddress w
  match w.toNat / 4096 with
  | 0x0 =>
    match w.toNat with
    | 0x00E0 => some clearScreen
    | 0x00EE => some ret
    | _ => none
  | 0x1 => some (jump target)
  | 0x2 => some (call target)
  | 0x3 => some (skipIfEqual x value)
  | 0x4 => some (skipUnlessEqual x value)
  | 0x5 => if n.val = 0 then some (skipIfSame x y) else none
  | 0x6 => some (load x value)
  | 0x7 => some (increase x value)
  | 0x8 => decodeArithmetic x y n.val
  | 0x9 => if n.val = 0 then some (skipUnlessSame x y) else none
  | 0xA => some (setIndex target)
  | 0xB => some (jumpOffset target)
  | 0xC => some (random x value)
  | 0xD => some (draw x y n)
  | 0xE =>
    match w.toNat % 256 with
    | 0x9E => some (skipIfPressed x)
    | 0xA1 => some (skipUnlessPressed x)
    | _ => none
  | 0xF => decodeDevice x (w.toNat % 256)
  | _ => none

/-! ## All words at once -/

/-- The meaning of every word, computed once: a page for every high byte with a line for every low
byte. It is a constant and not part of a machine: a reset builds the same table every time, nothing
else writes to it, and no instruction is looked up before the first reset. -/
def table : Vector (Vector (Option Instruction) 256) 256 :=
  Vector.ofFn fun high => Vector.ofFn fun low => decode (UInt16.ofNat (256 * high.val + low.val))

/-- The meaning of a word, looked up in the table. -/
def lookup (w : UInt16) : Option Instruction :=
  have high : w.toNat / 256 < 256 := by
    have := w.toNat_lt
    omega
  have low : w.toNat % 256 < 256 := Nat.mod_lt _ (by decide)
  table[w.toNat / 256][w.toNat % 256]

/-- Looking a word up is decoding it. -/
@[simp]
theorem lookup_eq_decode (w : UInt16) : lookup w = decode w := by
  simp only [lookup, table, Vector.getElem_ofFn]
  rw [Nat.div_add_mod, UInt16.ofNat_toNat]

end Chip8.Instruction
