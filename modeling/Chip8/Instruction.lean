import Chip8.Memory

/-!
# Instructions

The instruction set. Operands are registers, immediate bytes, twelve-bit addresses and the number of
rows of a sprite.
-/

namespace Chip8

/-- One of the sixteen general registers. -/
abbrev Register := Fin 16

/-- The register that is added to the target of a jump with an offset. -/
def Register.offset : Register := 0

/-- The register that doubles as carry, borrow and collision flag. -/
def Register.flag : Register := 15

/-- An address operand of twelve bits. -/
abbrev Address := Fin Memory.size

/-- The instructions, each with its operands. -/
inductive Instruction
  /-- Turns the whole screen dark. -/
  | clearScreen
  /-- Goes on behind the last call. -/
  | ret
  /-- Goes on at `target`. -/
  | jump (target : Address)
  /-- Remembers where to return to and goes on at `target`. -/
  | call (target : Address)
  /-- Skips an instruction if register `x` holds `value`. -/
  | skipIfEqual (x : Register) (value : UInt8)
  /-- Skips an instruction unless register `x` holds `value`. -/
  | skipUnlessEqual (x : Register) (value : UInt8)
  /-- Skips an instruction if registers `x` and `y` hold the same. -/
  | skipIfSame (x y : Register)
  /-- Skips an instruction unless registers `x` and `y` hold the same. -/
  | skipUnlessSame (x y : Register)
  /-- Puts `value` into register `x`. -/
  | load (x : Register) (value : UInt8)
  /-- Adds `value` to register `x` and leaves the flag alone. -/
  | increase (x : Register) (value : UInt8)
  /-- Copies register `y` to register `x`. -/
  | copy (x y : Register)
  /-- Disjunction of registers `x` and `y`, bit by bit, into `x`. -/
  | bitOr (x y : Register)
  /-- Conjunction of registers `x` and `y`, bit by bit, into `x`. -/
  | bitAnd (x y : Register)
  /-- Exclusive disjunction of registers `x` and `y`, bit by bit, into `x`. -/
  | bitXor (x y : Register)
  /-- Adds register `y` to register `x`; the flag is the carry. -/
  | add (x y : Register)
  /-- Subtracts register `y` from register `x`; the flag says that `x` was larger. -/
  | subtract (x y : Register)
  /-- Halves register `x`; the flag is the bit that falls out. -/
  | shiftRight (x : Register)
  /-- Puts register `y` minus register `x` into `x`; the flag says that `y` was larger. -/
  | subtractFrom (x y : Register)
  /-- Doubles register `x`; the flag is the bit that falls out. -/
  | shiftLeft (x : Register)
  /-- Puts `target` into the index. -/
  | setIndex (target : Address)
  /-- Goes on at `target` plus the offset register. -/
  | jumpOffset (target : Address)
  /-- Puts a random byte, masked by `mask`, into register `x`. -/
  | random (x : Register) (mask : UInt8)
  /-- Draws the sprite of `rows` bytes at the index to column `x` and row `y`, both read from
  registers; the flag is the collision. -/
  | draw (x y : Register) (rows : Fin 16)
  /-- Skips an instruction if the key in register `x` is down. -/
  | skipIfPressed (x : Register)
  /-- Skips an instruction unless the key in register `x` is down. -/
  | skipUnlessPressed (x : Register)
  /-- Copies the delay timer to register `x`. -/
  | readDelay (x : Register)
  /-- Waits until a key is down and puts it into register `x`. -/
  | awaitKey (x : Register)
  /-- Sets the delay timer to register `x`. -/
  | setDelay (x : Register)
  /-- Sets the sound timer to register `x`. -/
  | setSound (x : Register)
  /-- Adds register `x` to the index. -/
  | addIndex (x : Register)
  /-- Puts the address of the glyph of the digit in register `x` into the index. -/
  | glyph (x : Register)
  /-- Writes the three decimal digits of register `x` to memory at the index. -/
  | decimal (x : Register)
  /-- Writes registers 0 to `x` to memory at the index. -/
  | saveRegisters (x : Register)
  /-- Reads registers 0 to `x` from memory at the index. -/
  | restoreRegisters (x : Register)
  deriving DecidableEq

namespace Instruction

/-- Whether executing the instruction touches the screen. -/
def changesScreen : Instruction → Bool
  | clearScreen | draw .. => true
  | _ => false

end Instruction

end Chip8
