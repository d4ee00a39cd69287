import Chip8.Memory

/-!
# The built-in font

The glyphs of the sixteen hexadecimal digits. A glyph is a sprite of five rows; the glyphs stand one
after another in memory from `Font.start` on, and nothing else is in memory after a reset.
-/

namespace Chip8.Font

/-- The address of the glyph of digit zero. -/
def start : Nat := 0x50

/-- The number of rows of a glyph. -/
def glyphSize : Nat := 5

/-- The rows of all glyphs, from digit `0` to digit `F`. -/
def rows : Bytes :=
  [0xF0, 0x90, 0x90, 0x90, 0xF0,
   0x20, 0x60, 0x20, 0x20, 0x70,
   0xF0, 0x10, 0xF0, 0x80, 0xF0,
   0xF0, 0x10, 0xF0, 0x10, 0xF0,
   0x90, 0x90, 0xF0, 0x10, 0x10,
   0xF0, 0x80, 0xF0, 0x10, 0xF0,
   0xF0, 0x80, 0xF0, 0x90, 0xF0,
   0xF0, 0x10, 0x20, 0x40, 0x40,
   0xF0, 0x90, 0xF0, 0x90, 0xF0,
   0xF0, 0x90, 0xF0, 0x10, 0xF0,
   0xF0, 0x90, 0xF0, 0x90, 0x90,
   0xE0, 0x90, 0xE0, 0x90, 0xE0,
   0xF0, 0x80, 0x80, 0x80, 0xF0,
   0xE0, 0x90, 0x90, 0x90, 0xE0,
   0xF0, 0x80, 0xF0, 0x80, 0xF0,
   0xF0, 0x80, 0xF0, 0x80, 0x80]

/-- The address at which the glyph of `digit` stands. A byte above fifteen names no glyph, but its
address follows the same rule. -/
def glyphAddress (digit : UInt8) : UInt16 :=
  UInt16.ofNat start + digit.toUInt16 * UInt16.ofNat glyphSize

/-- Memory that holds the font and is zero elsewhere. -/
def memory : Memory :=
  Memory.zeroed.store start rows

/-- Glyph addresses never wrap around. -/
theorem toNat_glyphAddress (digit : UInt8) :
    (glyphAddress digit).toNat = start + glyphSize * digit.toNat := by
  have := digit.toNat_lt
  simp only [glyphAddress, start, glyphSize, UInt16.toNat_add, UInt16.toNat_mul,
    UInt8.toNat_toUInt16, UInt16.toNat_ofNat']
  omega

/-- What stands in memory after a reset. -/
theorem read_memory {a : Nat} (h : a < Memory.size) :
    memory.read a =
      if start ≤ a ∧ a < start + rows.length then rows.getD (a - start) 0 else 0 := by
  rw [memory, Memory.read_store _ _ _ h, Memory.read_zeroed]

end Chip8.Font
