import Chip8.Bitmap

/-!
# Packed colours

A bitmap is shown in colour by giving every lit pixel one colour and every dark pixel black. The
packed form is a buffer with three bytes a pixel: red, green, blue.
-/

namespace Chip8

/-- The colour in which a lit pixel is shown. -/
structure Color where
  red : UInt8
  green : UInt8
  blue : UInt8
  deriving DecidableEq

namespace Color

/-- Full intensity in every channel. -/
def white : Color := ⟨255, 255, 255⟩

end Color

/-- The product of two bytes, or 255 if it is larger. -/
def saturatingMul (a b : UInt8) : UInt8 :=
  if a.toNat * b.toNat < 256 then a * b else 255

namespace Bitmap

/-- The number of bytes of the packed form. -/
def packedSize (b : Bitmap) : Nat :=
  b.width * b.height * 3

/-- The packed form: every pixel as the colour scaled by its intensity. -/
def packed (b : Bitmap) (color : Color) : Array UInt8 :=
  b.pixels.flatMap fun p =>
    #[saturatingMul p color.red, saturatingMul p color.green, saturatingMul p color.blue]

/-- The packed form has as many bytes as it should. -/
theorem size_packed (b : Bitmap) (color : Color) : (b.packed color).size = b.packedSize := by
  rw [packed, Array.size_flatMap]
  change (b.pixels.map fun _ => 3).sum = _
  rw [Array.map_const', Array.sum_replicate_nat, b.size_pixels, packedSize]

/-- Fills a buffer with the packed form, which must have exactly its size. -/
def packInto (b : Bitmap) (color : Color) (buffer : Array UInt8) :
    Except AccessError (Array UInt8) :=
  if buffer.size = b.packedSize then
    .ok (b.packed color)
  else
    .error (.bufferSize b.packedSize buffer.size)

end Bitmap

end Chip8
