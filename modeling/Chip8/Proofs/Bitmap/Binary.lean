import Chip8.Bitmap

/-!
# Binary bitmaps

A bitmap is made dark and from then on only cleared and drawn on, so that each of its pixels is
either 0 or 1, although any byte would do for a lit one. `IsBinary` is kept by every operation, and
so is the size.
-/

namespace Chip8.Bitmap

/-- Every pixel is 0 or 1. -/
def IsBinary (b : Bitmap) : Prop :=
  ∀ p ∈ b.pixels, p = 0 ∨ p = 1

theorem isBinary_blank (width height : Nat) : (blank width height).IsBinary := by
  intro p hp
  exact .inl (Array.mem_replicate.1 hp).2

theorem isBinary_clear (b : Bitmap) : b.clear.IsBinary := by
  intro p hp
  exact .inl (Array.mem_replicate.1 hp).2

theorem IsBinary.invert {b : Bitmap} (h : b.IsBinary) (col row : Nat) :
    (b.invert col row).1.IsBinary := by
  unfold Bitmap.invert
  split
  · rename_i hcr
    intro p hp
    have hp : p ∈ b.pixels.set (row * b.width + col) _ (b.index_lt hcr.1 hcr.2) := hp
    rcases Array.mem_or_eq_of_mem_set hp with hp | rfl
    · exact h p hp
    · split
      · exact .inl rfl
      · exact .inr rfl
  · exact h

theorem IsBinary.invertAll {b : Bitmap} (h : b.IsBinary) (cells : List (Nat × Nat)) :
    (b.invertAll cells).1.IsBinary := by
  induction cells generalizing b with
  | nil => exact h
  | cons cell rest ih => exact ih (h.invert cell.1 cell.2)

/-- **Drawing keeps a bitmap binary.** -/
theorem IsBinary.composite {b : Bitmap} (h : b.IsBinary) (col row : Nat) (sprite : Bytes) :
    (b.composite col row sprite).1.IsBinary :=
  h.invertAll _

@[simp]
theorem width_composite (b : Bitmap) (col row : Nat) (sprite : Bytes) :
    (b.composite col row sprite).1.width = b.width :=
  width_invertAll b _

@[simp]
theorem height_composite (b : Bitmap) (col row : Nat) (sprite : Bytes) :
    (b.composite col row sprite).1.height = b.height :=
  height_invertAll b _

end Chip8.Bitmap
