import Mathlib.Data.Nat.Bitwise
import Chip8.Proofs.Bitmap.Binary
import Chip8.Proofs.Checked

/-!
# Sprites cut off at the edges

`compositeLoop` draws a sprite in two nested loops, over its rows and their columns, each left at
the edge of the bitmap, with 64 bits for every number: it comes to nothing as soon as a sum or a
product needs more bits or a pixel is looked up past the end of the array. What keeps it from that
is that a loop goes on only from a place on the bitmap (`rowLoop_eq`, `spriteLoop_eq`). So it comes
to the same as `composite`, wherever the sprite is placed and whatever the shape of the bitmap, and
that inverts just the pixels which the sprite covers (`sprites_are_clipped`).
-/

namespace Chip8.Bitmap

/-! ## Drawing in loops -/

/-- The number, if 64 bits are enough for it. -/
def word64 (n : Nat) : Option Nat :=
  if n < 2 ^ 64 then some n else none

/-- Inverts the pixel in a place of the array, if there is one. The flag says whether it was lit. -/
def toggle (b : Bitmap) (place : Nat) : Option (Bitmap × Bool) :=
  if h : place < b.pixels.size then
    let wasLit := b.pixels[place] != 0
    some (b.setPixel place (if wasLit then 0 else 1) h, wasLit)
  else
    none

/-- Draws columns `x` to `x + n - 1` of a row of a sprite, from the left, and stops at the right
edge. -/
def rowLoop (col currentRow : Nat) (bits : UInt8) (x : Nat) :
    Nat → Bitmap → Bool → Option (Bitmap × Bool)
  | 0, b, collision => some (b, collision)
  | n + 1, b, collision => do
    let currentCol ← word64 (col + x)
    if b.width ≤ currentCol then
      some (b, collision)
    else if bits &&& (0x80 >>> UInt8.ofNat x) = 0 then
      rowLoop col currentRow bits (x + 1) n b collision
    else do
      let start ← word64 (currentRow * b.width)
      let place ← word64 (start + currentCol)
      let (b', wasLit) ← b.toggle place
      rowLoop col currentRow bits (x + 1) n b' (collision || wasLit)

/-- Draws the rows of a sprite from row `y` on, from the top, and stops at the bottom edge. -/
def spriteLoop (col row y : Nat) : Bytes → Bitmap → Bool → Option (Bitmap × Bool)
  | [], b, collision => some (b, collision)
  | bits :: rest, b, collision => do
    let currentRow ← word64 (row + y)
    if b.height ≤ currentRow then
      some (b, collision)
    else do
      let (b', collision') ← rowLoop col currentRow bits 0 8 b collision
      spriteLoop col row (y + 1) rest b' collision'

/-- Draws a sprite with its top left corner at column `col` and row `row`. -/
def compositeLoop (b : Bitmap) (col row : Nat) (sprite : Bytes) : Option (Bitmap × Bool) :=
  spriteLoop col row 0 sprite b false

/-! ## Lists of cells -/

theorem invertAll_append (b : Bitmap) (cells cells' : List (Nat × Nat)) :
    b.invertAll (cells ++ cells') =
      (((b.invertAll cells).1.invertAll cells').1,
        (b.invertAll cells).2 || ((b.invertAll cells).1.invertAll cells').2) := by
  induction cells generalizing b with
  | nil => simp [invertAll]
  | cons cell rest ih => simp [invertAll, ih, Bool.or_assoc]

/-- Cells off the bitmap are left alone. -/
theorem invertAll_of_outside {b : Bitmap} {cells : List (Nat × Nat)}
    (h : ∀ cell ∈ cells, ¬(cell.1 < b.width ∧ cell.2 < b.height)) :
    b.invertAll cells = (b, false) := by
  induction cells with
  | nil => rfl
  | cons cell rest ih =>
    rw [List.forall_mem_cons] at h
    have hcell : b.invert cell.1 cell.2 = (b, false) := dif_neg h.1
    simp only [invertAll, hcell, ih h.2, Bool.or_self]

/-- The cells of columns `x` to `x + n - 1` of a row of a sprite. -/
def rowCells (col currentRow : Nat) (bits : UInt8) (x n : Nat) : List (Nat × Nat) :=
  ((List.range' x n).filter fun k => bits.toNat.testBit (7 - k)).map fun k => (col + k, currentRow)

theorem cells_cons (col row : Nat) (bits : UInt8) (rest : Bytes) :
    Sprite.cells col row (bits :: rest) =
      rowCells col row bits 0 8 ++ Sprite.cells col (row + 1) rest := by
  rw [Sprite.cells, Sprite.columns, List.range_eq_range']
  rfl

theorem le_of_mem_rowCells {col currentRow x n : Nat} {bits : UInt8} {cell : Nat × Nat}
    (h : cell ∈ rowCells col currentRow bits x n) : col + x ≤ cell.1 := by
  obtain ⟨k, hk, rfl⟩ := List.mem_map.1 h
  have hk := (List.mem_range'_1.1 (List.mem_filter.1 hk).1).1
  exact Nat.add_le_add_left hk col

/-! ## The loops do not leave 64 bits -/

theorem word64_of_lt {n : Nat} (h : n < 2 ^ 64) : word64 n = some n :=
  if_pos h

/-- The mask of a column picks the bit of that column. -/
theorem and_mask_eq_zero_iff {bits : UInt8} {x : Nat} (hx : x < 8) :
    bits &&& (0x80 >>> UInt8.ofNat x) = 0 ↔ bits.toNat.testBit (7 - x) = false := by
  have hmask : ∀ k < 8, ((0x80 : UInt8) >>> UInt8.ofNat k).toNat = 2 ^ (7 - k) := by decide
  rw [← UInt8.toNat_inj, UInt8.toNat_and, hmask x hx, Nat.and_two_pow]
  cases bits.toNat.testBit (7 - x) with
  | false => simp
  | true => simp

/-- On the bitmap, the place that is toggled is that of the cell. -/
theorem toggle_eq {b : Bitmap} {col row : Nat} (hc : col < b.width) (hr : row < b.height) :
    b.toggle (row * b.width + col) = some (b.invert col row) := by
  rw [toggle, dif_pos (b.index_lt hc hr), invert, dif_pos ⟨hc, hr⟩]
  rfl

/-- The bitmap has at most as many pixels as 64 bits can number. -/
structure Addressable (b : Bitmap) : Prop where
  width_lt : b.width < 2 ^ 64
  height_lt : b.height < 2 ^ 64
  size_lt : b.pixels.size < 2 ^ 64

theorem Addressable.of_eq {b b' : Bitmap} (h : b.Addressable) (hw : b'.width = b.width)
    (hh : b'.height = b.height) : b'.Addressable where
  width_lt := hw ▸ h.width_lt
  height_lt := hh ▸ h.height_lt
  size_lt := by
    rw [size_pixels, hw, hh, ← b.size_pixels]
    exact h.size_lt

/-- **The loop over a row**: a column is reached only if 64 bits are enough for the one before it
and it was not past the edge. -/
theorem rowLoop_eq {b : Bitmap} (h : b.Addressable) {col currentRow : Nat}
    (hr : currentRow < b.height) (bits : UInt8) {x n : Nat} (hx : x + n = 8)
    (hc : col + x < 2 ^ 64) (collision : Bool) :
    rowLoop col currentRow bits x n b collision =
      some ((b.invertAll (rowCells col currentRow bits x n)).1,
        collision || (b.invertAll (rowCells col currentRow bits x n)).2) := by
  induction n generalizing b x collision with
  | zero => simp [rowLoop, rowCells, invertAll]
  | succ n ih =>
    rw [rowLoop, word64_of_lt hc, Option.bind_eq_bind, Option.bind_some]
    by_cases hedge : b.width ≤ col + x
    · have houtside : b.invertAll (rowCells col currentRow bits x (n + 1)) = (b, false) :=
        invertAll_of_outside fun cell hcell hin => by
          have := le_of_mem_rowCells hcell
          omega
      rw [if_pos hedge, houtside, Bool.or_false]
    · have hnext : col + (x + 1) < 2 ^ 64 := by
        have := h.width_lt
        omega
      rw [if_neg hedge]
      cases hbit : bits.toNat.testBit (7 - x) with
      | false =>
        have hcells : rowCells col currentRow bits x (n + 1) =
            rowCells col currentRow bits (x + 1) n := by
          simp only [rowCells, List.range'_succ, List.filter_cons, hbit, Bool.false_eq_true, if_false]
        rw [if_pos ((and_mask_eq_zero_iff (by omega)).2 hbit), ih h hr (by omega) hnext, hcells]
      | true =>
        have hcells : rowCells col currentRow bits x (n + 1) =
            (col + x, currentRow) :: rowCells col currentRow bits (x + 1) n := by
          simp only [rowCells, List.range'_succ, List.filter_cons, hbit, if_true, List.map_cons]
        have hmask : ¬bits &&& (0x80 >>> UInt8.ofNat x) = 0 := by
          rw [and_mask_eq_zero_iff (by omega), hbit]
          decide
        have hplace := Nat.lt_trans (b.index_lt (Nat.not_le.1 hedge) hr) h.size_lt
        have hstart : currentRow * b.width < 2 ^ 64 := by omega
        rw [if_neg hmask, word64_of_lt hstart, Option.bind_eq_bind, Option.bind_some,
          word64_of_lt hplace, Option.bind_some, toggle_eq (Nat.not_le.1 hedge) hr,
          Option.bind_some, hcells]
        cases hinvert : b.invert (col + x) currentRow with
        | mk b' wasLit =>
          have hb' : b' = (b.invert (col + x) currentRow).1 := congrArg Prod.fst hinvert.symm
          have hwidth : b'.width = b.width := by rw [hb', width_invert]
          have hheight : b'.height = b.height := by rw [hb', height_invert]
          simp only [ih (h.of_eq hwidth hheight) (hheight ▸ hr) (by omega) hnext, invertAll, hinvert,
            Bool.or_assoc]

/-- **The loop over a sprite** comes to the cells of its rows above the bottom edge. -/
theorem spriteLoop_eq {b : Bitmap} (h : b.Addressable) {col row : Nat} (hc : col < 2 ^ 64)
    (sprite : Bytes) {y : Nat} (hr : row + y < 2 ^ 64) (collision : Bool) :
    spriteLoop col row y sprite b collision =
      some ((b.composite col (row + y) sprite).1,
        collision || (b.composite col (row + y) sprite).2) := by
  induction sprite generalizing b y collision with
  | nil => simp [spriteLoop, composite, Sprite.cells, invertAll]
  | cons bits rest ih =>
    rw [spriteLoop, word64_of_lt hr, Option.bind_eq_bind, Option.bind_some]
    by_cases hedge : b.height ≤ row + y
    · have houtside : b.composite col (row + y) (bits :: rest) = (b, false) := by
        rw [composite, Nat.sub_eq_zero_of_le hedge]
        rfl
      rw [if_pos hedge, houtside, Bool.or_false]
    · have hlt : row + y < b.height := Nat.not_le.1 hedge
      have hnext : row + (y + 1) < 2 ^ 64 := by
        have := h.height_lt
        omega
      have hrest : b.height - (row + y) = b.height - (row + (y + 1)) + 1 := by omega
      rw [if_neg hedge, rowLoop_eq h hlt bits rfl hc, Option.bind_eq_bind, Option.bind_some]
      refine (ih (h.of_eq (width_invertAll b _) (height_invertAll b _)) hnext _).trans ?_
      rw [composite, composite, height_invertAll, hrest, List.take_succ_cons, cells_cons,
        invertAll_append, Bool.or_assoc]
      rfl

/-- **The loops come to what `composite` does.** -/
theorem compositeLoop_eq {b : Bitmap} (h : b.Addressable) {col row : Nat} (hc : col < 2 ^ 64)
    (hr : row < 2 ^ 64) (sprite : Bytes) :
    b.compositeLoop col row sprite = some (b.composite col row sprite) :=
  spriteLoop_eq h hc sprite hr false

/-! ## Clipping -/

/-- A sprite that starts off the bitmap is cut off as a whole. -/
theorem composite_of_outside {b : Bitmap} {col row : Nat} (h : b.width ≤ col ∨ b.height ≤ row)
    (sprite : Bytes) : b.composite col row sprite = (b, false) := by
  refine invertAll_of_outside ?_
  rintro ⟨c, r⟩ hcell ⟨hc, hr⟩
  have hcovers := Sprite.mem_cells.1 hcell
  simp only [Sprite.covers, Bool.and_eq_true, decide_eq_true_eq] at hcovers
  omega

/-- The bitmaps that a blank one of the given size can become. -/
inductive Made (width height : Nat) : Bitmap → Prop
  | blank : Made width height (blank width height)
  | clear {b : Bitmap} (h : Made width height b) : Made width height b.clear
  | composite {b : Bitmap} (h : Made width height b) (col row : Nat) (sprite : Bytes) :
    Made width height (b.composite col row sprite).1

namespace Made

variable {width height : Nat} {b : Bitmap}

theorem width_eq (h : Made width height b) : b.width = width := by
  induction h with
  | blank => rfl
  | clear h ih => exact ih
  | composite h col row sprite ih => rw [width_composite, ih]

theorem height_eq (h : Made width height b) : b.height = height := by
  induction h with
  | blank => rfl
  | clear h ih => exact ih
  | composite h col row sprite ih => rw [height_composite, ih]

theorem isBinary (h : Made width height b) : b.IsBinary := by
  induction h with
  | blank => exact isBinary_blank width height
  | @clear b h ih => exact isBinary_clear b
  | composite h col row sprite ih => exact ih.composite col row sprite

theorem addressable {width height : UInt64} (h : Made width.toNat height.toNat b)
    (hsize : width.toNat * height.toNat < 2 ^ 64) : b.Addressable where
  width_lt := h.width_eq ▸ width.toNat_lt
  height_lt := h.height_eq ▸ height.toNat_lt
  size_lt := by
    rw [b.size_pixels, h.width_eq, h.height_eq]
    exact hsize

end Made

/-- What drawing a sprite with its top left corner at column `col` and row `row` may do: to turn the
bitmap `b` into `after` and to report a collision or none. -/
structure DrawsClipped (b : Bitmap) (col row : Nat) (sprite : Bytes) (after : Bitmap)
    (collision : Bool) : Prop where
  /-- Just the pixels are inverted that the sprite covers. -/
  isLit_eq : ∀ c < b.width, ∀ r < b.height,
    after.isLit c r = (b.isLit c r ^^ Sprite.covers col row sprite c r)
  /-- A collision is a pixel that was lit and is dark now. -/
  collision_iff : collision = true ↔ ∃ c r, b.isLit c r = true ∧ after.isLit c r = false
  width_eq : after.width = b.width
  height_eq : after.height = b.height
  size_eq : after.pixels.size = b.pixels.size
  binary : after.IsBinary
  outside : b.width ≤ col ∨ b.height ≤ row → after = b ∧ collision = false

theorem isLit_composite_eq_xor {b : Bitmap} (col row : Nat) (sprite : Bytes) {c r : Nat}
    (hc : c < b.width) (hr : r < b.height) :
    (b.composite col row sprite).1.isLit c r =
      (b.isLit c r ^^ Sprite.covers col row sprite c r) := by
  rw [isLit_composite]
  cases Sprite.covers col row sprite c r with
  | false => simp
  | true => simp [hc, hr]

theorem drawsClipped_composite {b : Bitmap} (hb : b.IsBinary) (col row : Nat) (sprite : Bytes) :
    b.DrawsClipped col row sprite (b.composite col row sprite).1
      (b.composite col row sprite).2 where
  isLit_eq c hc r hr := isLit_composite_eq_xor col row sprite hc hr
  collision_iff := by
    rw [snd_composite]
    constructor
    · rintro ⟨c, r, hcovers, hlit⟩
      obtain ⟨hc, hr⟩ := lt_of_isLit hlit
      refine ⟨c, r, hlit, ?_⟩
      rw [isLit_composite_eq_xor col row sprite hc hr, hlit, hcovers]
      rfl
    · rintro ⟨c, r, hlit, hdark⟩
      obtain ⟨hc, hr⟩ := lt_of_isLit hlit
      rw [isLit_composite_eq_xor col row sprite hc hr, hlit, Bool.true_xor,
        Bool.not_eq_false'] at hdark
      exact ⟨c, r, hdark, hlit⟩
  width_eq := width_composite b col row sprite
  height_eq := height_composite b col row sprite
  size_eq := by
    rw [size_pixels, size_pixels, width_composite, height_composite]
  binary := hb.composite col row sprite
  outside h := by
    rw [composite_of_outside h]
    exact ⟨rfl, rfl⟩

/-- **Sprites are cut off at the edges**, on every bitmap of a size that 64 bits can number and
wherever they are placed. The loops never need more than 64 bits nor a pixel that does not exist;
they come to what `composite` does, which inverts just the pixels on the bitmap that the sprite
covers and reports whether one of them went dark. -/
theorem sprites_are_clipped {width height : UInt64}
    (hsize : width.toNat * height.toNat < 2 ^ 64) {b : Bitmap}
    (hb : Made width.toNat height.toNat b) (col row : UInt64) (sprite : Bytes) :
    b.compositeLoop col.toNat row.toNat sprite =
        some (b.composite col.toNat row.toNat sprite) ∧
      b.DrawsClipped col.toNat row.toNat sprite (b.composite col.toNat row.toNat sprite).1
        (b.composite col.toNat row.toNat sprite).2 := by
  have haddressable : b.Addressable :=
    { width_lt := hb.width_eq ▸ width.toNat_lt
      height_lt := hb.height_eq ▸ height.toNat_lt
      size_lt := by
        rw [b.size_pixels, hb.width_eq, hb.height_eq]
        exact hsize }
  exact ⟨compositeLoop_eq haddressable col.toNat_lt row.toNat_lt sprite,
    drawsClipped_composite hb.isBinary col.toNat row.toNat sprite⟩

/-- On three columns and two rows, two pixels of a sprite are left at the bottom right, and none of
one that starts as far to the right as 64 bits can tell. -/
theorem sprites_are_clipped_corner :
    ((blank 3 2).composite 1 1 [0xFF, 0xFF]).1.isLit 2 1 = true ∧
      ((blank 3 2).composite 1 1 [0xFF, 0xFF]).1.isLit 0 1 = false ∧
      (blank 3 2).compositeLoop (2 ^ 64 - 1) (2 ^ 64 - 1) [0xFF, 0xFF] =
        some (blank 3 2, false) := by
  have hsize : (3 : UInt64).toNat * (2 : UInt64).toNat < 2 ^ 64 := by decide
  have hblank : Made (3 : UInt64).toNat (2 : UInt64).toNat (blank 3 2) := .blank
  have hcorner := (sprites_are_clipped hsize hblank 1 1 [0xFF, 0xFF]).2.isLit_eq
  have hlit := hcorner 2 (by decide) 1 (by decide)
  have hdark := hcorner 0 (by decide) 1 (by decide)
  obtain ⟨hloop, hclipped⟩ := sprites_are_clipped hsize hblank (-1) (-1) [0xFF, 0xFF]
  refine ⟨?_, ?_, ?_⟩
  · rw [isLit_blank] at hlit
    exact hlit.trans (by decide)
  · rw [isLit_blank] at hdark
    exact hdark.trans (by decide)
  · have houtside := hclipped.outside (.inl (by decide))
    refine hloop.trans (congrArg some ?_)
    exact Prod.ext houtside.1 houtside.2

end Chip8.Bitmap
