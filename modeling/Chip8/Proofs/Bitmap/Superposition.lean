import Chip8.Proofs.Bitmap.Clipping

/-!
# Sprites drawn over one another

A pixel is inverted once for every sprite that covers it, so that after any number of drawings the
parity of the coverings is all that counts (`isLit_drawAll`). A binary bitmap is known by its lit
pixels (`IsBinary.ext`); hence sprites can be drawn in any order, and drawing them all again, in
whatever order, takes them away (`sprites_superpose`). The collisions do depend on the order. Those
of a sprite drawn twice in a row tell whether it covers a lit pixel and whether it covers a dark
one.
-/

namespace Chip8

/-- A sprite and the place of its top left corner. -/
structure Placement where
  col : Nat
  row : Nat
  sprite : Bytes

/-- Whether the placed sprite has a pixel at column `c` and row `r`. -/
def Placement.covers (p : Placement) (c r : Nat) : Bool :=
  Sprite.covers p.col p.row p.sprite c r

namespace Bitmap

/-- Draws a placed sprite. The flag says whether any lit pixel went dark. -/
def draw (b : Bitmap) (p : Placement) : Bitmap × Bool :=
  b.composite p.col p.row p.sprite

/-- The bitmap after placed sprites have been drawn one after another. -/
def drawAll (b : Bitmap) : List Placement → Bitmap
  | [] => b
  | p :: rest => (b.draw p).1.drawAll rest

/-! ## Binary bitmaps by their lit pixels -/

/-- The pixel at a place of the array is the one of its column and row. -/
theorem isLit_mod_div (b : Bitmap) {i : Nat} (hi : i < b.pixels.size) :
    i % b.width < b.width ∧ i / b.width < b.height ∧
      b.isLit (i % b.width) (i / b.width) = (b.pixels[i] != 0) := by
  have hlt : i < b.width * b.height := b.size_pixels ▸ hi
  have hwidth : 0 < b.width := Nat.pos_of_ne_zero fun h => by simp [h] at hlt
  have hc : i % b.width < b.width := Nat.mod_lt i hwidth
  have hr : i / b.width < b.height := Nat.div_lt_of_lt_mul hlt
  refine ⟨hc, hr, ?_⟩
  rw [isLit_of_lt b hc hr, Nat.div_add_mod', Array.getElem?_eq_getElem hi, Option.getD_some]

/-- Of a byte that is 0 or 1 it is enough to know whether it is 0. -/
theorem eq_of_bne_zero_eq {p q : UInt8} (hp : p = 0 ∨ p = 1) (hq : q = 0 ∨ q = 1)
    (h : (p != 0) = (q != 0)) : p = q := by
  rcases hp with rfl | rfl
  · rcases hq with rfl | rfl
    · rfl
    · cases h
  · rcases hq with rfl | rfl
    · cases h
    · rfl

/-- **Binary bitmaps of one size with the same lit pixels are equal**, byte by byte. -/
theorem IsBinary.ext {b b' : Bitmap} (hb : b.IsBinary) (hb' : b'.IsBinary)
    (hwidth : b.width = b'.width) (hheight : b.height = b'.height)
    (hlit : ∀ c < b.width, ∀ r < b.height, b.isLit c r = b'.isLit c r) : b = b' := by
  have hsize : b.pixels.size = b'.pixels.size := by
    rw [b.size_pixels, b'.size_pixels, hwidth, hheight]
  have hpixels : b.pixels = b'.pixels := by
    refine Array.ext hsize fun i hi hi' => ?_
    obtain ⟨hc, hr, hplace⟩ := b.isLit_mod_div hi
    obtain ⟨-, -, hplace'⟩ := b'.isLit_mod_div hi'
    refine eq_of_bne_zero_eq (hb _ (Array.getElem_mem hi)) (hb' _ (Array.getElem_mem hi')) ?_
    rw [← hplace, ← hplace', ← hwidth]
    exact hlit _ hc _ hr
  obtain ⟨width, height, pixels, hcount⟩ := b
  obtain ⟨width', height', pixels', hcount'⟩ := b'
  obtain rfl : width = width' := hwidth
  obtain rfl : height = height' := hheight
  obtain rfl : pixels = pixels' := hpixels
  rfl

/-! ## Drawing many sprites -/

@[simp]
theorem width_draw (b : Bitmap) (p : Placement) : (b.draw p).1.width = b.width :=
  width_composite b _ _ _

@[simp]
theorem height_draw (b : Bitmap) (p : Placement) : (b.draw p).1.height = b.height :=
  height_composite b _ _ _

@[simp]
theorem width_drawAll (b : Bitmap) (ps : List Placement) : (b.drawAll ps).width = b.width := by
  induction ps generalizing b with
  | nil => rfl
  | cons p rest ih => rw [drawAll, ih, width_draw]

@[simp]
theorem height_drawAll (b : Bitmap) (ps : List Placement) : (b.drawAll ps).height = b.height := by
  induction ps generalizing b with
  | nil => rfl
  | cons p rest ih => rw [drawAll, ih, height_draw]

theorem IsBinary.drawAll {b : Bitmap} (h : b.IsBinary) (ps : List Placement) :
    (b.drawAll ps).IsBinary := by
  induction ps generalizing b with
  | nil => exact h
  | cons p rest ih => exact ih (h.composite p.col p.row p.sprite)

theorem drawAll_append (b : Bitmap) (ps qs : List Placement) :
    b.drawAll (ps ++ qs) = (b.drawAll ps).drawAll qs := by
  induction ps generalizing b with
  | nil => rfl
  | cons p rest ih => exact ih (b.draw p).1

/-- **A pixel is inverted as often as it is covered.** -/
theorem isLit_drawAll {b : Bitmap} (ps : List Placement) {c r : Nat} (hc : c < b.width)
    (hr : r < b.height) :
    (b.drawAll ps).isLit c r =
      (b.isLit c r ^^ decide ((ps.countP fun p => p.covers c r) % 2 = 1)) := by
  induction ps generalizing b with
  | nil => simp [drawAll]
  | cons p rest ih =>
    have hdraw : (b.draw p).1.isLit c r = (b.isLit c r ^^ p.covers c r) :=
      isLit_composite_eq_xor p.col p.row p.sprite hc hr
    rw [drawAll, ih (by simpa using hc) (by simpa using hr), hdraw, List.countP_cons,
      Bool.xor_assoc]
    congr 1
    cases p.covers c r with
    | false => simp
    | true =>
      rw [if_pos rfl, Bool.true_xor, ← decide_not]
      exact decide_eq_decide.2 (by omega)

/-- Sprites that cover every pixel equally often, up to parity, come to the same. -/
theorem IsBinary.drawAll_congr {b : Bitmap} (hb : b.IsBinary) {ps qs : List Placement}
    (h : ∀ c r, (ps.countP fun p => p.covers c r) % 2 = (qs.countP fun p => p.covers c r) % 2) :
    b.drawAll ps = b.drawAll qs := by
  refine (hb.drawAll ps).ext (hb.drawAll qs) (by simp) (by simp) fun c hc r hr => ?_
  rw [width_drawAll] at hc
  rw [height_drawAll] at hr
  rw [isLit_drawAll ps hc hr, isLit_drawAll qs hc hr, h c r]

/-- The order of drawings does not matter. -/
theorem IsBinary.drawAll_perm {b : Bitmap} (hb : b.IsBinary) {ps qs : List Placement}
    (h : ps.Perm qs) : b.drawAll ps = b.drawAll qs :=
  hb.drawAll_congr fun c r => by rw [h.countP_eq]

/-- Drawing everything a second time takes it away. -/
theorem IsBinary.drawAll_drawAll_perm {b : Bitmap} (hb : b.IsBinary) {ps qs : List Placement}
    (h : ps.Perm qs) : (b.drawAll ps).drawAll qs = b := by
  have hnone : b.drawAll (ps ++ qs) = b.drawAll [] := by
    refine hb.drawAll_congr fun c r => ?_
    rw [List.countP_append, h.countP_eq, List.countP_nil]
    omega
  rw [← drawAll_append, hnone]
  rfl

/-! ## Collisions -/

theorem snd_draw (b : Bitmap) (p : Placement) :
    (b.draw p).2 = true ↔ ∃ c r, p.covers c r = true ∧ b.isLit c r = true :=
  snd_composite b p.col p.row p.sprite

/-- A pixel is turned on if and only if it is covered and was dark. -/
theorem turnsOn_iff (b : Bitmap) (p : Placement) (c r : Nat) :
    b.isLit c r = false ∧ (b.draw p).1.isLit c r = true ↔
      p.covers c r = true ∧ (b.draw p).1.isLit c r = true := by
  rw [draw, isLit_composite, ← Placement.covers]
  by_cases h : p.covers c r = true ∧ c < b.width ∧ r < b.height
  · simp [h]
  · rw [if_neg h]
    constructor
    · rintro ⟨hdark, hlit⟩
      rw [hdark] at hlit
      cases hlit
    · rintro ⟨hcovers, hlit⟩
      exact absurd ⟨hcovers, lt_of_isLit hlit⟩ h

/-- The second drawing of a sprite collides with what the first one turned on. -/
theorem snd_draw_draw (b : Bitmap) (p : Placement) :
    ((b.draw p).1.draw p).2 = true ↔
      ∃ c r, b.isLit c r = false ∧ (b.draw p).1.isLit c r = true := by
  rw [snd_draw]
  simp only [turnsOn_iff]

/-- Of two drawings of a sprite one collides, unless the bitmap shows nothing of it. -/
theorem snd_draw_or_snd_draw_draw (b : Bitmap) (p : Placement) :
    (b.draw p).2 = true ∨ ((b.draw p).1.draw p).2 = true ↔
      ∃ c < b.width, ∃ r < b.height, p.covers c r = true := by
  rw [snd_draw, snd_draw]
  constructor
  · rintro (⟨c, r, hcovers, hlit⟩ | ⟨c, r, hcovers, hlit⟩)
    · obtain ⟨hc, hr⟩ := lt_of_isLit hlit
      exact ⟨c, hc, r, hr, hcovers⟩
    · obtain ⟨hc, hr⟩ := lt_of_isLit hlit
      rw [width_draw] at hc
      rw [height_draw] at hr
      exact ⟨c, hc, r, hr, hcovers⟩
  · rintro ⟨c, hc, r, hr, hcovers⟩
    -- the pixel is lit before the first drawing, or else before the second
    cases hlit : b.isLit c r with
    | true => exact .inl ⟨c, r, hcovers, hlit⟩
    | false =>
      have hon : (b.draw p).1.isLit c r = true := by
        have hdraw := isLit_composite_eq_xor p.col p.row p.sprite hc hr
        rw [hlit, Bool.false_xor] at hdraw
        exact hdraw.trans hcovers
      exact .inr ⟨c, r, hcovers, hon⟩

/-- **Sprites superpose**, on every bitmap of any size and wherever they are placed: they can be
drawn in any order, and drawing them all again in any order restores the bitmap byte by byte. When
one sprite is drawn twice in a row, the second drawing collides if and only if the first one turned
a pixel on, and one of the two collides if and only if some of the sprite is on the bitmap. -/
theorem sprites_superpose {width height : Nat} {b : Bitmap} (hb : Made width height b) :
    (∀ ps qs : List Placement, ps.Perm qs →
      b.drawAll ps = b.drawAll qs ∧ (b.drawAll ps).drawAll qs = b) ∧
    ∀ p : Placement,
      (((b.draw p).1.draw p).2 = true ↔
        ∃ c r, b.isLit c r = false ∧ (b.draw p).1.isLit c r = true) ∧
      ((b.draw p).2 = true ∨ ((b.draw p).1.draw p).2 = true ↔
        ∃ c < b.width, ∃ r < b.height, p.covers c r = true) :=
  ⟨fun _ _ h => ⟨hb.isBinary.drawAll_perm h, hb.isBinary.drawAll_drawAll_perm h⟩,
    fun p => ⟨snd_draw_draw b p, snd_draw_or_snd_draw_draw b p⟩⟩

/-- On three columns and two rows with two lit pixels, two sprites that overlap and stick out to the
right can be drawn in either order and taken away in the other. The second drawing of the first
sprite collides. -/
theorem sprites_superpose_overlapping :
    let b := ((blank 3 2).composite 0 0 [0xA0]).1
    let p : Placement := ⟨1, 0, [0xC0, 0xFF]⟩
    let q : Placement := ⟨0, 1, [0xFF]⟩
    [p, q].Perm [q, p] ∧ b.drawAll [p, q] = b.drawAll [q, p] ∧
      (b.drawAll [p, q]).drawAll [q, p] = b ∧ ((b.draw p).1.draw p).2 = true := by
  intro b p q
  have hswap : [p, q].Perm [q, p] := .swap q p []
  obtain ⟨hperm, htwice⟩ := sprites_superpose (.composite .blank 0 0 [0xA0]) (b := b)
  obtain ⟨horder, hback⟩ := hperm [p, q] [q, p] hswap
  have hturned : b.isLit 1 0 = false ∧ (b.draw p).1.isLit 1 0 = true := by decide +kernel
  exact ⟨hswap, horder, hback, (htwice p).1.2 ⟨1, 0, hturned⟩⟩

end Bitmap

end Chip8
