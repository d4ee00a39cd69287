import Chip8.Bitmap.Sprite
import Chip8.Text.Decimal

/-!
# Bitmaps

A grid of pixels stored row by row, one intensity byte a pixel: zero is dark and anything else is
lit. Sprites are drawn by inverting the pixels they cover (`composite`); what lies beyond the right
or the bottom edge is cut off. `isLit_invert` and `isLit_composite` say what drawing does to every
pixel, `snd_invert` and `snd_composite` what it reports.
-/

namespace Chip8

/-- A grid of pixels, row by row from the top, each row from the left. -/
structure Bitmap where
  width : Nat
  height : Nat
  pixels : Array UInt8
  size_pixels : pixels.size = width * height
  deriving DecidableEq

namespace Bitmap

/-- Why an access to a bitmap is refused. -/
inductive AccessError
  /-- No pixel has this column and row. -/
  | outOfRange (col row : Nat)
  /-- The buffer for the packed colours has another length than they need. -/
  | bufferSize (expected actual : Nat)
  deriving DecidableEq

/-- The text of the error. -/
def AccessError.message : AccessError → String
  | .outOfRange col row => s!"Pixel ({col}, {row}) is out of range."
  | .bufferSize expected actual => s!"Output buffer has {actual} bytes, expected {expected}."

namespace AccessError

theorem words_message (e : AccessError) :
    words e.message =
      match e with
      | outOfRange col row =>
        ["Pixel", "(" ++ toString col ++ ",", toString row ++ ")", "is", "out", "of", "range."]
      | bufferSize expected actual =>
        ["Output", "buffer", "has", toString actual, "bytes,", "expected",
          toString expected ++ "."] := by
  have hnumber := Decimal.blank_not_mem_toString
  cases e with
  | outOfRange col row =>
    have hcol : words ("(" ++ toString col ++ ",") = ["(" ++ toString col ++ ","] :=
      words_of_not_mem (by simpa using hnumber col)
    have hrow : words (toString row ++ ")") = [toString row ++ ")"] :=
      words_append_of_not_mem (hnumber row) (by decide)
    have htext : (outOfRange col row).message = "Pixel" ++ (" " ++ ("(" ++ toString col ++ "," ++
        (" " ++ (toString row ++ ")" ++ (" " ++ "is out of range."))))) := by
      change "Pixel" ++ " " ++ "(" ++ toString col ++ ("," ++ " ") ++ toString row ++
        (")" ++ " " ++ "is out of range.") = _
      simp only [String.append_assoc]
    rw [htext, words_append, words_append, words_append, hcol, hrow]
    rfl
  | bufferSize expected actual =>
    have hexpected : words (toString expected ++ ".") = [toString expected ++ "."] :=
      words_append_of_not_mem (hnumber expected) (by decide)
    change words ("Output buffer has" ++ " " ++ toString actual ++
      (" " ++ "bytes, expected" ++ " ") ++ toString expected ++ ".") = _
    simp only [String.append_assoc, words_append, Decimal.words_toString, hexpected]
    rfl

/-- **The message tells the error.** -/
theorem message_injective {e e' : AccessError} (h : e.message = e'.message) : e = e' := by
  have hwords := congrArg words h
  rw [words_message, words_message] at hwords
  cases e with
  | outOfRange col row =>
    cases e' with
    | outOfRange col' row' => simpa [Decimal.repr_inj] using hwords
    | bufferSize => simp at hwords
  | bufferSize expected actual =>
    cases e' with
    | outOfRange => simp at hwords
    | bufferSize expected' actual' => simpa [Decimal.repr_inj, and_comm] using hwords

end AccessError

/-- The dark bitmap of the given size. -/
def blank (width height : Nat) : Bitmap where
  width := width
  height := height
  pixels := Array.replicate (width * height) 0
  size_pixels := Array.size_replicate

/-- Turns every pixel dark. -/
def clear (b : Bitmap) : Bitmap :=
  { b with
    pixels := Array.replicate b.pixels.size 0
    size_pixels := by rw [Array.size_replicate, b.size_pixels] }

theorem index_lt (b : Bitmap) {col row : Nat} (hc : col < b.width) (hr : row < b.height) :
    row * b.width + col < b.pixels.size := by
  rw [b.size_pixels]
  calc row * b.width + col < row * b.width + b.width := by omega
    _ = (row + 1) * b.width := by rw [Nat.succ_mul]
    _ ≤ b.height * b.width := Nat.mul_le_mul_right _ hr
    _ = b.width * b.height := Nat.mul_comm _ _

/-- The pixel at column `col` and row `row`. -/
def pixel (b : Bitmap) (col row : Nat) : Except AccessError UInt8 :=
  if h : col < b.width ∧ row < b.height then
    have := b.index_lt h.1 h.2
    .ok b.pixels[row * b.width + col]
  else
    .error (.outOfRange col row)

/-- Whether the pixel at column `col` and row `row` exists and is lit. -/
def isLit (b : Bitmap) (col row : Nat) : Bool :=
  match b.pixel col row with
  | .ok p => p != 0
  | .error _ => false

/-- Inverts the pixel at column `col` and row `row`, if there is one. The flag says whether a lit
pixel went dark. -/
def invert (b : Bitmap) (col row : Nat) : Bitmap × Bool :=
  if h : col < b.width ∧ row < b.height then
    have hi := b.index_lt h.1 h.2
    let wasLit := b.pixels[row * b.width + col] != 0
    ({ b with
        pixels := b.pixels.set (row * b.width + col) (if wasLit then 0 else 1)
        size_pixels := by rw [Array.size_set, b.size_pixels] }, wasLit)
  else
    (b, false)

/-- Inverts the listed pixels one after another. The flag says whether any lit pixel went dark. -/
def invertAll (b : Bitmap) : List (Nat × Nat) → Bitmap × Bool
  | [] => (b, false)
  | (col, row) :: rest =>
    let (b', wentDark) := b.invert col row
    let (b'', laterDark) := b'.invertAll rest
    (b'', wentDark || laterDark)

/-- Draws a sprite with its top left corner at column `col` and row `row` by inverting the pixels it
covers. The flag, the collision, says whether any lit pixel went dark. -/
def composite (b : Bitmap) (col row : Nat) (sprite : Bytes) : Bitmap × Bool :=
  b.invertAll (Sprite.cells col row (sprite.take (b.height - row)))

/-! ## What drawing does to a pixel -/

@[simp]
theorem width_invert (b : Bitmap) (col row : Nat) : (b.invert col row).1.width = b.width := by
  unfold invert
  split <;> rfl

@[simp]
theorem height_invert (b : Bitmap) (col row : Nat) : (b.invert col row).1.height = b.height := by
  unfold invert
  split <;> rfl

/-- Different cells have different places in the array of pixels. -/
theorem eq_of_index_eq {width col col' row row' : Nat} (hc : col < width) (hc' : col' < width)
    (h : row * width + col = row' * width + col') : col = col' ∧ row = row' := by
  have hrow : ∀ {c r : Nat}, c < width → (r * width + c) / width = r := fun {c r} h => by
    rw [Nat.mul_comm, Nat.mul_add_div (by omega), Nat.div_eq_of_lt h, Nat.add_zero]
  have hr : row = row' := by rw [← hrow hc (r := row), h, hrow hc']
  subst hr
  omega

theorem isLit_of_lt (b : Bitmap) {col row : Nat} (hc : col < b.width) (hr : row < b.height) :
    b.isLit col row = (b.pixels[row * b.width + col]?.getD 0 != 0) := by
  have hi := b.index_lt hc hr
  simp [isLit, pixel, hc, hr, hi]

theorem isLit_of_not_lt (b : Bitmap) {col row : Nat} (h : ¬(col < b.width ∧ row < b.height)) :
    b.isLit col row = false := by
  simp [isLit, pixel, h]

/-- Inverting reports a pixel that was lit. -/
theorem snd_invert (b : Bitmap) (col row : Nat) : (b.invert col row).2 = b.isLit col row := by
  by_cases h : col < b.width ∧ row < b.height
  · have hi := b.index_lt h.1 h.2
    rw [isLit_of_lt b h.1 h.2, invert, dif_pos h]
    simp [hi]
  · rw [isLit_of_not_lt b h, invert, dif_neg h]

/-- **Inverting a pixel changes that pixel only.** -/
theorem isLit_invert (b : Bitmap) (col row c r : Nat) :
    (b.invert col row).1.isLit c r =
      if c = col ∧ r = row ∧ c < b.width ∧ r < b.height then !b.isLit c r else b.isLit c r := by
  by_cases hcr : c < b.width ∧ r < b.height
  · rw [isLit_of_lt _ (by simpa using hcr.1) (by simpa using hcr.2), isLit_of_lt b hcr.1 hcr.2,
      width_invert]
    by_cases h : col < b.width ∧ row < b.height
    · have hi := b.index_lt h.1 h.2
      by_cases he : c = col ∧ r = row
      · obtain ⟨rfl, rfl⟩ := he
        rw [if_pos ⟨rfl, rfl, hcr⟩, invert, dif_pos h]
        by_cases hp : b.pixels[r * b.width + c] = 0 <;> simp [hp, hi]
      · rw [if_neg (fun e => he ⟨e.1, e.2.1⟩), invert, dif_pos h]
        have hne : row * b.width + col ≠ r * b.width + c := fun e =>
          have e' := eq_of_index_eq h.1 hcr.1 e
          he ⟨e'.1.symm, e'.2.symm⟩
        simp [Array.getElem?_set_ne hi hne]
    · rw [if_neg (fun e => h (by rw [← e.1, ← e.2.1]; exact hcr)), invert, dif_neg h]
  · rw [if_neg (fun e => hcr e.2.2), isLit_of_not_lt b hcr,
      isLit_of_not_lt _ (by simpa using hcr)]

@[simp]
theorem width_invertAll (b : Bitmap) (cells : List (Nat × Nat)) :
    (b.invertAll cells).1.width = b.width := by
  induction cells generalizing b with
  | nil => rfl
  | cons cell rest ih => simp [invertAll, ih]

@[simp]
theorem height_invertAll (b : Bitmap) (cells : List (Nat × Nat)) :
    (b.invertAll cells).1.height = b.height := by
  induction cells generalizing b with
  | nil => rfl
  | cons cell rest ih => simp [invertAll, ih]

theorem isLit_invertAll (b : Bitmap) {cells : List (Nat × Nat)} (hn : cells.Nodup) (c r : Nat) :
    (b.invertAll cells).1.isLit c r =
      if (c, r) ∈ cells ∧ c < b.width ∧ r < b.height then !b.isLit c r else b.isLit c r := by
  induction cells generalizing b with
  | nil => simp [invertAll]
  | cons cell rest ih =>
    obtain ⟨col, row⟩ := cell
    have hne := (List.nodup_cons.1 hn).1
    simp only [invertAll, ih _ (List.nodup_cons.1 hn).2, isLit_invert, width_invert, height_invert,
      List.mem_cons, Prod.mk.injEq]
    by_cases he : c = col ∧ r = row
    · obtain ⟨rfl, rfl⟩ := he
      simp [hne]
    · have : ¬(c = col ∧ r = row ∧ c < b.width ∧ r < b.height) := fun e => he ⟨e.1, e.2.1⟩
      simp [he, this]

/-- **Drawing inverts exactly the pixels that the sprite covers.** -/
theorem isLit_composite (b : Bitmap) (col row : Nat) (sprite : Bytes) (c r : Nat) :
    (b.composite col row sprite).1.isLit c r =
      if Sprite.covers col row sprite c r ∧ c < b.width ∧ r < b.height then
        !b.isLit c r
      else
        b.isLit c r := by
  rw [composite, isLit_invertAll b (Sprite.nodup_cells _ _ _)]
  by_cases h : c < b.width ∧ r < b.height
  · simp only [Sprite.mem_cells, Sprite.covers_take (show r < row + (b.height - row) by omega)]
  · rw [if_neg (fun e => h e.2), if_neg (fun e => h e.2)]

theorem lt_of_isLit {b : Bitmap} {c r : Nat} (h : b.isLit c r = true) :
    c < b.width ∧ r < b.height := by
  by_cases hlt : c < b.width ∧ r < b.height
  · exact hlt
  · rw [isLit_of_not_lt b hlt] at h
    cases h

theorem snd_invertAll (b : Bitmap) {cells : List (Nat × Nat)} (hn : cells.Nodup) :
    (b.invertAll cells).2 = true ↔ ∃ c r, (c, r) ∈ cells ∧ b.isLit c r = true := by
  induction cells generalizing b with
  | nil => simp [invertAll]
  | cons cell rest ih =>
    obtain ⟨col, row⟩ := cell
    obtain ⟨hne, hn⟩ := List.nodup_cons.1 hn
    -- a later cell is another one, so that inverting the first leaves it as it was
    have hrest : ∀ c r, (c, r) ∈ rest → (b.invert col row).1.isLit c r = b.isLit c r := by
      intro c r hm
      rw [isLit_invert, if_neg]
      rintro ⟨rfl, rfl, -⟩
      exact hne hm
    simp only [invertAll, Bool.or_eq_true, snd_invert, ih _ hn, List.mem_cons, Prod.mk.injEq]
    constructor
    · rintro (h | ⟨c, r, hm, h⟩)
      · exact ⟨col, row, .inl ⟨rfl, rfl⟩, h⟩
      · exact ⟨c, r, .inr hm, (hrest c r hm).symm.trans h⟩
    · rintro ⟨c, r, ⟨rfl, rfl⟩ | hm, h⟩
      · exact .inl h
      · exact .inr ⟨c, r, hm, (hrest c r hm).trans h⟩

/-- **Drawing reports whether the sprite covers a lit pixel.** -/
theorem snd_composite (b : Bitmap) (col row : Nat) (sprite : Bytes) :
    (b.composite col row sprite).2 = true ↔
      ∃ c r, Sprite.covers col row sprite c r = true ∧ b.isLit c r = true := by
  have hcut : ∀ c r, b.isLit c r = true →
      (Sprite.covers col row (sprite.take (b.height - row)) c r = true ↔
        Sprite.covers col row sprite c r = true) := by
    intro c r h
    have hr : r < b.height := (lt_of_isLit h).2
    rw [Sprite.covers_take (show r < row + (b.height - row) by omega)]
  rw [composite, snd_invertAll b (Sprite.nodup_cells _ _ _)]
  simp only [Sprite.mem_cells]
  constructor
  · rintro ⟨c, r, hm, h⟩
    exact ⟨c, r, (hcut c r h).1 hm, h⟩
  · rintro ⟨c, r, hm, h⟩
    exact ⟨c, r, (hcut c r h).2 hm, h⟩

/-! ## Dark bitmaps -/

theorem isLit_of_forall_eq_zero {b : Bitmap} (h : ∀ p ∈ b.pixels, p = 0) (c r : Nat) :
    b.isLit c r = false := by
  by_cases hlt : c < b.width ∧ r < b.height
  · have hi := b.index_lt hlt.1 hlt.2
    rw [isLit_of_lt b hlt.1 hlt.2, Array.getElem?_eq_getElem hi, Option.getD_some,
      h _ (Array.getElem_mem hi)]
    rfl
  · exact isLit_of_not_lt b hlt

@[simp]
theorem isLit_blank (width height c r : Nat) : (blank width height).isLit c r = false :=
  isLit_of_forall_eq_zero (fun _ hp => (Array.mem_replicate.1 hp).2) c r

@[simp]
theorem isLit_clear (b : Bitmap) (c r : Nat) : b.clear.isLit c r = false :=
  isLit_of_forall_eq_zero (fun _ hp => (Array.mem_replicate.1 hp).2) c r

end Bitmap

end Chip8
