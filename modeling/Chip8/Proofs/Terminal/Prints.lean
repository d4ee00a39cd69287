import Chip8.Proofs.Bitmap.Superposition
import Chip8.Terminal.View

/-!
# What a view prints

A view is asked for one cell at a time or drawn as a whole, and either way it looks its cells up in
a flat array, with 64 bits for every number (`cell?`). On a bitmap of a size that 64 bits can
number, no look-up fails and the cell found is that of the bitmap (`cell?_ofBitmap`), so that the
loops of `draw` hand exactly `prints` to the printer (`draw_eq`). These are the lit cells, row by
row from the left, and from them the bitmap can be told (`view_shows_its_bitmap`).
-/

namespace Chip8

/-- Whether the pixel at column `col` and row `row` is lit, looked up with 64 bits for every number;
outside of the bitmap none is. -/
def Bitmap.isLitChecked (b : Bitmap) (col row : Nat) : Option Bool :=
  if b.width ≤ col ∨ b.height ≤ row then
    some false
  else do
    let start ← word64 (row * b.width)
    let place ← word64 (start + col)
    let p ← b.pixels[place]?
    some (p != 0)

/-- A bitmap finds its pixels. -/
theorem Bitmap.isLitChecked_eq {b : Bitmap} (h : b.Addressable) (col row : Nat) :
    b.isLitChecked col row = some (b.isLit col row) := by
  unfold isLitChecked
  by_cases hout : b.width ≤ col ∨ b.height ≤ row
  · rw [if_pos hout, isLit_of_not_lt b (by omega)]
  · have hc : col < b.width := by omega
    have hr : row < b.height := by omega
    have hi := b.index_lt hc hr
    have hplace : row * b.width + col < 2 ^ 64 := Nat.lt_trans hi h.size_lt
    have hstart : row * b.width < 2 ^ 64 := Nat.lt_of_le_of_lt (Nat.le_add_right _ _) hplace
    rw [if_neg hout, word64_of_lt hstart, Option.bind_eq_bind, Option.bind_some,
      word64_of_lt hplace, Option.bind_some, isLit_of_lt b hc hr, Array.getElem?_eq_getElem hi]
    rfl

namespace Terminal

open Bitmap (word64 word64_of_lt)
open View (Print)

/-- What a view is drawn on: it takes prints one after another, each in a style, and keeps a record
of them. -/
structure Printer where
  State : Type
  print : Style → Print → State → State
  /-- The prints taken so far, in order. -/
  record : State → List Print

namespace Printer

/-- The printer records its prints as they come. -/
def Records (P : Printer) : Prop :=
  ∀ style p s, P.record (P.print style p s) = P.record s ++ [p]

/-- Takes prints one after another, in the style of views. -/
def printAll (P : Printer) (s : P.State) (prints : List Print) : P.State :=
  prints.foldl (fun s p => P.print View.style p s) s

/-- The printer that is nothing but its record. -/
def recorder : Printer where
  State := List Print
  print _ p s := s ++ [p]
  record s := s

theorem records_recorder : recorder.Records := fun _ _ _ => rfl

theorem printAll_append (P : Printer) (s : P.State) (prints later : List Print) :
    P.printAll s (prints ++ later) = P.printAll (P.printAll s prints) later :=
  List.foldl_append

theorem Records.record_printAll {P : Printer} (hP : P.Records) (s : P.State)
    (prints : List Print) : P.record (P.printAll s prints) = P.record s ++ prints := by
  induction prints generalizing s with
  | nil => exact (List.append_nil _).symm
  | cons p rest ih =>
    refine (ih (P.print View.style p s)).trans ?_
    rw [hP, List.append_assoc]
    rfl

end Printer

namespace View

/-! ## Looking cells up -/

/-- The cell at column `col` and row `row`, if the array has a place for it. -/
def cell? (v : View) (col row : Nat) : Option Bool := do
  let start ← word64 (v.width * row)
  let place ← word64 (col + start)
  v.cells[place]?

/-- Whether the cell at column `col` and row `row` is lit; outside of the view none is. -/
def isLitChecked (v : View) (col row : Nat) : Option Bool :=
  if col < v.width ∧ row < v.height then v.cell? col row else some false

theorem isLit_ofBitmap (b : Bitmap) (col row : Nat) :
    (ofBitmap b).isLit col row = b.isLit col row := by
  unfold isLit
  by_cases h : col < b.width ∧ row < b.height
  · have hi := b.index_lt h.1 h.2
    simp [ofBitmap, Bitmap.isLit_of_lt b h.1 h.2, h, hi]
  · have hout : decide (col < (ofBitmap b).width ∧ row < (ofBitmap b).height) = false :=
      decide_eq_false h
    rw [Bitmap.isLit_of_not_lt b h, ← Bool.decide_and, hout, Bool.false_and]

/-- The place looked up in the view is that of the pixel. -/
theorem cell?_ofBitmap {b : Bitmap} (h : b.Addressable) {col row : Nat} (hc : col < b.width)
    (hr : row < b.height) : (ofBitmap b).cell? col row = some (b.isLit col row) := by
  have hi := b.index_lt hc hr
  have hplace : row * b.width + col < 2 ^ 64 := Nat.lt_trans hi h.size_lt
  have hstart : row * b.width < 2 ^ 64 := Nat.lt_of_le_of_lt (Nat.le_add_right _ _) hplace
  unfold cell? ofBitmap
  rw [Nat.mul_comm, word64_of_lt hstart, Option.bind_eq_bind, Option.bind_some, Nat.add_comm,
    word64_of_lt hplace, Option.bind_some, Bitmap.isLit_of_lt b hc hr, Array.getElem?_map,
    Array.getElem?_eq_getElem hi]
  rfl

theorem isLitChecked_ofBitmap {b : Bitmap} (h : b.Addressable) (col row : Nat) :
    (ofBitmap b).isLitChecked col row = some (b.isLit col row) := by
  by_cases hlt : col < b.width ∧ row < b.height
  · exact (if_pos hlt).trans (cell?_ofBitmap h hlt.1 hlt.2)
  · rw [Bitmap.isLit_of_not_lt b hlt]
    exact if_neg hlt

/-! ## Drawing -/

/-- Draws columns `col` to `col + n - 1` of a row, from the left. -/
def drawRow (P : Printer) (v : View) (row : Nat) : Nat → Nat → P.State → Option P.State
  | _, 0, s => some s
  | col, n + 1, s => do
    let lit ← v.cell? col row
    drawRow P v row (col + 1) n (if lit then P.print style ⟨col, row, " "⟩ s else s)

/-- Draws rows `row` to `row + n - 1`, from the top. -/
def drawRows (P : Printer) (v : View) : Nat → Nat → P.State → Option P.State
  | _, 0, s => some s
  | row, n + 1, s => do
    let s ← v.drawRow P row 0 v.width s
    drawRows P v (row + 1) n s

/-- Draws the whole view. -/
def draw (P : Printer) (v : View) (s : P.State) : Option P.State :=
  v.drawRows P 0 v.height s

/-- The prints of columns `col` to `col + n - 1` of a row. -/
def rowPrints (v : View) (row col n : Nat) : List Print :=
  ((List.range' col n).filter fun c => v.isLit c row).map fun c => ⟨c, row, " "⟩

theorem rowPrints_succ (v : View) (row col n : Nat) :
    v.rowPrints row col (n + 1) =
      if v.isLit col row then ⟨col, row, " "⟩ :: v.rowPrints row (col + 1) n
      else v.rowPrints row (col + 1) n := by
  unfold rowPrints
  rw [List.range'_succ, List.filter_cons]
  cases v.isLit col row with
  | true => rfl
  | false => rfl

theorem prints_eq (v : View) :
    v.prints = (List.range' 0 v.height).flatMap fun row => v.rowPrints row 0 v.width := by
  unfold prints rowPrints
  rw [List.range_eq_range', List.range_eq_range']

section Drawing

variable {b : Bitmap} (h : b.Addressable) (P : Printer)

include h

/-- **The loop over a row** looks up no cell that the view has not. -/
theorem drawRow_eq {row : Nat} (hr : row < b.height) {col n : Nat} (hn : col + n = b.width)
    (s : P.State) :
    (ofBitmap b).drawRow P row col n s =
      some (P.printAll s ((ofBitmap b).rowPrints row col n)) := by
  induction n generalizing col s with
  | zero => rfl
  | succ n ih =>
    rw [drawRow, cell?_ofBitmap h (by omega) hr, Option.bind_eq_bind, Option.bind_some,
      ih (by omega), rowPrints_succ, isLit_ofBitmap]
    cases b.isLit col row with
    | true => rfl
    | false => rfl

/-- **The loop over the rows.** -/
theorem drawRows_eq {row n : Nat} (hn : row + n = b.height) (s : P.State) :
    (ofBitmap b).drawRows P row n s =
      some (P.printAll s ((List.range' row n).flatMap fun r =>
        (ofBitmap b).rowPrints r 0 b.width)) := by
  induction n generalizing row s with
  | zero => rfl
  | succ n ih =>
    have hwidth : 0 + (ofBitmap b).width = b.width := Nat.zero_add _
    rw [drawRows, drawRow_eq h P (by omega) hwidth, Option.bind_eq_bind, Option.bind_some,
      ih (by omega), List.range'_succ, List.flatMap_cons, P.printAll_append]
    rfl

/-- **Drawing** comes to the prints of the view. -/
theorem draw_eq (s : P.State) :
    (ofBitmap b).draw P s = some (P.printAll s (ofBitmap b).prints) := by
  rw [prints_eq]
  exact drawRows_eq h P (Nat.zero_add _) s

end Drawing

/-! ## The prints of a view -/

theorem mem_prints_iff (v : View) (p : Print) :
    p ∈ v.prints ↔
      p.text = " " ∧ p.col < v.width ∧ p.row < v.height ∧ v.isLit p.col p.row = true := by
  obtain ⟨col, row, text⟩ := p
  simp only [prints, List.mem_flatMap, List.mem_map, List.mem_filter, List.mem_range,
    Print.mk.injEq]
  constructor
  · rintro ⟨row, hrow, col, ⟨hcol, hlit⟩, rfl, rfl, rfl⟩
    exact ⟨rfl, hcol, hrow, hlit⟩
  · rintro ⟨rfl, hcol, hrow, hlit⟩
    exact ⟨row, hrow, col, ⟨hcol, hlit⟩, rfl, rfl, rfl⟩

/-- A print comes before another one if it is further up, or in the same row and further left. -/
def Print.Before (p q : Print) : Prop :=
  p.row < q.row ∨ p.row = q.row ∧ p.col < q.col

/-- Every print comes before all later ones. -/
theorem pairwise_prints (v : View) : v.prints.Pairwise Print.Before := by
  unfold prints
  rw [List.pairwise_flatMap]
  constructor
  · intro row _
    rw [List.pairwise_map]
    exact (List.pairwise_lt_range.filter _).imp fun hlt => .inr ⟨rfl, hlt⟩
  · refine List.pairwise_lt_range.imp fun hlt p hp q hq => .inl ?_
    obtain ⟨col, -, rfl⟩ := List.mem_map.1 hp
    obtain ⟨col', -, rfl⟩ := List.mem_map.1 hq
    exact hlt

/-- The prints show the bitmap: one blank for every lit pixel, row by row from the left. -/
structure Paints (b : Bitmap) (prints : List Print) : Prop where
  mem_iff : ∀ p, p ∈ prints ↔ p.text = " " ∧ b.isLit p.col p.row = true
  /-- The prints are in order, -/
  pairwise : prints.Pairwise Print.Before
  /-- and none is made twice. -/
  nodup : prints.Nodup

theorem paints_prints (b : Bitmap) : Paints b (ofBitmap b).prints where
  mem_iff p := by
    rw [mem_prints_iff, isLit_ofBitmap]
    refine and_congr_right fun _ => ⟨fun h => h.2.2, fun h => ?_⟩
    obtain ⟨hc, hr⟩ := Bitmap.lt_of_isLit h
    exact ⟨hc, hr, h⟩
  pairwise := pairwise_prints _
  nodup := (pairwise_prints _).imp fun {p q} hpq => by
    rintro rfl
    unfold Print.Before at hpq
    omega

/-- **A binary bitmap is known by its prints.** -/
theorem Paints.eq_of_eq {b b' : Bitmap} {prints : List Print} (h : Paints b prints)
    (h' : Paints b' prints) (hb : b.IsBinary) (hb' : b'.IsBinary) (hwidth : b.width = b'.width)
    (hheight : b.height = b'.height) : b = b' := by
  refine hb.ext hb' hwidth hheight fun c _ r _ => ?_
  have hmem := (h.mem_iff ⟨c, r, " "⟩).symm.trans (h'.mem_iff ⟨c, r, " "⟩)
  simpa using hmem

/-- What the view of a bitmap shows. -/
structure Shows (v : View) (b : Bitmap) : Prop where
  /-- The view and the bitmap find all their cells, with 64 bits for every number, and agree. -/
  isLitChecked_eq : ∀ col row : UInt64,
    v.isLitChecked col.toNat row.toNat = some (b.isLit col.toNat row.toNat) ∧
      b.isLitChecked col.toNat row.toNat = some (b.isLit col.toNat row.toNat)
  isLit_eq : ∀ col row, v.isLit col row = b.isLit col row
  /-- There is nothing to be seen outside. -/
  isLit_outside : ∀ {col row}, b.width ≤ col ∨ b.height ≤ row → v.isLit col row = false
  /-- Drawing gets through, and the printer has its prints on record. -/
  draw : ∀ {P : Printer}, P.Records → ∀ s, ∃ s', v.draw P s = some s' ∧
    P.record s' = P.record s ++ v.prints
  paints : Paints b v.prints
  /-- The view needs the size of the bitmap, whatever it is offered, and prints nowhere else. -/
  requiredSize_eq : ∀ offered, v.requiredSize offered = (b.width, b.height)
  within : ∀ p ∈ v.prints, ∀ offered,
    p.col < (v.requiredSize offered).1 ∧ p.row < (v.requiredSize offered).2

/-- **A view shows its bitmap**, for every bitmap of a size that 64 bits can number. Bitmaps of one
size have the same prints if and only if they are the same. -/
theorem view_shows_its_bitmap {width height : UInt64}
    (hsize : width.toNat * height.toNat < 2 ^ 64) {b : Bitmap}
    (hb : b.Made width.toNat height.toNat) :
    (ofBitmap b).Shows b ∧
      ∀ {b' : Bitmap}, b'.Made width.toNat height.toNat →
        ((ofBitmap b).prints = (ofBitmap b').prints ↔ b = b') := by
  have haddressable := hb.addressable hsize
  constructor
  · exact {
      isLitChecked_eq := fun col row =>
        ⟨isLitChecked_ofBitmap haddressable _ _, Bitmap.isLitChecked_eq haddressable _ _⟩
      isLit_eq := isLit_ofBitmap b
      isLit_outside := fun {col row} hout => by
        rw [isLit_ofBitmap]
        exact Bitmap.isLit_of_not_lt b (by omega)
      draw := fun {P} hP s =>
        ⟨_, draw_eq haddressable P s, hP.record_printAll s (ofBitmap b).prints⟩
      paints := paints_prints b
      requiredSize_eq := fun _ => rfl
      within := fun p hp _ => by
        obtain ⟨-, hc, hr, -⟩ := (mem_prints_iff _ p).1 hp
        exact ⟨hc, hr⟩ }
  · intro b' hb'
    constructor
    · intro hprints
      have hpaints : Paints b (ofBitmap b').prints := hprints ▸ paints_prints b
      exact hpaints.eq_of_eq (paints_prints b') hb.isBinary hb'.isBinary
        (hb.width_eq.trans hb'.width_eq.symm) (hb.height_eq.trans hb'.height_eq.symm)
    · rintro rfl
      rfl

/-- On three columns and two rows, the pixels of a sprite at the bottom right are printed from the
left to the right. A blank bitmap has other prints. -/
theorem view_shows_its_bitmap_corner :
    let b := ((Bitmap.blank 3 2).composite 1 1 [0xFF]).1
    (∃ s, (ofBitmap b).draw Printer.recorder [] = some s ∧
      Printer.recorder.record s = [⟨1, 1, " "⟩, ⟨2, 1, " "⟩]) ∧
      (ofBitmap b).isLitChecked (2 ^ 64 - 1) (2 ^ 64 - 1) = some false ∧
      (ofBitmap b).prints ≠ (ofBitmap (Bitmap.blank 3 2)).prints := by
  intro b
  have hsize : (3 : UInt64).toNat * (2 : UInt64).toNat < 2 ^ 64 := by decide
  have hmade : b.Made (3 : UInt64).toNat (2 : UInt64).toNat := .composite .blank 1 1 [0xFF]
  obtain ⟨hshows, hknown⟩ := view_shows_its_bitmap hsize hmade
  obtain ⟨s, hdraw, hrecord⟩ := hshows.draw Printer.records_recorder []
  have hprints : (ofBitmap b).prints = [⟨1, 1, " "⟩, ⟨2, 1, " "⟩] := by decide +kernel
  refine ⟨⟨s, hdraw, hrecord.trans hprints⟩, ?_, ?_⟩
  · have hcorner := (hshows.isLitChecked_eq (-1) (-1)).1
    rw [Bitmap.isLit_of_not_lt b (by decide +kernel)] at hcorner
    exact hcorner
  · intro hprints'
    have hblank : (Bitmap.blank 3 2).Made (3 : UInt64).toNat (2 : UInt64).toNat := .blank
    have hne : b ≠ Bitmap.blank 3 2 := by decide +kernel
    exact hne ((hknown hblank).1 hprints')

end View

end Terminal

end Chip8
