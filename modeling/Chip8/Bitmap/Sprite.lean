import Chip8.Memory

/-!
# Sprites

A sprite is a run of bytes, one a row, eight pixels wide, with the most significant bit on the left.
`Sprite.covers` says which cells of an unbounded grid a placed sprite covers, and `Sprite.cells`
lists them; `mem_cells` says that the two agree and `nodup_cells` that no cell is listed twice.
-/

namespace Chip8.Sprite

/-- The columns, counted from the left, in which a row of a sprite has a pixel. -/
def columns (row : UInt8) : List Nat :=
  (List.range 8).filter fun k => row.toNat.testBit (7 - k)

/-- The cells that a sprite covers when its top left corner is at column `col` and row `row`: from
top to bottom, in a row from left to right. -/
def cells (col row : Nat) : Bytes → List (Nat × Nat)
  | [] => []
  | b :: rest => (columns b).map (fun k => (col + k, row)) ++ cells col (row + 1) rest

/-- Whether the sprite placed at column `col` and row `row` has a pixel at column `c` and
row `r`. -/
def covers (col row : Nat) (sprite : Bytes) (c r : Nat) : Bool :=
  decide (col ≤ c ∧ c < col + 8 ∧ row ≤ r ∧ r < row + sprite.length) &&
    (sprite.getD (r - row) 0).toNat.testBit (7 - (c - col))

theorem mem_columns {b : UInt8} {k : Nat} :
    k ∈ columns b ↔ k < 8 ∧ b.toNat.testBit (7 - k) = true := by
  simp [columns]

theorem nodup_columns (b : UInt8) : (columns b).Nodup :=
  List.nodup_range.filter _

theorem mem_cells {col row : Nat} {sprite : Bytes} {c r : Nat} :
    (c, r) ∈ cells col row sprite ↔ covers col row sprite c r = true := by
  induction sprite generalizing row with
  | nil => simp [cells, covers]
  | cons b rest ih =>
    rw [cells, List.mem_append, ih, List.mem_map]
    simp only [mem_columns, Prod.mk.injEq, covers, Bool.and_eq_true, decide_eq_true_eq,
      List.length_cons]
    constructor
    · rintro (⟨k, ⟨hk, hb⟩, rfl, rfl⟩ | ⟨⟨h1, h2, h3, h4⟩, hb⟩)
      · refine ⟨by omega, ?_⟩
        simpa [Nat.add_sub_cancel_left] using hb
      · refine ⟨by omega, ?_⟩
        rw [show r - row = (r - (row + 1)) + 1 by omega]
        exact hb
    · rintro ⟨⟨h1, h2, h3, h4⟩, hb⟩
      by_cases hr : r = row
      · subst hr
        refine .inl ⟨c - col, ⟨by omega, ?_⟩, by omega, rfl⟩
        simpa using hb
      · refine .inr ⟨by omega, ?_⟩
        rw [show r - row = (r - (row + 1)) + 1 by omega] at hb
        exact hb

/-- Cutting rows off at the bottom does not matter above the cut. -/
theorem covers_take {col row : Nat} {sprite : Bytes} {c r n : Nat} (h : r < row + n) :
    covers col row (sprite.take n) c r = covers col row sprite c r := by
  unfold covers
  by_cases hr : row ≤ r
  · have hlt : r - row < n := by omega
    have hlen : r < row + (sprite.take n).length ↔ r < row + sprite.length := by
      rw [List.length_take]
      omega
    have hget : (sprite.take n).getD (r - row) 0 = sprite.getD (r - row) 0 := by
      rw [List.getD_eq_getElem?_getD, List.getD_eq_getElem?_getD, List.getElem?_take_of_lt hlt]
    simp only [hlen, hget]
  · simp [hr]

/-- A sprite covers no cell twice. -/
theorem nodup_cells (col row : Nat) (sprite : Bytes) : (cells col row sprite).Nodup := by
  induction sprite generalizing row with
  | nil => simp [cells]
  | cons b rest ih =>
    rw [cells, List.nodup_append]
    refine ⟨?_, ih (row + 1), ?_⟩
    · refine List.Pairwise.map _ ?_ (nodup_columns b)
      intro i j hij e
      exact hij (by simpa using e)
    · rintro ⟨c, r⟩ h1 ⟨c', r'⟩ h2 e
      obtain ⟨k, -, hk⟩ := List.mem_map.1 h1
      have hr := (mem_cells.1 h2)
      simp only [covers, Bool.and_eq_true, decide_eq_true_eq] at hr
      cases hk
      cases e
      omega

end Chip8.Sprite
