import Chip8.Bitmap
import Chip8.Machine.State

/-!
# Views

What a terminal shows of a bitmap: a view is a copy of the screen with one cell a pixel, and it is
drawn by printing a blank in the view's style at every lit cell, row by row from the left.
-/

namespace Chip8.Terminal

/-- A colour of a terminal. -/
inductive Shade
  /-- The dark variant of black. -/
  | darkBlack
  /-- A colour of the cube with six levels in every channel. -/
  | cube (red green blue : Fin 6)
  deriving DecidableEq

/-- The name of the colour. -/
def Shade.name : Shade → String
  | darkBlack => "Dark(Black)"
  | cube red green blue => s!"RgbLowRes({red}, {green}, {blue})"

/-- The colours of the text and of what is behind it. -/
structure Style where
  front : Shade
  back : Shade
  deriving DecidableEq

/-- A bitmap as a terminal shows it. -/
structure View where
  width : Nat
  height : Nat
  /-- Whether a cell is lit, row by row from the top, each row from the left. -/
  cells : Array Bool
  deriving DecidableEq

namespace View

/-- The view of a bitmap. -/
def ofBitmap (b : Bitmap) : View where
  width := b.width
  height := b.height
  cells := b.pixels.map (· != 0)

/-- The view of a dark screen. -/
def blank : View :=
  ofBitmap (Bitmap.blank screenWidth screenHeight)

/-- Whether the cell at column `col` and row `row` exists and is lit. -/
def isLit (v : View) (col row : Nat) : Bool :=
  decide (col < v.width) && decide (row < v.height) &&
    v.cells[row * v.width + col]?.getD false

/-- The text printed at a column and a row. -/
structure Print where
  col : Nat
  row : Nat
  text : String
  deriving DecidableEq

/-- What drawing the view prints, in order. -/
def prints (v : View) : List Print :=
  (List.range v.height).flatMap fun row =>
    ((List.range v.width).filter fun col => v.isLit col row).map fun col => ⟨col, row, " "⟩

/-- The style in which the view prints: black on black. -/
def style : Style := ⟨.darkBlack, .cube 0 0 0⟩

/-- The styles in which drawing prints, without repetition. -/
def stylesUsed (v : View) : List Style :=
  if v.prints.isEmpty then [] else [style]

/-- The size that the view needs, whatever it is offered. -/
def requiredSize (v : View) (_offered : Nat × Nat) : Nat × Nat :=
  (v.width, v.height)

/-- Whether the view can have the focus. -/
def takesFocus (_ : View) : Bool := true

/-- Whether the view leaves all input to others. -/
def ignoresInput (_ : View) : Bool := true

end View

end Chip8.Terminal
