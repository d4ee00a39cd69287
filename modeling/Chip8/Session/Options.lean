import Chip8.Bitmap.Color

/-!
# Session options

How fast a session runs, how often it refreshes the keys and in which colour it shows the screen.
The rates count as at least one, so an interval is never divided by zero and never zero.
-/

namespace Chip8

/-- What a session can be asked for. -/
structure Options where
  /-- The wanted number of cycles per second. -/
  cyclesPerSecond : Nat
  /-- The wanted number of keypad refreshes per second. -/
  refreshesPerSecond : Nat
  /-- The colour of lit pixels in the snapshot. -/
  color : Color
  deriving DecidableEq

namespace Options

/-- What a session gets if nothing else is asked for. -/
def standard : Options where
  cyclesPerSecond := 480
  refreshesPerSecond := 60
  color := Color.white

/-- The number of cycles per second that is aimed at. -/
def rate (o : Options) : Nat :=
  max o.cyclesPerSecond 1

/-- The number of cycles from one keypad refresh to the next. -/
def refreshInterval (o : Options) : Nat :=
  max (o.rate / max o.refreshesPerSecond 1) 1

/-- Whether the keypad is refreshed before cycle `cycle`, counted from zero. -/
def refreshDue (o : Options) (cycle : Nat) : Bool :=
  cycle % o.refreshInterval == 0

theorem rate_pos (o : Options) : 0 < o.rate := by
  unfold rate
  omega

theorem refreshInterval_pos (o : Options) : 0 < o.refreshInterval := by
  unfold refreshInterval
  omega

/-- The keypad is refreshed before the very first cycle. -/
@[simp]
theorem refreshDue_zero (o : Options) : o.refreshDue 0 = true := by
  simp [refreshDue]

end Options

end Chip8
