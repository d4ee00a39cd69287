import Chip8.Bitmap
import Chip8.Keypad

/-!
# Callbacks

What a session calls back with: a changed screen, the keys to be refreshed, the end of a sound. A
callback is a machine of its own that keeps a state from call to call and may crash instead of
answering; a `Signal` records one call.
-/

namespace Chip8

/-- Something that is called with an argument again and again. -/
structure Callback (α β : Type) where
  /-- What the callback remembers from call to call. -/
  State : Type
  state : State
  /-- The answer to a call and what is remembered then, or nothing if the callback crashes. -/
  respond : State → α → Option (β × State)

/-- Calls the callback. There is an answer, along with the callback for the next call, unless it
crashes. -/
def Callback.call {α β : Type} (callback : Callback α β) (argument : α) :
    Option (β × Callback α β) :=
  (callback.respond callback.state argument).map fun (answer, state) =>
    (answer, { callback with state := state })

/-- The callback that takes note of nothing and never crashes. -/
def Callback.ignore {α : Type} : Callback α Unit where
  State := Unit
  state := ()
  respond _ _ := some ((), ())

/-- A call of a callback. -/
inductive Signal
  /-- The callback for keys was called when these keys were set. -/
  | keypad (keys : Keypad)
  /-- The callback for screens was called with this one. -/
  | screen (screen : Bitmap)
  /-- The callback for sound was called. -/
  | sound
  deriving DecidableEq

/-- A callback to be attached to a session. -/
inductive Attachment
  /-- Is called with every changed screen. -/
  | screen (callback : Callback Bitmap Unit)
  /-- Turns the current keys into the refreshed ones. -/
  | keypad (callback : Callback Keypad Keypad)
  /-- Is called whenever the sound timer runs out. -/
  | sound (callback : Callback Unit Unit)

end Chip8
