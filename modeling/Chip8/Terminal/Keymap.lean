import Chip8.Session

/-!
# The keyboard

The four rows of the hexadecimal keypad lie on the left side of a QWERTY keyboard:

    1 2 3 C        1 2 3 4
    4 5 6 D        q w e r
    7 8 9 E        a s d f
    A 0 B F        z x c v

A terminal does not tell when a key is let go, so one more character lets all keys go, and another
one ends the session.
-/

namespace Chip8.Terminal

/-- The characters of the keyboard and the keys they stand for. -/
def keymap : List (Char × Key) :=
  [('1', .ofByte 0x1), ('2', .ofByte 0x2), ('3', .ofByte 0x3), ('4', .ofByte 0xC),
   ('q', .ofByte 0x4), ('w', .ofByte 0x5), ('e', .ofByte 0x6), ('r', .ofByte 0xD),
   ('a', .ofByte 0x7), ('s', .ofByte 0x8), ('d', .ofByte 0x9), ('f', .ofByte 0xE),
   ('z', .ofByte 0xA), ('x', .ofByte 0x0), ('c', .ofByte 0xB), ('v', .ofByte 0xF)]

/-- The key that a character stands for, if any. -/
def keyOf? (c : Char) : Option Key :=
  keymap.lookup c

/-- What the user asks for by typing a character. -/
inductive Input
  /-- Puts a key down. -/
  | press (key : Key)
  /-- Lets all keys go. -/
  | releaseAll
  /-- Ends the session. -/
  | quit
  deriving DecidableEq

/-- What a character asks for, if anything: a blank lets all keys go, and escape ends the
session. -/
def Input.ofChar? (c : Char) : Option Input :=
  if c = ' ' then some releaseAll
  else if c = '\x1b' then some quit
  else (keyOf? c).map press

/-- What an input does to the keys of a session. -/
def Input.apply (s : Session) : Input → Session
  | press key => s.press (UInt8.ofNat key.val)
  | releaseAll => s.releaseAll
  | quit => s

/-- Every key lies somewhere on the keyboard. -/
theorem exists_keyOf?_eq (key : Key) : ∃ c, keyOf? c = some key := by
  have : ∀ key : Key, key ∈ keymap.filterMap fun p => keyOf? p.1 := by decide
  obtain ⟨p, -, hp⟩ := List.mem_filterMap.1 (this key)
  exact ⟨p.1, hp⟩

end Chip8.Terminal
