import Chip8.Text.Words

/-!
# Decimal numerals

How decimal numerals stand in a text. A numeral is a word (`words_toString`), and `number?` reads
the numeral with which a word starts (`number?_toString_append`).
-/

namespace Chip8.Decimal

/-- The number with which a word starts, if it starts with a digit. -/
def number? (word : String) : Option Nat :=
  match word.toList.takeWhile Char.isDigit with
  | [] => none
  | digits => some (Nat.ofDigitChars 10 digits 0)

theorem toList_toString (n : Nat) : (toString n).toList = Nat.toDigits 10 n := by
  rw [Nat.toString_eq_ofList_toDigits, String.toList_ofList]

theorem isDigit_of_mem_toString {n : Nat} {c : Char} (h : c ∈ (toString n).toList) :
    c.isDigit = true := by
  rw [toList_toString] at h
  exact Nat.isDigit_of_mem_toDigits (by decide) (by decide) h

theorem blank_not_mem_toString (n : Nat) : ' ' ∉ (toString n).toList :=
  fun h => absurd (isDigit_of_mem_toString h) (by decide)

theorem words_toString (n : Nat) : words (toString n) = [toString n] :=
  words_of_not_mem (blank_not_mem_toString n)

/-- A numeral and a mark behind it that is no digit make a word that starts with a number. -/
theorem number?_toString_append {mark : String} (h : mark.toList.takeWhile Char.isDigit = [])
    (n : Nat) : number? (toString n ++ mark) = some n := by
  have hdigits : (toString n ++ mark).toList.takeWhile Char.isDigit = Nat.toDigits 10 n := by
    rw [String.toList_append, List.takeWhile_append_of_pos fun c => isDigit_of_mem_toString, h,
      List.append_nil, toList_toString]
  rw [number?, hdigits]
  split
  · rename_i h
    exact absurd h Nat.toDigits_ne_nil
  · rw [Nat.ofDigitChars_ten_toDigits]

theorem repr_inj {a b : Nat} : a.repr = b.repr ↔ a = b := by
  have hvalue (n : Nat) : Nat.ofDigitChars 10 n.repr.toList 0 = n := by
    rw [← Nat.toString_eq_repr, toList_toString, Nat.ofDigitChars_ten_toDigits]
  constructor
  · intro h
    rw [← hvalue a, h, hvalue b]
  · rintro rfl
    rfl

end Chip8.Decimal
