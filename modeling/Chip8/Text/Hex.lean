import Chip8.Text.Words

/-!
# Hexadecimal numerals

Upper-case hexadecimal numerals with a least number of digits. A numeral is a word (`words_text`),
and reading it gives back the number it was written for, however far it was filled up
(`value_text`).
-/

namespace Chip8.Hex

/-- The numeral of a single digit below sixteen. -/
def digit (d : Nat) : Char :=
  if d < 10 then Char.ofNat (48 + d) else Char.ofNat (55 + d)

/-- The digits of `n` from the most significant one, at least one and no leading zeros. -/
def digits (n : Nat) : List Char :=
  if n < 16 then [digit n] else digits (n / 16) ++ [digit (n % 16)]
  termination_by n

/-- The digits of `n`, filled up with zeros on the left to at least `width` digits. -/
def padded (width n : Nat) : List Char :=
  (digits n).leftpad width '0'

/-- The text of `n` with at least `width` digits and no mark in front. -/
def text (width n : Nat) : String :=
  String.ofList (padded width n)

/-- The text of `n` as a literal: `0x` and at least `width` digits. -/
def literal (width n : Nat) : String :=
  "0x" ++ text width n

/-! ## Reading numerals back -/

/-- The value of a single upper-case digit. -/
def digitValue (c : Char) : Nat :=
  if c.toNat < 58 then c.toNat - 48 else c.toNat - 55

/-- The value of a numeral, most significant digit first. -/
def value (cs : List Char) : Nat :=
  cs.foldl (fun acc c => 16 * acc + digitValue c) 0

theorem digitValue_digit {d : Nat} (h : d < 16) : digitValue (digit d) = d := by
  have : ∀ e : Fin 16, digitValue (digit e) = e := by decide
  exact this ⟨d, h⟩

theorem digit_ne_blank {d : Nat} (h : d < 16) : ' ' ≠ digit d := by
  have : ∀ e : Fin 16, ' ' ≠ digit e := by decide
  exact this ⟨d, h⟩

/-- A numeral reads back as the number it was written for. -/
theorem value_digits (n : Nat) : value (digits n) = n := by
  fun_induction digits n with
  | case1 n h => simp [value, digitValue_digit h]
  | case2 n h ih =>
    rw [value, List.foldl_append, ← value, ih]
    simp only [List.foldl_cons, List.foldl_nil, digitValue_digit (Nat.mod_lt n (by omega))]
    omega

theorem blank_not_mem_digits (n : Nat) : ' ' ∉ digits n := by
  fun_induction digits n with
  | case1 n h => exact fun hmem => digit_ne_blank h (List.mem_singleton.1 hmem)
  | case2 n h ih =>
    rw [List.mem_append, not_or, List.mem_singleton]
    exact ⟨ih, digit_ne_blank (Nat.mod_lt n (by omega))⟩

/-- Zeros in front do not count. -/
theorem value_replicate_append (k : Nat) (cs : List Char) :
    value (List.replicate k '0' ++ cs) = value cs := by
  induction k with
  | zero => rfl
  | succ k ih => exact ih

theorem value_padded (width n : Nat) : value (padded width n) = n := by
  rw [padded, List.leftpad, value_replicate_append, value_digits]

theorem value_text (width n : Nat) : value (text width n).toList = n := by
  rw [text, String.toList_ofList, value_padded]

theorem blank_not_mem_text (width n : Nat) : ' ' ∉ (text width n).toList := by
  rw [text, String.toList_ofList, padded, List.leftpad, List.mem_append, not_or]
  exact ⟨fun h => absurd (List.eq_of_mem_replicate h) (by decide), blank_not_mem_digits n⟩

theorem blank_not_mem_literal (width n : Nat) : ' ' ∉ (literal width n).toList := by
  rw [literal, String.toList_append, List.mem_append, not_or]
  exact ⟨by decide, blank_not_mem_text width n⟩

theorem words_text (width n : Nat) : words (text width n) = [text width n] :=
  words_of_not_mem (blank_not_mem_text width n)

theorem words_literal (width n : Nat) : words (literal width n) = [literal width n] :=
  words_of_not_mem (blank_not_mem_literal width n)

theorem text_inj {width a b : Nat} : text width a = text width b ↔ a = b := by
  constructor
  · intro h
    rw [← value_text width a, h, value_text]
  · rintro rfl
    rfl

theorem literal_inj {width a b : Nat} : literal width a = literal width b ↔ a = b :=
  (String.append_right_inj "0x").trans text_inj

end Chip8.Hex
