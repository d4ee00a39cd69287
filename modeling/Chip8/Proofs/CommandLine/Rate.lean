import Chip8.CommandLine
import Mathlib.Algebra.Group.Nat.Defs
import Mathlib.Data.List.Induction

/-!
# Rates on the command line

The argument for the rate can be any text. A grammar says which texts are rates and what they denote
(`IsRate`): a numeral, in which every digit counts for a power of ten, with or without a plus sign in
front, and less than 2³². `parseRate` goes through the digits from the left and keeps the value of
those it has seen; it takes exactly these texts, each for what it denotes (`parseRate_eq_some_iff`).
They are the decimal notations of the numbers below 2³², with any number of zeros in front
(`isRate_iff_padded`).
-/

namespace Chip8.CommandLine

/-! ## Digits -/

theorem isDigit_digitChar {d : Nat} (hd : d < 10) : (Nat.digitChar d).isDigit = true :=
  Nat.isDigit_of_mem_toDigits (by decide) (Nat.le_refl 10)
    ((Nat.toDigits_of_lt_base hd).symm ▸ List.mem_singleton_self _)

theorem exists_digitChar_eq {c : Char} (h : c.isDigit = true) : ∃ d < 10, Nat.digitChar d = c := by
  have hrange : 48 ≤ c.toNat ∧ c.toNat ≤ 57 := by
    simpa [Char.isDigit, Char.le_def, UInt32.le_iff_toNat_le] using h
  have hlt : c.toNat - 48 < 10 := by omega
  refine ⟨c.toNat - 48, hlt, Char.toNat_inj.1 ?_⟩
  rw [Nat.toNat_digitChar_of_lt_ten hlt]
  omega

theorem decimalValue_eq_ofDigitChars (cs : List Char) :
    decimalValue cs = Nat.ofDigitChars 10 cs 0 :=
  Nat.ofDigitChars_eq_foldl.symm

/-- The first digit counts for a power of ten. -/
theorem decimalValue_cons {d : Nat} (hd : d < 10) (cs : List Char) :
    decimalValue (Nat.digitChar d :: cs) = d * 10 ^ cs.length + decimalValue cs := by
  rw [decimalValue_eq_ofDigitChars, decimalValue_eq_ofDigitChars,
    Nat.ofDigitChars_cons_digitChar_of_lt_ten hd, Nat.ofDigitChars_eq_ofDigitChars_zero,
    Nat.mul_zero, Nat.zero_add, Nat.mul_comm]

/-- The last digit counts for itself, and those before it for ten times as much as without it. -/
theorem decimalValue_concat {d : Nat} (hd : d < 10) (cs : List Char) :
    decimalValue (cs ++ [Nat.digitChar d]) = 10 * decimalValue cs + d := by
  simp [decimalValue, Nat.toNat_digitChar_sub_48_of_lt_ten hd]

theorem decimalValue_replicate_zero (zeros : Nat) (cs : List Char) :
    decimalValue (List.replicate zeros '0' ++ cs) = decimalValue cs := by
  induction zeros with
  | zero => rfl
  | succ zeros ih =>
    have hzero : '0' = Nat.digitChar 0 := rfl
    rw [List.replicate_succ, List.cons_append, hzero, decimalValue_cons (by decide), Nat.zero_mul,
      Nat.zero_add, ← hzero, ih]

/-! ## Numerals -/

/-- A numeral and the number that it denotes. -/
inductive Numeral : List Char → Nat → Prop
  | digit {d : Nat} (hd : d < 10) : Numeral [Nat.digitChar d] d
  /-- A digit in front of `k` others counts for the `k`-th power of ten. -/
  | lead {d : Nat} (hd : d < 10) {cs : List Char} {n : Nat} (h : Numeral cs n) :
    Numeral (Nat.digitChar d :: cs) (d * 10 ^ cs.length + n)

/-- The digits of a numeral have the value that it denotes. -/
theorem Numeral.decimalValue_eq {cs : List Char} {n : Nat} (h : Numeral cs n) :
    decimalValue cs = n := by
  induction h with
  | digit hd => exact (decimalValue_concat hd []).trans (Nat.zero_add _)
  | lead hd _ ih => rw [decimalValue_cons hd, ih]

theorem Numeral.isDigit {cs : List Char} {n : Nat} (h : Numeral cs n) :
    ∀ c ∈ cs, c.isDigit = true := by
  induction h with
  | digit hd => exact List.forall_mem_singleton.2 (isDigit_digitChar hd)
  | lead hd _ ih => exact List.forall_mem_cons.2 ⟨isDigit_digitChar hd, ih⟩

theorem Numeral.ne_nil {cs : List Char} {n : Nat} (h : Numeral cs n) : cs ≠ [] := by
  cases h with
  | _ => exact List.cons_ne_nil _ _

/-- Digits are a numeral, if there are any. -/
theorem numeral_decimalValue {cs : List Char} (hne : cs ≠ []) (h : ∀ c ∈ cs, c.isDigit = true) :
    Numeral cs (decimalValue cs) := by
  induction cs with
  | nil => exact absurd rfl hne
  | cons c rest ih =>
    obtain ⟨hc, hrest⟩ := List.forall_mem_cons.1 h
    obtain ⟨d, hd, rfl⟩ := exists_digitChar_eq hc
    rw [decimalValue_cons hd]
    -- the last digit is a numeral by itself, since no numeral is empty
    cases rest with
    | nil =>
      rw [List.length_nil, Nat.pow_zero, Nat.mul_one]
      exact .digit hd
    | cons c' rest => exact .lead hd (ih (List.cons_ne_nil _ _) hrest)

theorem numeral_iff {cs : List Char} {n : Nat} :
    Numeral cs n ↔ cs ≠ [] ∧ (∀ c ∈ cs, c.isDigit = true) ∧ decimalValue cs = n := by
  constructor
  · exact fun h => ⟨h.ne_nil, h.isDigit, h.decimalValue_eq⟩
  · rintro ⟨hne, hdigits, rfl⟩
    exact numeral_decimalValue hne hdigits

/-- One more digit behind the decimal notation of a number, with zeros in front. -/
theorem exists_padded_concat (zeros n : Nat) {d : Nat} (hd : d < 10) :
    ∃ zeros', List.replicate zeros '0' ++ Nat.toDigits 10 n ++ [Nat.digitChar d] =
      List.replicate zeros' '0' ++ Nat.toDigits 10 (10 * n + d) := by
  rcases Nat.eq_zero_or_pos n with rfl | hn
  · -- the notation of zero turns into one more zero in front
    refine ⟨zeros + 1, ?_⟩
    rw [Nat.toDigits_zero, Nat.mul_zero, Nat.zero_add, Nat.toDigits_of_lt_base hd,
      List.replicate_succ']
  · refine ⟨zeros, ?_⟩
    rw [← Nat.toDigits_append_toDigits (by decide) hn hd, Nat.toDigits_of_lt_base hd,
      List.append_assoc]

/-- Digits are the decimal notation of their value, with zeros in front. -/
theorem exists_padded_of_isDigit {cs : List Char} (hne : cs ≠ [])
    (h : ∀ c ∈ cs, c.isDigit = true) :
    ∃ zeros, cs = List.replicate zeros '0' ++ Nat.toDigits 10 (decimalValue cs) := by
  -- from the right, as a decimal notation grows
  induction cs using List.reverseRecOn with
  | nil => exact absurd rfl hne
  | append_singleton earlier c ih =>
    obtain ⟨hearlier, hc⟩ := List.forall_mem_append.1 h
    obtain ⟨d, hd, rfl⟩ := exists_digitChar_eq (hc c (List.mem_singleton_self c))
    rw [decimalValue_concat hd]
    by_cases hnil : earlier = []
    · subst hnil
      have hvalue : 10 * decimalValue [] + d = d := Nat.zero_add d
      exact ⟨0, by rw [hvalue, Nat.toDigits_of_lt_base hd]; rfl⟩
    · obtain ⟨zeros, heq⟩ := ih hnil hearlier
      obtain ⟨zeros', heq'⟩ := exists_padded_concat zeros (decimalValue earlier) hd
      rw [← heq] at heq'
      exact ⟨zeros', heq'⟩

/-- **Numerals** are decimal notations with zeros in front. -/
theorem numeral_iff_padded {cs : List Char} {n : Nat} :
    Numeral cs n ↔ ∃ zeros, cs = List.replicate zeros '0' ++ Nat.toDigits 10 n := by
  constructor
  · intro h
    obtain ⟨zeros, heq⟩ := exists_padded_of_isDigit h.ne_nil h.isDigit
    exact ⟨zeros, h.decimalValue_eq ▸ heq⟩
  · rintro ⟨zeros, rfl⟩
    refine numeral_iff.2 ⟨?_, ?_, ?_⟩
    · exact List.append_ne_nil_of_right_ne_nil _ Nat.toDigits_ne_nil
    · refine List.forall_mem_append.2 ⟨fun c hc => ?_, fun c hc => ?_⟩
      · exact List.eq_of_mem_replicate hc ▸ rfl
      · exact Nat.isDigit_of_mem_toDigits (by decide) (Nat.le_refl 10) hc
    · rw [decimalValue_replicate_zero, decimalValue_eq_ofDigitChars, Nat.ofDigitChars_ten_toDigits]

/-! ## Rates -/

/-- The number that the characters of a text denote, which are a numeral, perhaps behind a plus
sign. -/
inductive Denotes : List Char → Nat → Prop
  | unsigned {cs : List Char} {n : Nat} (h : Numeral cs n) : Denotes cs n
  | signed {cs : List Char} {n : Nat} (h : Numeral cs n) : Denotes ('+' :: cs) n

/-- The text is a rate, for the number `n`. -/
structure IsRate (text : String) (n : Nat) : Prop where
  denotes : Denotes text.toList n
  lt : n < 2 ^ 32

/-- The characters of a text without a plus sign at the front. -/
def withoutPlus : List Char → List Char
  | '+' :: rest => rest
  | cs => cs

theorem denotes_iff {cs : List Char} {n : Nat} : Denotes cs n ↔ Numeral (withoutPlus cs) n := by
  constructor
  · intro h
    cases h with
    | unsigned h =>
      have hplus : withoutPlus cs = cs := by
        unfold withoutPlus
        split
        · exact absurd (h.isDigit '+' (List.mem_cons_self ..)) (by decide)
        · rfl
      rwa [hplus]
    | signed h => exact h
  · intro h
    unfold withoutPlus at h
    split at h
    · exact .signed h
    · exact .unsigned h

theorem parseRate_eq (text : String) :
    parseRate text =
      if (withoutPlus text.toList).isEmpty || !(withoutPlus text.toList).all Char.isDigit then none
      else if decimalValue (withoutPlus text.toList) ≤ maxRate then
        some (decimalValue (withoutPlus text.toList))
      else none :=
  rfl

/-- **Rates** are taken for what they denote, and no other text is taken. -/
theorem parseRate_eq_some_iff {text : String} {n : Nat} :
    parseRate text = some n ↔ IsRate text n := by
  have hmax : maxRate + 1 = 2 ^ 32 := rfl
  have hdigits : ∀ cs : List Char, (cs.isEmpty || !cs.all Char.isDigit) = false ↔
      cs ≠ [] ∧ ∀ c ∈ cs, c.isDigit = true := by simp
  rw [parseRate_eq]
  constructor
  · intro h
    split at h
    · cases h
    · next hok =>
      obtain ⟨hne, hall⟩ := (hdigits _).1 (Bool.eq_false_iff.2 hok)
      split at h
      · next hle =>
        cases h
        exact ⟨denotes_iff.2 (numeral_decimalValue hne hall), by omega⟩
      · cases h
  · rintro ⟨hdenotes, hlt⟩
    have hnumeral := denotes_iff.1 hdenotes
    rw [(hdigits _).2 ⟨hnumeral.ne_nil, hnumeral.isDigit⟩, hnumeral.decimalValue_eq,
      if_neg Bool.false_ne_true, if_pos (by omega)]

theorem parseRate_eq_none_iff {text : String} :
    parseRate text = none ↔ ∀ n, ¬IsRate text n := by
  simp only [Option.eq_none_iff_forall_ne_some, ne_eq, parseRate_eq_some_iff]

/-- The decimal notation of a number with zeros in front. -/
def padded (zeros n : Nat) : String :=
  String.ofList (List.replicate zeros '0') ++ toString n

theorem toList_padded (zeros n : Nat) :
    (padded zeros n).toList = List.replicate zeros '0' ++ Nat.toDigits 10 n := by
  rw [padded, Nat.toString_eq_ofList_toDigits, String.toList_append, String.toList_ofList,
    String.toList_ofList]

theorem numeral_padded (zeros n : Nat) : Numeral (padded zeros n).toList n :=
  numeral_iff_padded.2 ⟨zeros, toList_padded zeros n⟩

/-- **The rates for a number** below 2³² are its decimal notations with zeros in front. -/
theorem isRate_iff_padded {text : String} {n : Nat} :
    IsRate text n ↔ n < 2 ^ 32 ∧ ∃ zeros, text = padded zeros n ∨ text = "+" ++ padded zeros n := by
  constructor
  · rintro ⟨hdenotes, hlt⟩
    generalize htext : text.toList = cs at hdenotes
    cases hdenotes with
    | unsigned h =>
      obtain ⟨zeros, rfl⟩ := numeral_iff_padded.1 h
      rw [← toList_padded] at htext
      exact ⟨hlt, zeros, .inl (String.toList_injective htext)⟩
    | signed h =>
      obtain ⟨zeros, rfl⟩ := numeral_iff_padded.1 h
      have hsigned : ("+" ++ padded zeros n).toList =
          '+' :: (List.replicate zeros '0' ++ Nat.toDigits 10 n) := by
        rw [String.toList_append, toList_padded]
        rfl
      exact ⟨hlt, zeros, .inr (String.toList_injective (htext.trans hsigned.symm))⟩
  · rintro ⟨hlt, zeros, rfl | rfl⟩
    · exact ⟨.unsigned (numeral_padded zeros n), hlt⟩
    · refine ⟨?_, hlt⟩
      rw [String.toList_append]
      exact .signed (numeral_padded zeros n)

end Chip8.CommandLine
