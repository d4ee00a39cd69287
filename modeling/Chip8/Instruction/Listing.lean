import Chip8.Instruction
import Chip8.Text.Decimal

/-!
# Listings of instructions

The written form of an instruction: its mnemonic, followed in braces by its operands by name, with
decimal numbers. An instruction without operands is its mnemonic alone. A listing tells the
instruction: `ofListing?` reads it back from the words.
-/

namespace Chip8.Instruction

/-- The mnemonic of the instruction. -/
def mnemonic : Instruction → String
  | clearScreen => "Cls"
  | ret => "Ret"
  | jump .. => "Jp"
  | call .. => "Call"
  | skipIfEqual .. => "SeImm"
  | skipUnlessEqual .. => "SneImm"
  | skipIfSame .. => "SeReg"
  | skipUnlessSame .. => "SneReg"
  | load .. => "LdImm"
  | increase .. => "AddImm"
  | copy .. => "LdReg"
  | bitOr .. => "Or"
  | bitAnd .. => "And"
  | bitXor .. => "Xor"
  | add .. => "AddReg"
  | subtract .. => "Sub"
  | shiftRight .. => "Shr"
  | subtractFrom .. => "Subn"
  | shiftLeft .. => "Shl"
  | setIndex .. => "LdI"
  | jumpOffset .. => "JpV0"
  | random .. => "Rnd"
  | draw .. => "Drw"
  | skipIfPressed .. => "Skp"
  | skipUnlessPressed .. => "Sknp"
  | readDelay .. => "LdVxDt"
  | awaitKey .. => "LdVxK"
  | setDelay .. => "LdDtVx"
  | setSound .. => "LdStVx"
  | addIndex .. => "AddI"
  | glyph .. => "LdF"
  | decimal .. => "LdB"
  | saveRegisters .. => "StoreRegs"
  | restoreRegisters .. => "LoadRegs"

/-- The operands of the instruction in order, each with its name. -/
def operands : Instruction → List (String × Nat)
  | clearScreen | ret => []
  | jump a | call a | setIndex a | jumpOffset a => [("address", a.val)]
  | skipIfEqual x v | skipUnlessEqual x v | load x v | increase x v | random x v =>
    [("x", x.val), ("value", v.toNat)]
  | skipIfSame x y | skipUnlessSame x y | copy x y | bitOr x y | bitAnd x y | bitXor x y
  | add x y | subtract x y | subtractFrom x y =>
    [("x", x.val), ("y", y.val)]
  | draw x y n => [("x", x.val), ("y", y.val), ("n", n.val)]
  | shiftRight x | shiftLeft x | skipIfPressed x | skipUnlessPressed x | readDelay x | awaitKey x
  | setDelay x | setSound x | addIndex x | glyph x | decimal x | saveRegisters x
  | restoreRegisters x =>
    [("x", x.val)]

/-- The written form of the instruction. -/
def listing (i : Instruction) : String :=
  match i.operands with
  | [] => i.mnemonic
  | operands =>
    let fields := operands.map fun (label, number) => s!"{label}: {number}"
    i.mnemonic ++ " \x7b " ++ String.intercalate ", " fields ++ " \x7d"

/-! ## Reading listings back -/

/-- The register with a number. -/
def numberedRegister (number : Nat) : Register :=
  ⟨number % 16, Nat.mod_lt _ (by decide)⟩

/-- The address with a number. -/
def numberedAddress (number : Nat) : Address :=
  ⟨number % 4096, Nat.mod_lt _ (by decide)⟩

/-- Reads the operands of an instruction that has none. -/
def ofNothing (i : Instruction) : List Nat → Option Instruction
  | [] => some i
  | _ => none

/-- Reads an address. -/
def ofAddress (make : Address → Instruction) : List Nat → Option Instruction
  | [a] => some (make (numberedAddress a))
  | _ => none

/-- Reads a register and a byte. -/
def ofByte (make : Register → UInt8 → Instruction) : List Nat → Option Instruction
  | [x, v] => some (make (numberedRegister x) (UInt8.ofNat v))
  | _ => none

/-- Reads a register. -/
def ofRegister (make : Register → Instruction) : List Nat → Option Instruction
  | [x] => some (make (numberedRegister x))
  | _ => none

/-- Reads two registers. -/
def ofRegisters (make : Register → Register → Instruction) : List Nat → Option Instruction
  | [x, y] => some (make (numberedRegister x) (numberedRegister y))
  | _ => none

/-- Reads two registers and a number of rows. -/
def ofSprite (make : Register → Register → Fin 16 → Instruction) : List Nat → Option Instruction
  | [x, y, n] => some (make (numberedRegister x) (numberedRegister y) (numberedRegister n))
  | _ => none

/-- How the operands behind each mnemonic are read. -/
def forms : List (String × (List Nat → Option Instruction)) :=
  [("Cls", ofNothing clearScreen), ("Ret", ofNothing ret), ("Jp", ofAddress jump),
   ("Call", ofAddress call), ("SeImm", ofByte skipIfEqual), ("SneImm", ofByte skipUnlessEqual),
   ("SeReg", ofRegisters skipIfSame), ("SneReg", ofRegisters skipUnlessSame),
   ("LdImm", ofByte load), ("AddImm", ofByte increase), ("LdReg", ofRegisters copy),
   ("Or", ofRegisters bitOr), ("And", ofRegisters bitAnd), ("Xor", ofRegisters bitXor),
   ("AddReg", ofRegisters add), ("Sub", ofRegisters subtract), ("Shr", ofRegister shiftRight),
   ("Subn", ofRegisters subtractFrom), ("Shl", ofRegister shiftLeft), ("LdI", ofAddress setIndex),
   ("JpV0", ofAddress jumpOffset), ("Rnd", ofByte random), ("Drw", ofSprite draw),
   ("Skp", ofRegister skipIfPressed), ("Sknp", ofRegister skipUnlessPressed),
   ("LdVxDt", ofRegister readDelay), ("LdVxK", ofRegister awaitKey),
   ("LdDtVx", ofRegister setDelay), ("LdStVx", ofRegister setSound), ("AddI", ofRegister addIndex),
   ("LdF", ofRegister glyph), ("LdB", ofRegister decimal), ("StoreRegs", ofRegister saveRegisters),
   ("LoadRegs", ofRegister restoreRegisters)]

/-- The instruction with a mnemonic and the numbers of its operands. -/
def ofParts? (mnemonic : String) (numbers : List Nat) : Option Instruction :=
  (forms.lookup mnemonic).bind fun form => form numbers

/-- The instruction that a listing tells, read from its words. -/
def ofListing? : List String → Option Instruction
  | mnemonic :: rest => ofParts? mnemonic (rest.filterMap Decimal.number?)
  | [] => none

theorem numberedRegister_val (x : Register) : numberedRegister x.val = x :=
  Fin.ext (Nat.mod_eq_of_lt x.isLt)

theorem numberedAddress_val (a : Address) : numberedAddress a.val = a :=
  Fin.ext (Nat.mod_eq_of_lt a.isLt)

/-- Mnemonic and operands tell the instruction. -/
theorem ofParts?_mnemonic_operands (i : Instruction) :
    ofParts? i.mnemonic (i.operands.map Prod.snd) = some i := by
  cases i with
  | _ =>
    change some _ = some _
    simp only [numberedRegister_val, numberedAddress_val, UInt8.ofNat_toNat]

/-! ### Fields -/

/-- A text that stands before a number as its name: a word that starts with no digit. -/
def IsLabel (label : String) : Prop :=
  words (label ++ ":") = [label ++ ":"] ∧ Decimal.number? (label ++ ":") = none

theorem isLabel_of_mem_operands (i : Instruction) : ∀ field ∈ i.operands, IsLabel field.1 := by
  cases i with
  | clearScreen | ret => exact List.forall_mem_nil _
  | _ =>
    simp only [operands, List.forall_mem_cons, IsLabel]
    decide

/-- The number among the words of a field and the mark behind it. -/
theorem filterMap_number?_field {label : String} (h : IsLabel label) (mark : String)
    (hblank : ' ' ∉ mark.toList) (hmark : mark.toList.takeWhile Char.isDigit = []) (n : Nat) :
    (words (s!"{label}: {n}" ++ mark)).filterMap Decimal.number? = [n] := by
  have hfield : s!"{label}: {n}" ++ mark = label ++ ":" ++ (" " ++ (toString n ++ mark)) := by
    change label ++ (":" ++ " ") ++ toString n ++ mark = _
    simp only [String.append_assoc]
  rw [hfield, words_append, h.1,
    words_append_of_not_mem (Decimal.blank_not_mem_toString n) hblank, List.singleton_append,
    List.filterMap_cons_none h.2,
    List.filterMap_cons_some (Decimal.number?_toString_append hmark n), List.filterMap_nil]

theorem append_comma_append (s t : String) : s ++ ", " ++ t = s ++ "," ++ (" " ++ t) := by
  change s ++ ("," ++ " ") ++ t = _
  simp only [String.append_assoc]

/-- The numbers among the words of fields, which are set apart by commas. -/
theorem filterMap_number?_fields {fields : List (String × Nat)}
    (h : ∀ field ∈ fields, IsLabel field.1) :
    (words (String.intercalate ", " (fields.map fun (label, n) => s!"{label}: {n}"))).filterMap
      Decimal.number? = fields.map Prod.snd := by
  induction fields with
  | nil => rfl
  | cons field rest ih =>
    obtain ⟨label, n⟩ := field
    obtain ⟨hlabel, hrest⟩ := List.forall_mem_cons.1 h
    cases rest with
    | nil =>
      have hn := filterMap_number?_field hlabel "" (by decide) rfl n
      rw [String.append_empty] at hn
      exact hn
    | cons next rest =>
      have hn := filterMap_number?_field hlabel "," (by decide) rfl n
      rw [List.map_cons, List.map_cons, String.intercalate_cons_cons, append_comma_append,
        words_append, List.filterMap_append, hn]
      exact congrArg _ (ih hrest)

/-! ### Listings -/

theorem words_mnemonic (i : Instruction) : words i.mnemonic = [i.mnemonic] := by
  cases i with
  | _ =>
    dsimp only [mnemonic]
    decide

/-- A listing starts with the mnemonic, and the numbers behind it are the operands. -/
theorem words_listing (i : Instruction) :
    ∃ rest, words i.listing = i.mnemonic :: rest ∧
      rest.filterMap Decimal.number? = i.operands.map Prod.snd := by
  have hfields := filterMap_number?_fields i.isLabel_of_mem_operands
  unfold listing
  split
  · rename_i h
    exact ⟨[], i.words_mnemonic, by rw [h]; rfl⟩
  · have hbraces (s t : String) : s ++ " \x7b " ++ t ++ " \x7d" =
        s ++ (" " ++ ("\x7b" ++ (" " ++ (t ++ (" " ++ "\x7d"))))) := by
      change s ++ (" " ++ "\x7b" ++ " ") ++ t ++ (" " ++ "\x7d") = _
      simp only [String.append_assoc]
    rw [hbraces, words_append, words_append, words_append, words_mnemonic, List.singleton_append]
    refine ⟨_, rfl, ?_⟩
    rw [List.filterMap_append, List.filterMap_append, hfields]
    exact List.append_nil _

/-- **A listing tells the instruction.** -/
theorem ofListing?_words_listing (i : Instruction) : ofListing? (words i.listing) = some i := by
  obtain ⟨rest, hwords, hrest⟩ := i.words_listing
  rw [hwords, ofListing?, hrest, ofParts?_mnemonic_operands]

theorem eq_of_words_listing_eq {i j : Instruction} (h : words i.listing = words j.listing) :
    i = j := by
  rw [← Option.some.injEq, ← ofListing?_words_listing, h, ofListing?_words_listing]

end Chip8.Instruction
