import Chip8.Proofs.Effect
import Chip8.Proofs.Instruction.Format

/-!
# How instructions are spelled

`IsSpelledBy` writes every instruction as a word, digit by digit, and so goes the other way from
`decode`, which takes words apart. The two agree: a word stands for an instruction if and only if it
spells it (`decode_eq_some_iff`). So a completed cycle carries out the instruction that is spelled
at the program counter (`exists_spelled_of_ok`).
-/

namespace Chip8

namespace Instruction

open Format

/-- The words that spell an instruction. The shifts leave their third digit open. -/
def IsSpelledBy : Instruction → UInt16 → Prop
  | clearScreen, w => w.toNat = 0x00E0
  | ret, w => w.toNat = 0x00EE
  | jump target, w => w.toNat = 0x1000 + target.val
  | call target, w => w.toNat = 0x2000 + target.val
  | skipIfEqual x value, w => w.toNat = 0x3000 + 0x100 * x.val + value.toNat
  | skipUnlessEqual x value, w => w.toNat = 0x4000 + 0x100 * x.val + value.toNat
  | skipIfSame x y, w => w.toNat = 0x5000 + 0x100 * x.val + 0x10 * y.val
  | load x value, w => w.toNat = 0x6000 + 0x100 * x.val + value.toNat
  | increase x value, w => w.toNat = 0x7000 + 0x100 * x.val + value.toNat
  | copy x y, w => w.toNat = 0x8000 + 0x100 * x.val + 0x10 * y.val
  | bitOr x y, w => w.toNat = 0x8001 + 0x100 * x.val + 0x10 * y.val
  | bitAnd x y, w => w.toNat = 0x8002 + 0x100 * x.val + 0x10 * y.val
  | bitXor x y, w => w.toNat = 0x8003 + 0x100 * x.val + 0x10 * y.val
  | add x y, w => w.toNat = 0x8004 + 0x100 * x.val + 0x10 * y.val
  | subtract x y, w => w.toNat = 0x8005 + 0x100 * x.val + 0x10 * y.val
  | shiftRight x, w => ∃ y : Register, w.toNat = 0x8006 + 0x100 * x.val + 0x10 * y.val
  | subtractFrom x y, w => w.toNat = 0x8007 + 0x100 * x.val + 0x10 * y.val
  | shiftLeft x, w => ∃ y : Register, w.toNat = 0x800E + 0x100 * x.val + 0x10 * y.val
  | skipUnlessSame x y, w => w.toNat = 0x9000 + 0x100 * x.val + 0x10 * y.val
  | setIndex target, w => w.toNat = 0xA000 + target.val
  | jumpOffset target, w => w.toNat = 0xB000 + target.val
  | random x mask, w => w.toNat = 0xC000 + 0x100 * x.val + mask.toNat
  | draw x y rows, w => w.toNat = 0xD000 + 0x100 * x.val + 0x10 * y.val + rows.val
  | skipIfPressed x, w => w.toNat = 0xE09E + 0x100 * x.val
  | skipUnlessPressed x, w => w.toNat = 0xE0A1 + 0x100 * x.val
  | readDelay x, w => w.toNat = 0xF007 + 0x100 * x.val
  | awaitKey x, w => w.toNat = 0xF00A + 0x100 * x.val
  | setDelay x, w => w.toNat = 0xF015 + 0x100 * x.val
  | setSound x, w => w.toNat = 0xF018 + 0x100 * x.val
  | addIndex x, w => w.toNat = 0xF01E + 0x100 * x.val
  | glyph x, w => w.toNat = 0xF029 + 0x100 * x.val
  | decimal x, w => w.toNat = 0xF033 + 0x100 * x.val
  | saveRegisters x, w => w.toNat = 0xF055 + 0x100 * x.val
  | restoreRegisters x, w => w.toNat = 0xF065 + 0x100 * x.val

/-! ## From operands to words -/

theorem toNat_operandByte (w : UInt16) : (operandByte w).toNat = w.toNat % 256 :=
  UInt8.toNat_ofNat_of_lt' (Nat.mod_lt _ (by decide))

theorem isSpelledBy_of_fixedWord (w : UInt16) :
    ∀ entry ∈ fixedWords, entry.1.fits w = true → (entry.2 w).IsSpelledBy w := by
  simp (disch := decide) only [fixedWords, List.forall_mem_cons, fits_ret, fits_single]
  exact ⟨id, id, List.forall_mem_nil _⟩

theorem isSpelledBy_of_family (w : UInt16) :
    ∀ entry ∈ families, entry.1.fits w = true → (entry.2 w).IsSpelledBy w := by
  simp only [families, List.forall_mem_cons, fits_call, fits_draw, fits_family, IsSpelledBy,
    toNat_operandByte, operandX, operandY, operandN, operandAddress]
  refine ⟨?_, ?_, ?_, ?_, ?_, ?_, ?_, ?_, ?_, ?_, List.forall_mem_nil _⟩
  all_goals omega

theorem isSpelledBy_of_registerOperation (w : UInt16) :
    ∀ entry ∈ registerOperations, entry.1.fits w = true → (entry.2 w).IsSpelledBy w := by
  simp only [registerOperations, List.forall_mem_cons, fits_lastDigit, IsSpelledBy]
  refine ⟨?_, ?_, ?_, ?_, ?_, ?_, ?_, fun h => ⟨operandY w, ?_⟩, ?_, fun h => ⟨operandY w, ?_⟩, ?_,
    List.forall_mem_nil _⟩
  all_goals
    simp only [operandX, operandY]
    omega

theorem isSpelledBy_of_deviceOperation (w : UInt16) :
    ∀ entry ∈ deviceOperations, entry.1.fits w = true → (entry.2 w).IsSpelledBy w := by
  simp (disch := decide) only [deviceOperations, List.forall_mem_cons, fits_decimal,
    fits_saveRegisters, fits_restoreRegisters, fits_lastDigits, IsSpelledBy, operandX]
  refine ⟨?_, ?_, ?_, ?_, ?_, ?_, ?_, ?_, ?_, ?_, ?_, List.forall_mem_nil _⟩
  all_goals omega

/-! ## From words to operands -/

section Shapes

variable {w : UInt16} {x y : Register}

/-- The word `annn`. -/
theorem decode_of_address {f : Address → Instruction} {target : Address} (a : Nat)
    (hw : w.toNat = 0x1000 * a + target.val)
    (hm : (family a, fun w => f (operandAddress w)) ∈ families := by
      simp [families, Format.call]) :
    decode w = some (f target) := by
  have htarget : target.val < 4096 := target.isLt
  have hoperand : operandAddress w = target := Fin.ext (by simp only [operandAddress]; omega)
  have hd : decode w = some (f (operandAddress w)) :=
    decode_of_family w _ hm (fits_family.2 (by omega))
  rw [hd, hoperand]

/-- The word `axkk`. -/
theorem decode_of_byte {f : Register → UInt8 → Instruction} {value : UInt8} (a : Nat)
    (hw : w.toNat = 0x1000 * a + 0x100 * x.val + value.toNat)
    (hm : (family a, fun w => f (operandX w) (operandByte w)) ∈ families := by
      simp [families]) :
    decode w = some (f x value) := by
  have hvalue := value.toNat_lt
  have hx : operandX w = x := Fin.ext (by simp only [operandX]; omega)
  have hbyte : operandByte w = value := UInt8.toNat_inj.1 (by rw [toNat_operandByte]; omega)
  have hd : decode w = some (f (operandX w) (operandByte w)) :=
    decode_of_family w _ hm (fits_family.2 (by omega))
  rw [hd, hx, hbyte]

/-- The word `Dxyn`. -/
theorem decode_of_draw {rows : Fin 16}
    (hw : w.toNat = 0xD000 + 0x100 * x.val + 0x10 * y.val + rows.val) :
    decode w = some (.draw x y rows) := by
  have hx : operandX w = x := Fin.ext (by simp only [operandX]; omega)
  have hy : operandY w = y := Fin.ext (by simp only [operandY]; omega)
  have hn : operandN w = rows := Fin.ext (by simp only [operandN]; omega)
  have hm : (Format.draw, fun w => .draw (operandX w) (operandY w) (operandN w)) ∈ families := by
    simp [families]
  have hd : decode w = some (.draw (operandX w) (operandY w) (operandN w)) :=
    decode_of_family w _ hm (fits_draw.2 (by omega))
  rw [hd, hx, hy, hn]

/-- The word `axyd`. -/
theorem decode_of_registers {f : Register → Register → Instruction} (a d : Nat)
    (hw : w.toNat = 0x1000 * a + d + 0x100 * x.val + 0x10 * y.val)
    (hlt : d < 16 := by decide)
    (hm : (lastDigit a d, fun w => f (operandX w) (operandY w)) ∈ registerOperations := by
      simp [registerOperations]) :
    decode w = some (f x y) := by
  have hx : operandX w = x := Fin.ext (by simp only [operandX]; omega)
  have hy : operandY w = y := Fin.ext (by simp only [operandY]; omega)
  have hd : decode w = some (f (operandX w) (operandY w)) :=
    decode_of_registerOperation w _ hm (fits_lastDigit.2 ⟨by omega, by omega⟩)
  rw [hd, hx, hy]

/-- The word `axcd`. -/
theorem decode_of_device {f : Register → Instruction} (a c d : Nat)
    (hw : w.toNat = 0x1000 * a + 0x10 * c + d + 0x100 * x.val)
    (hc : c < 16 := by decide) (hlt : d < 16 := by decide)
    (hm : (lastDigits a c d, fun w => f (operandX w)) ∈ deviceOperations := by
      simp [deviceOperations, Format.decimal, Format.saveRegisters, Format.restoreRegisters]) :
    decode w = some (f x) := by
  have hx : operandX w = x := Fin.ext (by simp only [operandX]; omega)
  have hd : decode w = some (f (operandX w)) :=
    decode_of_deviceOperation w _ hm ((fits_lastDigits hc hlt).2 ⟨by omega, by omega⟩)
  rw [hd, hx]

end Shapes

theorem decode_of_isSpelledBy {w : UInt16} {i : Instruction} (h : i.IsSpelledBy w) :
    decode w = some i := by
  cases i with
  | clearScreen =>
    exact decode_of_fixedWord w _ (.head _)
      ((fits_single (by decide) (by decide) (by decide)).2 h)
  | ret => exact decode_of_fixedWord w _ (.tail _ (.head _)) (fits_ret.2 h)
  | jump => exact decode_of_address 0x1 h
  | call => exact decode_of_address 0x2 h
  | skipIfEqual => exact decode_of_byte 0x3 h
  | skipUnlessEqual => exact decode_of_byte 0x4 h
  | skipIfSame => exact decode_of_registers 0x5 0x0 h
  | load => exact decode_of_byte 0x6 h
  | increase => exact decode_of_byte 0x7 h
  | copy => exact decode_of_registers 0x8 0x0 h
  | bitOr => exact decode_of_registers 0x8 0x1 h
  | bitAnd => exact decode_of_registers 0x8 0x2 h
  | bitXor => exact decode_of_registers 0x8 0x3 h
  | add => exact decode_of_registers 0x8 0x4 h
  | subtract => exact decode_of_registers 0x8 0x5 h
  | shiftRight x =>
    -- the third digit is open, but a digit all the same
    obtain ⟨y, h⟩ := h
    exact decode_of_registers (f := fun x _ => shiftRight x) 0x8 0x6 h
  | subtractFrom => exact decode_of_registers 0x8 0x7 h
  | shiftLeft x =>
    obtain ⟨y, h⟩ := h
    exact decode_of_registers (f := fun x _ => shiftLeft x) 0x8 0xE h
  | skipUnlessSame => exact decode_of_registers 0x9 0x0 h
  | setIndex => exact decode_of_address 0xA h
  | jumpOffset => exact decode_of_address 0xB h
  | random => exact decode_of_byte 0xC h
  | draw => exact decode_of_draw h
  | skipIfPressed => exact decode_of_device 0xE 0x9 0xE h
  | skipUnlessPressed => exact decode_of_device 0xE 0xA 0x1 h
  | readDelay => exact decode_of_device 0xF 0x0 0x7 h
  | awaitKey => exact decode_of_device 0xF 0x0 0xA h
  | setDelay => exact decode_of_device 0xF 0x1 0x5 h
  | setSound => exact decode_of_device 0xF 0x1 0x8 h
  | addIndex => exact decode_of_device 0xF 0x1 0xE h
  | glyph => exact decode_of_device 0xF 0x2 0x9 h
  | decimal => exact decode_of_device 0xF 0x3 0x3 h
  | saveRegisters => exact decode_of_device 0xF 0x5 0x5 h
  | restoreRegisters => exact decode_of_device 0xF 0x6 0x5 h

/-- **A word stands for the instruction that it spells**, and for no other. -/
theorem decode_eq_some_iff {w : UInt16} {i : Instruction} :
    decode w = some i ↔ i.IsSpelledBy w := by
  constructor
  · intro h
    obtain ⟨entry, hm, hf, rfl⟩ := exists_format_of_decode h
    exact forall_mem_instructionSet (isSpelledBy_of_fixedWord w) (isSpelledBy_of_family w)
      (isSpelledBy_of_registerOperation w) (isSpelledBy_of_deviceOperation w) entry hm hf
  · exact decode_of_isSpelledBy

theorem eq_of_isSpelledBy {w : UInt16} {i j : Instruction} (hi : i.IsSpelledBy w)
    (hj : j.IsSpelledBy w) : i = j :=
  Option.some.inj ((decode_of_isSpelledBy hi).symm.trans (decode_of_isSpelledBy hj))

end Instruction

/-! ## Cycles that carry out an instruction -/

namespace Machine

/-- The word `w` lies at the program counter, the high byte first. -/
structure IsAtWord (m : Machine) (w : UInt16) : Prop where
  pc_le : m.pc.toNat ≤ 0xFFE
  toNat_eq : w.toNat =
    256 * (m.memory.read m.pc.toNat).toNat + (m.memory.read (m.pc.toNat + 1)).toNat

theorem isAtWord_of_word {m : Machine} {w : UInt16} (h : m.memory.word? m.pc.toNat = some w) :
    m.IsAtWord w where
  pc_le := pc_le_of_word h
  toNat_eq := by
    have hhigh := (m.memory.read m.pc.toNat).toNat_lt
    have hlow := (m.memory.read (m.pc.toNat + 1)).toNat_lt
    unfold Memory.word? at h
    split at h
    · obtain rfl := Option.some.inj h
      exact UInt16.toNat_ofNat_of_lt' (by simp only [UInt16.size]; omega)
    · cases h

/-- **A completed cycle that does not wait for a key carries out an instruction**, which is the one
that the word at the program counter spells. -/
theorem exists_spelled_of_ok {m : Machine} {randomByte : UInt8} {outcome : Outcome}
    (ha : m.awaiting = none) (hok : (m.cycle randomByte).result = .ok outcome) :
    ∃ w i log, m.IsAtWord w ∧ i.IsSpelledBy w ∧ m.refusal i = none ∧
      m.cycle randomByte = (m.effect randomByte i).complete i.changesScreen log := by
  rcases cycle_cases randomByte m with ⟨x, hx, -⟩ | ⟨fault, -, -, hc⟩ |
    ⟨word, i, fault, -, -, -, hc⟩ | ⟨word, i, -, hf, hr, hc⟩
  · rw [ha] at hx
    cases hx
  · rw [hc] at hok
    cases hok
  · rw [hc] at hok
    cases hok
  · obtain ⟨hw, hd⟩ := fetch_eq_ok_iff.1 hf
    exact ⟨word, i, _, isAtWord_of_word hw, Instruction.decode_eq_some_iff.1 hd, hr, hc⟩

end Machine

end Chip8
