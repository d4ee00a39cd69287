import Chip8.Proofs.Drawing
import Chip8.Proofs.Instruction.Spelling

/-!
# What is in the registers and the index

`RegisterLaw` says for every instruction what it makes of the registers, in integers and in terms of
the registers before it: operands may coincide, with each other or with the flag register, and no
register changes that the instruction does not name. `indexAfter` does the same for the index. Both
hold of every completed cycle with the instruction that its word spells
(`registers_and_index_follow_word`).
-/

namespace Chip8.Machine

/-! ## The laws -/

/-- At most the listed registers differ between the two machines. -/
def ChangesOnly (m m' : Machine) (changed : List Register) : Prop :=
  ∀ k, k ∉ changed → m'.register k = m.register k

/-- What becomes of the registers of `m` when it carries out an instruction and is `m'` afterwards.
The flag is told apart from the result, since it is what remains when both go to one register. -/
def RegisterLaw (randomByte : UInt8) (m m' : Machine) : Instruction → Prop
  | .load x value => m.ChangesOnly m' [x] ∧ m'.register x = value
  | .increase x value =>
    m.ChangesOnly m' [x] ∧
      (m'.register x).toNat = ((m.register x).toNat + value.toNat) % 256
  | .copy x y => m.ChangesOnly m' [x] ∧ m'.register x = m.register y
  | .bitOr x y =>
    m.ChangesOnly m' [x] ∧
      (m'.register x).toNat = (m.register x).toNat ||| (m.register y).toNat
  | .bitAnd x y =>
    m.ChangesOnly m' [x] ∧
      (m'.register x).toNat = (m.register x).toNat &&& (m.register y).toNat
  | .bitXor x y =>
    m.ChangesOnly m' [x] ∧
      (m'.register x).toNat = (m.register x).toNat ^^^ (m.register y).toNat
  | .add x y =>
    m.ChangesOnly m' [x, .flag] ∧
      (m'.register .flag).toNat = ((m.register x).toNat + (m.register y).toNat) / 256 ∧
      (x ≠ .flag → (m.register x).toNat + (m.register y).toNat =
        (m'.register x).toNat + 256 * (m'.register .flag).toNat)
  | .subtract x y =>
    m.ChangesOnly m' [x, .flag] ∧
      m'.register .flag = (if (m.register y).toNat < (m.register x).toNat then 1 else 0) ∧
      (x ≠ .flag → ((m'.register x).toNat : Int) =
        ((m.register x).toNat - (m.register y).toNat : Int) % 256)
  | .shiftRight x =>
    m.ChangesOnly m' [x, .flag] ∧
      (m'.register .flag).toNat = (m.register x).toNat % 2 ∧
      (x ≠ .flag →
        (m.register x).toNat = 2 * (m'.register x).toNat + (m'.register .flag).toNat)
  | .subtractFrom x y =>
    m.ChangesOnly m' [x, .flag] ∧
      m'.register .flag = (if (m.register x).toNat < (m.register y).toNat then 1 else 0) ∧
      (x ≠ .flag → ((m'.register x).toNat : Int) =
        ((m.register y).toNat - (m.register x).toNat : Int) % 256)
  | .shiftLeft x =>
    m.ChangesOnly m' [x, .flag] ∧
      (m'.register .flag).toNat = 2 * (m.register x).toNat / 256 ∧
      (x ≠ .flag →
        2 * (m.register x).toNat = (m'.register x).toNat + 256 * (m'.register .flag).toNat)
  | .random x mask => m.ChangesOnly m' [x] ∧ m'.register x = randomByte &&& mask
  | .draw x y rows =>
    m.ChangesOnly m' [.flag] ∧ (m.Collides x y rows → m'.register .flag = 1) ∧
      (¬m.Collides x y rows → m'.register .flag = 0)
  | .readDelay x => m.ChangesOnly m' [x] ∧ m'.register x = m.delayTimer
  | .awaitKey x =>
    (∀ key, m.keys.isDown key = true → (∀ other < key, m.keys.isDown other = false) →
      m.ChangesOnly m' [x] ∧ (m'.register x).toNat = key.val) ∧
    ((∀ key, m.keys.isDown key = false) → m.ChangesOnly m' [])
  | .restoreRegisters x =>
    (∀ k ≤ x, m'.register k = m.memory.read (m.index.toNat + k.val)) ∧
      ∀ k, x < k → m'.register k = m.register k
  | _ => m.ChangesOnly m' []

/-- The index after an instruction that is carried out. -/
def indexAfter (m : Machine) : Instruction → Nat
  | .setIndex target => target.val
  | .addIndex x => (m.index.toNat + (m.register x).toNat) % 65536
  | .glyph x => 0x50 + 5 * (m.register x).toNat
  | _ => m.index.toNat

/-! ## Single registers -/

theorem changesOnly_setResult (m : Machine) (x : Register) (result : UInt8) :
    m.ChangesOnly (m.setResult x result) [x] := by
  intro k hk
  have hne : k ≠ x := fun h => hk (List.mem_singleton.2 h)
  exact (register_setRegister m x k result).trans (if_neg hne)

theorem register_setResult (m : Machine) (x : Register) (result : UInt8) :
    (m.setResult x result).register x = result :=
  (register_setRegister m x x result).trans (if_pos rfl)

theorem changesOnly_setResultAndFlag (m : Machine) (x : Register) (result : UInt8) (flag : Bool) :
    m.ChangesOnly (m.setResultAndFlag x result flag) [x, .flag] := by
  intro k hk
  obtain ⟨hx, hflag⟩ : k ≠ x ∧ k ≠ .flag := by simpa using hk
  have hkept : (m.setResultAndFlag x result flag).register k = (m.setRegister x result).register k :=
    (register_setRegister _ _ _ _).trans (if_neg hflag)
  rw [hkept, register_setRegister, if_neg hx]

/-- The flag prevails. -/
theorem flag_setResultAndFlag (m : Machine) (x : Register) (result : UInt8) (flag : Bool) :
    (m.setResultAndFlag x result flag).register .flag = flag.toUInt8 :=
  (register_setRegister _ _ _ _).trans (if_pos rfl)

theorem register_setResultAndFlag (m : Machine) {x : Register} (hx : x ≠ .flag) (result : UInt8)
    (flag : Bool) : (m.setResultAndFlag x result flag).register x = result := by
  have hkept : (m.setResultAndFlag x result flag).register x = (m.setRegister x result).register x :=
    (register_setRegister _ _ _ _).trans (if_neg hx)
  rw [hkept, register_setRegister, if_pos rfl]

theorem changesOnly_of_registers_eq {m m' : Machine} (h : m'.registers = m.registers) :
    m.ChangesOnly m' [] := by
  intro k _
  rw [register, register, h]

theorem register_poll_of_some {m : Machine} {key : Key} (h : m.keys.lowest? = some key)
    (x k : Register) :
    (m.poll x).register k = if k = x then UInt8.ofNat key.val else m.register k := by
  rw [poll_of_some h]
  exact register_setRegister m x k _

theorem register_restore (m : Machine) (x k : Register) :
    (m.restore x).register k =
      if k ≤ x then m.memory.read (m.index.toNat + k.val) else m.register k :=
  Vector.getElem_ofFn k.isLt

/-! ## Arithmetic with bytes -/

theorem toUInt8_decide (p : Prop) [Decidable p] : (decide p).toUInt8 = if p then 1 else 0 := by
  by_cases h : p
  · rw [decide_eq_true h, if_pos h]
    rfl
  · rw [decide_eq_false h, if_neg h]
    rfl

theorem toNat_carry (a b : UInt8) :
    (decide (256 ≤ a.toNat + b.toNat)).toUInt8.toNat = (a.toNat + b.toNat) / 256 := by
  have ha := a.toNat_lt
  have hb := b.toNat_lt
  rw [toUInt8_decide]
  split
  · rw [UInt8.toNat_one]
    omega
  · rw [UInt8.toNat_zero]
    omega

theorem borrow_eq (a b : UInt8) :
    (decide (b < a)).toUInt8 = if b.toNat < a.toNat then 1 else 0 := by
  rw [toUInt8_decide]
  simp only [UInt8.lt_iff_toNat_lt]

theorem toNat_difference (a b : UInt8) :
    ((a - b).toNat : Int) = (a.toNat - b.toNat : Int) % 256 := by
  have ha := a.toNat_lt
  have hb := b.toNat_lt
  rw [UInt8.toNat_sub]
  omega

theorem toNat_lastBit (a : UInt8) : (a % 2 == 1).toUInt8.toNat = a.toNat % 2 := by
  have hmod : (a % 2).toNat = a.toNat % 2 := UInt8.toNat_mod a 2
  change (decide (a % 2 = 1)).toUInt8.toNat = _
  rw [toUInt8_decide]
  split
  · rename_i h
    rw [← hmod, h]
  · rename_i h
    have hne : (a % 2).toNat ≠ 1 := fun e => h (UInt8.toNat_inj.1 e)
    rw [UInt8.toNat_zero]
    omega

theorem toNat_firstBit (a : UInt8) :
    (decide (128 ≤ a)).toUInt8.toNat = 2 * a.toNat / 256 := by
  have ha := a.toNat_lt
  have hle : 128 ≤ a ↔ 128 ≤ a.toNat := UInt8.le_iff_toNat_le
  rw [toUInt8_decide]
  simp only [hle]
  split
  · rw [UInt8.toNat_one]
    omega
  · rw [UInt8.toNat_zero]
    omega

/-! ## The laws of the instructions -/

/-- Whatever else becomes of the machine afterwards does not matter to the law. -/
theorem RegisterLaw.congr {randomByte : UInt8} {m m' m'' : Machine} {i : Instruction}
    (hl : RegisterLaw randomByte m m' i) (h : m''.registers = m'.registers) :
    RegisterLaw randomByte m m'' i := by
  have hregister : m''.register = m'.register := by
    funext k
    rw [register, register, h]
  cases i with
  | _ => simpa only [RegisterLaw, ChangesOnly, hregister] using hl

theorem registerLaw_effect {m : Machine} (hs : m.screen.IsScreen) (randomByte : UInt8)
    (i : Instruction) : RegisterLaw randomByte m (m.effect randomByte i) i := by
  cases i with
  | load x value => exact ⟨changesOnly_setResult m x _, register_setResult m x _⟩
  | increase x value =>
    refine ⟨changesOnly_setResult m x _, ?_⟩
    rw [effect, register_setResult, UInt8.toNat_add]
  | copy x y => exact ⟨changesOnly_setResult m x _, register_setResult m x _⟩
  | bitOr x y =>
    refine ⟨changesOnly_setResult m x _, ?_⟩
    rw [effect, register_setResult, UInt8.toNat_or]
  | bitAnd x y =>
    refine ⟨changesOnly_setResult m x _, ?_⟩
    rw [effect, register_setResult, UInt8.toNat_and]
  | bitXor x y =>
    refine ⟨changesOnly_setResult m x _, ?_⟩
    rw [effect, register_setResult, UInt8.toNat_xor]
  | add x y =>
    refine ⟨changesOnly_setResultAndFlag m x _ _, ?_, fun hx => ?_⟩
    · rw [effect, flag_setResultAndFlag, toNat_carry]
    · rw [effect, flag_setResultAndFlag, register_setResultAndFlag m hx, toNat_carry,
        UInt8.toNat_add]
      omega
  | subtract x y =>
    refine ⟨changesOnly_setResultAndFlag m x _ _, ?_, fun hx => ?_⟩
    · rw [effect, flag_setResultAndFlag, borrow_eq]
    · rw [effect, register_setResultAndFlag m hx, toNat_difference]
  | shiftRight x =>
    refine ⟨changesOnly_setResultAndFlag m x _ _, ?_, fun hx => ?_⟩
    · rw [effect, flag_setResultAndFlag, toNat_lastBit]
    · have hhalf : (m.register x / 2).toNat = (m.register x).toNat / 2 := UInt8.toNat_div _ 2
      rw [effect, flag_setResultAndFlag, register_setResultAndFlag m hx, toNat_lastBit, hhalf]
      omega
  | subtractFrom x y =>
    refine ⟨changesOnly_setResultAndFlag m x _ _, ?_, fun hx => ?_⟩
    · rw [effect, flag_setResultAndFlag, borrow_eq]
    · rw [effect, register_setResultAndFlag m hx, toNat_difference]
  | shiftLeft x =>
    refine ⟨changesOnly_setResultAndFlag m x _ _, ?_, fun hx => ?_⟩
    · rw [effect, flag_setResultAndFlag, toNat_firstBit]
    · rw [effect, flag_setResultAndFlag, register_setResultAndFlag m hx, toNat_firstBit,
        UInt8.toNat_add]
      omega
  | random x mask => exact ⟨changesOnly_setResult m x _, register_setResult m x _⟩
  | draw x y rows =>
    refine ⟨fun k hk => ?_, flag_drawSprite hs x y rows⟩
    have hne : k ≠ .flag := fun h => hk (List.mem_singleton.2 h)
    exact (register_setRegister _ _ _ _).trans (if_neg hne)
  | readDelay x => exact ⟨changesOnly_setResult m x _, register_setResult m x _⟩
  | awaitKey x =>
    refine ⟨fun key hdown hbelow => ?_, fun hup => ?_⟩
    · have hpoll := register_poll_of_some (m := { m with awaiting := some x })
        (Keypad.lowest?_eq_some_iff.2 ⟨hdown, hbelow⟩) x
      refine ⟨fun k hk => ?_, ?_⟩
      · exact (hpoll k).trans (if_neg fun h => hk (List.mem_singleton.2 h))
      · have hkey := (hpoll x).trans (if_pos rfl)
        refine (congrArg UInt8.toNat hkey).trans ?_
        exact UInt8.toNat_ofNat_of_lt' (Nat.lt_trans key.isLt (by decide))
    · have hpoll := poll_of_none (m := { m with awaiting := some x })
        (Keypad.lowest?_eq_none_iff.2 hup) x
      have hregisters := congrArg registers hpoll
      exact changesOnly_of_registers_eq hregisters
  | restoreRegisters x =>
    refine ⟨fun k hk => ?_, fun k hk => ?_⟩
    · exact (register_restore m x k).trans (if_pos hk)
    · exact (register_restore m x k).trans (if_neg (Fin.not_le.2 hk))
  | skipIfEqual | skipUnlessEqual | skipIfSame | skipUnlessSame | skipIfPressed
  | skipUnlessPressed =>
    refine changesOnly_of_registers_eq ?_
    change (m.nextSkipping _).registers = m.registers
    rw [nextSkipping_eq]
  | _ => exact changesOnly_of_registers_eq rfl

/-! ## The index -/

theorem index_effect (randomByte : UInt8) (m : Machine) (i : Instruction) :
    (m.effect randomByte i).index.toNat = m.indexAfter i := by
  cases i with
  | setIndex target => exact toNat_target target
  | addIndex x =>
    refine (UInt16.toNat_add _ _).trans ?_
    rw [UInt8.toNat_toUInt16]
    rfl
  | glyph x => exact Font.toNat_glyphAddress (m.register x)
  | awaitKey x =>
    change (poll x { m with awaiting := some x }).index.toNat = m.index.toNat
    rw [poll_eq]
  | skipIfEqual | skipUnlessEqual | skipIfSame | skipUnlessSame | skipIfPressed
  | skipUnlessPressed =>
    change (m.nextSkipping _).index.toNat = m.index.toNat
    rw [nextSkipping_eq]
  | restoreRegisters x => dsimp only [effect, restore, next, indexAfter]
  | _ => rfl

/-! ## Cycles -/

/-- **Registers and index follow the word at the program counter.** A reachable machine that does
not wait for a key and completes its cycle finds a word in memory which spells an instruction; its
registers and its index are afterwards as the laws of that instruction say, whichever registers
coincide. -/
theorem registers_and_index_follow_word {m : Machine} (h : m.Reachable) (ha : m.awaiting = none)
    {randomByte : UInt8} {outcome : Outcome} (hok : (m.cycle randomByte).result = .ok outcome) :
    ∃ w : UInt16, m.IsAtWord w ∧ (∃ i : Instruction, i.IsSpelledBy w) ∧
      ∀ i : Instruction, i.IsSpelledBy w →
        RegisterLaw randomByte m (m.cycle randomByte).machine i ∧
          (m.cycle randomByte).machine.index.toNat = m.indexAfter i := by
  obtain ⟨w, i, log, hw, hi, -, hc⟩ := exists_spelled_of_ok ha hok
  refine ⟨w, hw, ⟨i, hi⟩, fun j hj => ?_⟩
  obtain rfl := Instruction.eq_of_isSpelledBy hi hj
  have hlaw := registerLaw_effect h.sound.screen randomByte i
  rw [hc]
  exact ⟨hlaw.congr rfl, index_effect randomByte m i⟩

/-- Adding the flag register that holds 255 to itself leaves the carry in it, and nothing of the
sum. -/
theorem registers_and_index_follow_word_flag_doubled :
    let m := powerOn.machine.performAll [.load [0x6F, 0xFF, 0x8F, 0xF4], .cycle 0]
    m.awaiting = none ∧ (∃ outcome, (m.cycle 0).result = .ok outcome) ∧
      m.register .flag = 255 ∧ ((m.cycle 0).machine.register .flag).toNat = 1 := by
  intro m
  have hm : m.awaiting = none ∧ m.fault? = none ∧ m.register .flag = 255 ∧
      m.memory.read m.pc.toNat = 0x8F ∧ m.memory.read (m.pc.toNat + 1) = 0xF4 := by
    simp only [m, performAll_eq_advanceAll]
    decide +kernel
  obtain ⟨ha, hfault, hflag, hhigh, hlow⟩ := hm
  obtain ⟨outcome, hok⟩ := result_of_no_fault hfault 0
  obtain ⟨w, hw, -, hlaws⟩ :=
    registers_and_index_follow_word (reachable_performAll .powerOn _) ha hok
  have hspelled : (Instruction.add .flag .flag).IsSpelledBy w := by
    change w.toNat = 0x8FF4
    rw [hw.toNat_eq, hhigh, hlow]
    rfl
  obtain ⟨-, hsum, -⟩ := (hlaws _ hspelled).1
  refine ⟨ha, ⟨outcome, hok⟩, hflag, ?_⟩
  rw [hsum, hflag]
  rfl

end Chip8.Machine
