import Chip8.Proofs.Checked
import Chip8.Proofs.Invariant

/-!
# Safety

A sound machine passes every check of `cycleChecked`, and the checked cycle comes to what the cycle
comes to (`cycleChecked_eq`). So in a reachable machine no index is ever past the end of registers,
stack, memory, keypad or pixels, the stack never grows past its slots or shrinks below none, and
neither the program counter nor the address of a glyph wraps around (`reachable_safe`).
-/

namespace Chip8

/-! ## Arithmetic, stack and memory -/

theorem addChecked_of_lt {a b : UInt16} (h : a.toNat + b.toNat < 0x10000) :
    addChecked a b = some (a + b) :=
  if_pos h

theorem mulChecked_of_lt {a b : UInt16} (h : a.toNat * b.toNat < 0x10000) :
    mulChecked a b = some (a * b) :=
  if_pos h

theorem setChecked_of_lt {α : Type} {n k : Nat} (h : k < n) (v : Vector α n) (a : α) :
    setChecked v k a = some (v.set k a) :=
  dif_pos h

namespace CallStack

theorem pushChecked_eq {s : CallStack} (h : s.depth.toNat < 16) (address : UInt16) :
    s.pushChecked address = some (s.push address) := by
  have hd : s.depth.toNat + 1 < 0x100 := by omega
  have hset : s.slots.set s.depth.toNat address h =
      s.slots.setIfInBounds s.depth.toNat address := by
    apply Vector.ext
    intro i hi
    rw [Vector.getElem_set, Vector.getElem_setIfInBounds]
  simp only [pushChecked, setChecked_of_lt h, Option.bind_eq_bind, Option.bind_some, if_pos hd,
    hset, push]

theorem popChecked_eq {s : CallStack} (hs : s.Sound) (h : s.depth.toNat ≠ 0) :
    s.popChecked = some (s.top, s.pop) := by
  have hd : (s.depth - 1).toNat = s.depth.toNat - 1 := toNat_depth_pop h
  have hlt : s.depth.toNat - 1 < 16 := by
    have := hs.depth_le
    omega
  have hslot : s.slots[(s.depth - 1).toNat]? = some s.top := by
    rw [hd, top, slot, Vector.getElem?_eq_getElem hlt]
    rfl
  have hpos : ¬s.depth.toNat < 1 := by omega
  simp only [popChecked, if_neg hpos, hslot, Option.bind_eq_bind, Option.bind_some, pop]

end CallStack

namespace Memory

theorem sliceChecked_of_fits {a len : Nat} (h : Fits a len) (mem : Memory) :
    mem.sliceChecked a len = some (mem.slice a len) :=
  if_pos h

theorem storeChecked_of_fits {a len : Nat} {bytes : Bytes} (h : Fits a len)
    (hl : bytes.length = len) (mem : Memory) :
    mem.storeChecked a len bytes = some (mem.store a bytes) :=
  if_pos ⟨h, hl⟩

end Memory

/-! ## Drawing -/

namespace Bitmap

theorem invertChecked_eq (b : Bitmap) (col row : Nat) :
    b.invertChecked col row = some (b.invert col row) := by
  unfold invertChecked invert
  split
  · rename_i h
    rw [dif_pos (b.index_lt h.1 h.2)]
    rfl
  · rfl

theorem invertAllChecked_eq (b : Bitmap) (cells : List (Nat × Nat)) :
    b.invertAllChecked cells = some (b.invertAll cells) := by
  induction cells generalizing b with
  | nil => rfl
  | cons cell rest ih =>
    simp only [invertAllChecked, invertChecked_eq, ih, Option.bind_eq_bind, Option.bind_some,
      invertAll]

theorem compositeChecked_eq (b : Bitmap) (col row : Nat) (sprite : Bytes) :
    b.compositeChecked col row sprite = some (b.composite col row sprite) :=
  invertAllChecked_eq b _

end Bitmap

/-! ## Registers, keys and the program counter -/

namespace Machine

@[simp]
theorem registerChecked_val (m : Machine) (x : Register) :
    m.registerChecked x.val = some (m.register x) :=
  Vector.getElem?_eq_getElem x.isLt

@[simp]
theorem setRegisterChecked_val (x : Register) (value : UInt8) (m : Machine) :
    m.setRegisterChecked x.val value = some (m.setRegister x value) := by
  simp only [setRegisterChecked, setChecked_of_lt x.isLt, Option.bind_eq_bind, Option.bind_some,
    setRegister]

@[simp]
theorem registersChecked_val (m : Machine) (x : Register) :
    m.registersChecked (x.val + 1) = some (m.registers.toList.take (x.val + 1)) :=
  if_pos x.isLt

@[simp]
theorem keyChecked_mod (m : Machine) (b : UInt8) :
    m.keyChecked (b.toNat % 16) = some (m.keys.isDown (Key.ofByte b)) :=
  Vector.getElem?_eq_getElem (Key.ofByte b).isLt

theorem nextChecked_eq {m : Machine} (h : m.pc.toNat ≤ 0x1000) : m.nextChecked = some m.next := by
  have h2 : (2 : UInt16).toNat = 2 := rfl
  have hlt : m.pc.toNat + (2 : UInt16).toNat < 0x10000 := by omega
  simp only [nextChecked, addChecked_of_lt hlt, Option.bind_eq_bind, Option.bind_some, next]

/-! ## Instructions -/

section Instructions

variable {m : Machine} (hp : m.pc.toNat ≤ 0xFFE)

include hp

theorem nextChecked_of_fetched : m.nextChecked = some m.next :=
  nextChecked_eq (by omega)

theorem nextSkippingChecked_eq (condition : Bool) :
    m.nextSkippingChecked condition = some (m.nextSkipping condition) := by
  have hn : m.next.pc.toNat ≤ 0x1000 := by
    have : m.next.pc.toNat = m.pc.toNat + 2 := toNat_pc_add_two hp
    omega
  cases condition with
  | false => exact nextChecked_of_fetched hp
  | true =>
    simp only [nextSkippingChecked, if_true, nextChecked_of_fetched hp, Option.bind_eq_bind,
      Option.bind_some, nextChecked_eq hn, nextSkipping]

theorem setResultChecked_eq (x : Register) (result : UInt8) :
    m.setResultChecked x.val result = some (m.setResult x result) := by
  have hn : (m.setRegister x result).nextChecked = some (m.setRegister x result).next :=
    nextChecked_of_fetched hp
  simp only [setResultChecked, setRegisterChecked_val, Option.bind_eq_bind, Option.bind_some, hn,
    setResult]

theorem setResultAndFlagChecked_eq (x : Register) (result : UInt8) (flag : Bool) :
    m.setResultAndFlagChecked x.val result flag = some (m.setResultAndFlag x result flag) := by
  have hn : ((m.setRegister x result).setRegister .flag flag.toUInt8).nextChecked =
      some ((m.setRegister x result).setRegister .flag flag.toUInt8).next :=
    nextChecked_of_fetched hp
  simp only [setResultAndFlagChecked, setRegisterChecked_val, Option.bind_eq_bind,
    Option.bind_some, hn, setResultAndFlag]

theorem pollChecked_eq (x : Register) : m.pollChecked x.val = some (m.poll x) := by
  cases hk : m.keys.lowest? with
  | some key =>
    rw [poll_of_some hk]
    simp only [pollChecked, hk, setRegisterChecked_val, Option.bind_eq_bind, Option.bind_some]
    exact nextChecked_of_fetched hp
  | none =>
    rw [poll_of_none hk]
    simp only [pollChecked, hk]

theorem enterChecked_eq (hd : m.stack.depth.toNat < 16) (target : Address) :
    m.enterChecked target = some (m.enter target) := by
  have hs : m.next.stack.pushChecked m.next.pc = some (m.stack.push (m.pc + 2)) :=
    CallStack.pushChecked_eq hd _
  simp only [enterChecked, nextChecked_of_fetched hp, Option.bind_eq_bind, Option.bind_some, hs]
  rfl

theorem drawSpriteChecked_eq {rows : Fin 16} (hf : Memory.Fits m.index.toNat rows.val)
    (x y : Register) :
    m.drawSpriteChecked x.val y.val rows.val = some (m.drawSprite x y rows) := by
  simp only [drawSpriteChecked, registerChecked_val, Memory.sliceChecked_of_fits hf,
    Bitmap.compositeChecked_eq, setRegisterChecked_val, Option.bind_eq_bind, Option.bind_some]
  exact nextChecked_of_fetched hp

theorem storeAtIndexChecked_eq {len : Nat} {bytes : Bytes} (hf : Memory.Fits m.index.toNat len)
    (hl : bytes.length = len) :
    m.storeAtIndexChecked len bytes = some (m.storeAtIndex bytes) := by
  simp only [storeAtIndexChecked, Memory.storeChecked_of_fits hf hl, Option.bind_eq_bind,
    Option.bind_some]
  exact nextChecked_of_fetched hp

end Instructions

theorem leaveChecked_eq {m : Machine} (hs : m.stack.Sound) (hd : m.stack.depth.toNat ≠ 0) :
    m.leaveChecked = some m.leave := by
  simp only [leaveChecked, CallStack.popChecked_eq hs hd, Option.bind_eq_bind, Option.bind_some,
    leave]

theorem setRegistersChecked_slice (m : Machine) (x : Register) :
    m.setRegistersChecked (m.memory.slice m.index.toNat (x.val + 1)) =
      some { m with
        registers := Vector.ofFn fun k =>
          if k ≤ x then m.memory.read (m.index.toNat + k.val) else m.register k } := by
  have hl : (m.memory.slice m.index.toNat (x.val + 1)).length ≤ 16 := by
    rw [Memory.length_slice]
    exact x.isLt
  rw [setRegistersChecked, if_pos hl]
  refine congrArg (fun registers => some { m with registers := Vector.ofFn registers }) ?_
  funext k
  rw [Memory.length_slice]
  by_cases hk : k ≤ x
  · have hlt : k.val < x.val + 1 := Nat.lt_succ_of_le hk
    have hs : k.val < (m.memory.slice m.index.toNat (x.val + 1)).length := by
      rw [Memory.length_slice]
      exact hlt
    rw [if_pos hk, if_pos hlt, List.getD_eq_getElem?_getD, List.getElem?_eq_getElem hs,
      Option.getD_some, Memory.getElem_slice]
  · have hge : ¬k.val < x.val + 1 := fun h => hk (Nat.le_of_lt_succ h)
    rw [if_neg hk, if_neg hge]

theorem fits_of_accessRefusal {m : Machine} {len : Nat} (h : m.accessRefusal len = none) :
    Memory.Fits m.index.toNat len := by
  by_cases hf : Memory.Fits m.index.toNat len
  · exact hf
  · simp [accessRefusal, hf] at h

/-- **An instruction that is not refused passes every check.** -/
theorem Sound.effectChecked_eq {m : Machine} (hs : m.Sound) {instruction : Instruction}
    (hp : m.pc.toNat ≤ 0xFFE) (hr : m.refusal instruction = none) (randomByte : UInt8) :
    m.effectChecked randomByte instruction = some (m.effect randomByte instruction) := by
  cases instruction with
  | ret => exact leaveChecked_eq hs.stack (depth_ne_zero_of_refusal hr)
  | call target => exact enterChecked_eq hp (depth_lt_of_refusal hr) target
  | jumpOffset target =>
    have hlt : (UInt16.ofNat target.val).toNat + (m.register .offset).toUInt16.toNat < 0x10000 := by
      have : target.val < 4096 := target.isLt
      have := (m.register .offset).toNat_lt
      rw [toNat_target, UInt8.toNat_toUInt16]
      omega
    simp only [effectChecked, registerChecked_val, Option.bind_eq_bind, Option.bind_some,
      addChecked_of_lt hlt]
    rfl
  | glyph x =>
    have := (m.register x).toNat_lt
    have h5 : (UInt16.ofNat Font.glyphSize).toNat = 5 := rfl
    have h80 : (UInt16.ofNat Font.start).toNat = 80 := rfl
    have hmul : (m.register x).toUInt16.toNat * (UInt16.ofNat Font.glyphSize).toNat < 0x10000 := by
      rw [UInt8.toNat_toUInt16, h5]
      omega
    have hadd : (UInt16.ofNat Font.start).toNat +
        ((m.register x).toUInt16 * UInt16.ofNat Font.glyphSize).toNat < 0x10000 := by
      rw [UInt16.toNat_mul, UInt8.toNat_toUInt16, h5, h80, Nat.mod_eq_of_lt (by omega)]
      omega
    simp only [effectChecked, registerChecked_val, Option.bind_eq_bind, Option.bind_some,
      mulChecked_of_lt hmul, addChecked_of_lt hadd]
    exact nextChecked_of_fetched hp
  | awaitKey x => exact pollChecked_eq (m := { m with awaiting := some x }) hp x
  | draw x y rows => exact drawSpriteChecked_eq hp (fits_of_accessRefusal hr) x y
  | decimal x =>
    simp only [effectChecked, registerChecked_val, Option.bind_eq_bind, Option.bind_some]
    exact storeAtIndexChecked_eq hp (fits_of_accessRefusal hr) rfl
  | saveRegisters x =>
    have hl : (m.registers.toList.take (x.val + 1)).length = x.val + 1 := by
      have := x.isLt
      rw [List.length_take, Vector.length_toList]
      omega
    simp only [effectChecked, registersChecked_val, Option.bind_eq_bind, Option.bind_some]
    exact storeAtIndexChecked_eq hp (fits_of_accessRefusal hr) hl
  | restoreRegisters x =>
    simp only [effectChecked, Memory.sliceChecked_of_fits (fits_of_accessRefusal hr),
      setRegistersChecked_slice, Option.bind_eq_bind, Option.bind_some]
    exact nextChecked_of_fetched hp
  | jump target => rfl
  | clearScreen | setIndex | setDelay | setSound | addIndex =>
    simp only [effectChecked, registerChecked_val, Option.bind_eq_bind, Option.bind_some]
    exact nextChecked_of_fetched hp
  | skipIfEqual | skipUnlessEqual | skipIfSame | skipUnlessSame | skipIfPressed
  | skipUnlessPressed =>
    simp only [effectChecked, registerChecked_val, keyChecked_mod, Option.bind_eq_bind,
      Option.bind_some]
    exact nextSkippingChecked_eq hp _
  | load | increase | copy | bitOr | bitAnd | bitXor | random | readDelay =>
    simp only [effectChecked, registerChecked_val, Option.bind_eq_bind, Option.bind_some]
    exact setResultChecked_eq hp _ _
  | add | subtract | shiftRight | subtractFrom | shiftLeft =>
    simp only [effectChecked, registerChecked_val, Option.bind_eq_bind, Option.bind_some]
    exact setResultAndFlagChecked_eq hp _ _ _

/-! ## Cycles -/

theorem fetchChecked_eq (m : Machine) : m.fetchChecked = some m.fetch := by
  unfold fetchChecked fetch Memory.word?
  by_cases h : m.pc.toNat + 1 < Memory.size
  · have hlow : m.pc.toNat < Memory.size := by omega
    rw [if_neg (Nat.not_le.2 h), if_pos h]
    simp only [Memory.read, Vector.getElem?_eq_getElem h, Vector.getElem?_eq_getElem hlow,
      Option.bind_eq_bind, Option.bind_some, Option.getD_some]
    -- the table is kept out of the way of `rfl`
    generalize Instruction.lookup _ = found
    cases found with
    | none => rfl
    | some instruction => rfl
  · rw [if_pos (Nat.not_lt.1 h), if_neg h]

/-- **A cycle of a sound machine passes every check.** -/
theorem Sound.cycleChecked_eq {m : Machine} (hs : m.Sound) (randomByte : UInt8) :
    m.cycleChecked randomByte = some (m.cycle randomByte) := by
  rcases cycle_cases randomByte m with ⟨x, ha, hc⟩ | ⟨fault, ha, hf, hc⟩ |
    ⟨word, instruction, fault, ha, hf, hr, hc⟩ | ⟨word, instruction, ha, hf, hr, hc⟩
  · obtain ⟨-, hp, -⟩ := hs.wait x ha
    simp only [cycleChecked, ha, pollChecked_eq hp, Option.bind_eq_bind, Option.bind_some, hc]
  · simp only [cycleChecked, ha, fetchChecked_eq, hf, Option.bind_eq_bind, Option.bind_some, hc]
  · rw [hc, cycleChecked, ha]
    simp only [fetchChecked_eq, hf, Option.bind_eq_bind, Option.bind_some]
    rw [hr]
  · rw [hc, cycleChecked, ha]
    simp only [fetchChecked_eq, hf, Option.bind_eq_bind, Option.bind_some]
    rw [hr, hs.effectChecked_eq (pc_le_of_fetch hf) hr]
    rfl

/-- **Reachable machines are safe**: they keep to the invariant, the table holds the meaning of
every word, and no check of a further cycle fails. The table is the same constant for all machines,
since a reset never builds another one. -/
theorem reachable_safe {m : Machine} (h : m.Reachable) :
    m.Sound ∧ (∀ word, Instruction.lookup word = Instruction.decode word) ∧
      ∀ randomByte, m.cycleChecked randomByte = some (m.cycle randomByte) :=
  ⟨h.sound, Instruction.lookup_eq_decode, h.sound.cycleChecked_eq⟩

/-- A machine is safe while a subroutine waits for a key. -/
theorem reachable_safe_waiting :
    (powerOn.machine.performAll (subroutineRun.take 3)).Sound ∧
      (powerOn.machine.performAll (subroutineRun.take 3)).stack.depth = 1 ∧
      (powerOn.machine.performAll (subroutineRun.take 3)).awaiting.isSome = true := by
  have hs := reachable_safe (reachable_performAll .powerOn (subroutineRun.take 3))
  rw [performAll_eq_advanceAll] at hs ⊢
  exact ⟨hs.1, by decide +kernel⟩

end Machine

end Chip8
