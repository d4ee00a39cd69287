import Chip8.Proofs.Faults
import Chip8.Proofs.Instruction.Spelling

/-!
# Where execution goes on

`SuccessorLaw` says for every instruction where the machine goes on after it, in addresses that never
wrap around, and `StackLaw` what it leaves on the stack: calls put the address behind them into the
first free slot, returns go back to the last one in use, and skips get two bytes further than the next
instruction. Both hold of every completed cycle with the instruction that its word spells; a machine
that waits for a key goes on when one is down (`control_follows_word`).
-/

namespace Chip8.Machine

/-! ## The laws -/

/-- The condition under which an instruction skips the one behind it. -/
def SkipsNext (m : Machine) : Instruction → Prop
  | .skipIfEqual x value => m.register x = value
  | .skipUnlessEqual x value => m.register x ≠ value
  | .skipIfSame x y => m.register x = m.register y
  | .skipUnlessSame x y => m.register x ≠ m.register y
  | .skipIfPressed x => ∃ key : Key, key.val = (m.register x).toNat % 16 ∧ m.keys.isDown key = true
  | .skipUnlessPressed x =>
    ∃ key : Key, key.val = (m.register x).toNat % 16 ∧ m.keys.isDown key = false
  | _ => False

/-- `m'` is one instruction further than `m` if a key is down, and else in the same place. -/
structure GoesOnWithKey (m m' : Machine) : Prop where
  of_down : (∃ key, m.keys.isDown key = true) → m'.pc.toNat = m.pc.toNat + 2
  of_up : (∀ key, m.keys.isDown key = false) → m'.pc = m.pc

/-- Where `m` goes on when it carries out an instruction and is `m'` afterwards. -/
def SuccessorLaw (m m' : Machine) : Instruction → Prop
  | .jump target | .call target => m'.pc.toNat = target.val
  | .jumpOffset target => m'.pc.toNat = target.val + (m.register .offset).toNat
  | .ret => ∃ k : Fin 16, k.val + 1 = m.stack.depth.toNat ∧ m'.pc = m.stack.slots.get k
  | .awaitKey _ => m.GoesOnWithKey m'
  | i =>
    (m.SkipsNext i → m'.pc.toNat = m.pc.toNat + 4) ∧
      (¬m.SkipsNext i → m'.pc.toNat = m.pc.toNat + 2)

/-- What becomes of the stack of `m` when it carries out an instruction and is `m'` afterwards. -/
def StackLaw (m m' : Machine) : Instruction → Prop
  | .call _ =>
    ∃ k : Fin 16, k.val = m.stack.depth.toNat ∧ m'.stack.depth.toNat = k.val + 1 ∧
      (m'.stack.slots.get k).toNat = m.pc.toNat + 2 ∧
      ∀ j : Fin 16, j ≠ k → m'.stack.slots.get j = m.stack.slots.get j
  | .ret =>
    m'.stack.depth.toNat + 1 = m.stack.depth.toNat ∧ m'.stack.slots = m.stack.slots
  | _ => m'.stack = m.stack

/-! ## Going on -/

theorem skips_iff (m : Machine) (i : Instruction) : m.skips i = true ↔ m.SkipsNext i := by
  have hkey : ∀ (x : Register) (down : Bool),
      m.keys.isDown (Key.ofByte (m.register x)) = down ↔
        ∃ key : Key, key.val = (m.register x).toNat % 16 ∧ m.keys.isDown key = down := by
    intro x down
    constructor
    · exact fun h => ⟨Key.ofByte (m.register x), rfl, h⟩
    · rintro ⟨key, hkey, h⟩
      obtain rfl : key = Key.ofByte (m.register x) := Fin.ext hkey
      exact h
  cases i with
  | skipIfPressed x => exact hkey x true
  | skipUnlessPressed x =>
    rw [skips, Bool.not_eq_true']
    exact hkey x false
  | _ => simp [skips, SkipsNext]

theorem goesOnWithKey_of_pc_eq {m m' : Machine} (hp : m.pc.toNat ≤ 0xFFE)
    (h : m'.pc = if m.keys.lowest?.isSome then m.pc + 2 else m.pc) : m.GoesOnWithKey m' where
  of_down := by
    rintro ⟨key, hdown⟩
    cases hlowest : m.keys.lowest? with
    | some other =>
      rw [h, hlowest]
      exact toNat_pc_add_two hp
    | none =>
      rw [Keypad.lowest?_eq_none_iff.1 hlowest key] at hdown
      cases hdown
  of_up hup := by
    rw [h, Keypad.lowest?_eq_none_iff.2 hup]
    rfl

/-- An instruction that neither jumps nor waits goes on behind itself, or one instruction further. -/
theorem successorLaw_of_skips {m m' : Machine} (hp : m.pc.toNat ≤ 0xFFE) {i : Instruction}
    (h : m'.pc = if m.skips i then m.pc + 2 + 2 else m.pc + 2) :
    (m.SkipsNext i → m'.pc.toNat = m.pc.toNat + 4) ∧
      (¬m.SkipsNext i → m'.pc.toNat = m.pc.toNat + 2) := by
  have hnext : (m.pc + 2).toNat = m.pc.toNat + 2 := toNat_pc_add_two hp
  have htwo : (2 : UInt16).toNat = 2 := rfl
  have hskip : (m.pc + 2 + 2).toNat = m.pc.toNat + 4 := by
    rw [UInt16.toNat_add, hnext, htwo]
    omega
  rw [h, ← skips_iff]
  constructor
  · intro hs
    rw [if_pos hs, hskip]
  · intro hs
    rw [if_neg hs, hnext]

theorem successorLaw_of_pc_eq {m m' : Machine} (hs : m.stack.Sound) (hp : m.pc.toNat ≤ 0xFFE)
    {i : Instruction} (hr : m.refusal i = none) (h : m'.pc = m.successor i) :
    m.SuccessorLaw m' i := by
  cases i with
  | jump target | call target =>
    change m'.pc.toNat = target.val
    rw [h]
    exact toNat_target target
  | jumpOffset target =>
    change m'.pc.toNat = target.val + (m.register .offset).toNat
    rw [h]
    exact toNat_target_add target _
  | ret =>
    have hdepth := depth_ne_zero_of_refusal hr
    have hle := hs.depth_le
    refine ⟨⟨m.stack.depth.toNat - 1, by omega⟩, Nat.sub_add_cancel (Nat.pos_of_ne_zero hdepth), ?_⟩
    rw [h]
    change m.stack.slots[m.stack.depth.toNat - 1]?.getD 0 = _
    rw [Vector.getElem?_eq_getElem (by omega), Option.getD_some]
    rfl
  | awaitKey x => exact goesOnWithKey_of_pc_eq hp h
  | _ => exact successorLaw_of_skips hp h

theorem stackLaw_of_stack_eq {m m' : Machine} (hp : m.pc.toNat ≤ 0xFFE) {i : Instruction}
    (hr : m.refusal i = none) (h : m'.stack = m.stackAfter i) : m.StackLaw m' i := by
  cases i with
  | call target =>
    have hlt := depth_lt_of_refusal hr
    have hslots : ∀ j : Fin 16, m'.stack.slots.get j =
        if m.stack.depth.toNat = j.val then m.pc + 2 else m.stack.slots.get j := by
      intro j
      rw [h]
      exact Vector.getElem_setIfInBounds j.isLt
    refine ⟨⟨m.stack.depth.toNat, hlt⟩, rfl, ?_, ?_, fun j hj => ?_⟩
    · rw [h]
      exact CallStack.toNat_depth_push hlt (m.pc + 2)
    · rw [hslots, if_pos rfl]
      exact toNat_pc_add_two hp
    · rw [hslots, if_neg fun e => hj (Fin.ext e.symm)]
  | ret =>
    have hdepth := depth_ne_zero_of_refusal hr
    have hpop : m'.stack = m.stack.pop := h
    refine ⟨?_, ?_⟩
    · rw [hpop, CallStack.toNat_depth_pop hdepth]
      exact Nat.sub_add_cancel (Nat.pos_of_ne_zero hdepth)
    · rw [hpop]
      rfl
  | _ => exact h

/-! ## Cycles -/

/-- **Control follows the word at the program counter.** A reachable machine that does not wait for
a key and completes its cycle finds a word in memory which spells an instruction, and goes on as that
instruction says. One that waits goes on as soon as a key is down and leaves its stack alone. -/
theorem control_follows_word {m : Machine} (h : m.Reachable) (randomByte : UInt8) :
    (∀ outcome, m.awaiting = none → (m.cycle randomByte).result = .ok outcome →
      ∃ w : UInt16, m.IsAtWord w ∧ (∃ i : Instruction, i.IsSpelledBy w) ∧
        ∀ i : Instruction, i.IsSpelledBy w →
          m.SuccessorLaw (m.cycle randomByte).machine i ∧
            m.StackLaw (m.cycle randomByte).machine i) ∧
    (∀ x, m.awaiting = some x →
      m.GoesOnWithKey (m.cycle randomByte).machine ∧
        (m.cycle randomByte).machine.stack = m.stack) := by
  constructor
  · intro outcome ha hok
    obtain ⟨w, i, log, hw, hi, hr, hc⟩ := exists_spelled_of_ok ha hok
    refine ⟨w, hw, ⟨i, hi⟩, fun j hj => ?_⟩
    obtain rfl := Instruction.eq_of_isSpelledBy hi hj
    rw [hc]
    exact ⟨successorLaw_of_pc_eq h.sound.stack hw.pc_le hr (pc_effect randomByte m i),
      stackLaw_of_stack_eq hw.pc_le hr (stack_effect randomByte m i)⟩
  · intro x hx
    obtain ⟨-, hp, -⟩ := h.sound.wait x hx
    rw [cycle_of_awaiting hx]
    exact ⟨goesOnWithKey_of_pc_eq hp (pc_poll m x), stack_poll m x⟩

/-- With key 5 down, a subroutine that waited for a key goes on, and then returns behind its call. -/
theorem control_follows_word_subroutine :
    let waiting := powerOn.machine.performAll (subroutineRun.take 4)
    let returning := powerOn.machine.performAll (subroutineRun.take 5)
    (waiting.awaiting = some 3 ∧ (waiting.cycle 0).machine.pc.toNat = waiting.pc.toNat + 2) ∧
      returning.awaiting = none ∧ (∃ outcome, (returning.cycle 0).result = .ok outcome) ∧
      (returning.cycle 0).machine.pc = 0x202 ∧
      (returning.cycle 0).machine.stack.depth.toNat = 0 := by
  intro waiting returning
  have hwaiting : waiting.awaiting = some 3 ∧ waiting.keys.isDown 5 = true := by
    simp only [waiting, performAll_eq_advanceAll]
    decide +kernel
  have hreturning : returning.awaiting = none ∧ returning.fault? = none ∧
      returning.memory.read returning.pc.toNat = 0x00 ∧
      returning.memory.read (returning.pc.toNat + 1) = 0xEE ∧
      returning.stack.depth.toNat = 1 ∧ returning.stack.slots.get 0 = 0x202 := by
    simp only [returning, performAll_eq_advanceAll]
    decide +kernel
  obtain ⟨hx, hdown⟩ := hwaiting
  obtain ⟨ha, hfault, hhigh, hlow, hdepth, hslot⟩ := hreturning
  obtain ⟨-, hwait⟩ := control_follows_word (m := waiting) (reachable_performAll .powerOn _) 0
  obtain ⟨hgoesOn, -⟩ := hwait 3 hx
  obtain ⟨outcome, hok⟩ := result_of_no_fault hfault 0
  obtain ⟨hword, -⟩ := control_follows_word (m := returning) (reachable_performAll .powerOn _) 0
  obtain ⟨w, hw, -, hlaws⟩ := hword outcome ha hok
  have hret : Instruction.ret.IsSpelledBy w := by
    change w.toNat = 0x00EE
    rw [hw.toNat_eq, hhigh, hlow]
    rfl
  obtain ⟨⟨k, hk, hpc⟩, hpopped, -⟩ := hlaws .ret hret
  obtain rfl : k = 0 := Fin.ext (by rw [Fin.val_zero]; omega)
  refine ⟨⟨hx, hgoesOn.of_down ⟨5, hdown⟩⟩, ha, ⟨outcome, hok⟩, hpc.trans hslot, ?_⟩
  omega

end Chip8.Machine
