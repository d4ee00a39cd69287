import Chip8.Machine.Cycle

/-!
# What an instruction does

An instruction is either refused, for a reason that the machine shows before anything is written
(`refusal`), or it is carried out as a whole (`effect`); `execute_eq` says that this is all that
executing it can come to. Whatever is proved about single instructions starts from here. The
lemmas named for a part of the machine say what the effect is on that part.
-/

namespace Chip8.Machine

/-! ## Refusals -/

/-- The fault that an access to the `len` bytes at the index ends in. -/
def accessRefusal (m : Machine) (len : Nat) : Option Fault :=
  if Memory.Fits m.index.toNat len then none else some (.memoryOutOfBounds m.index.toNat len)

/-- The fault that the machine raises instead of carrying out an instruction. -/
def refusal (m : Machine) : Instruction → Option Fault
  | .ret => if m.stack.isEmpty then some (.stackUnderflow m.pc) else none
  | .call _ => if m.stack.isFull then some (.stackOverflow m.pc) else none
  | .draw _ _ rows => m.accessRefusal rows.val
  | .decimal _ => m.accessRefusal 3
  | .saveRegisters x => m.accessRefusal (x.val + 1)
  | .restoreRegisters x => m.accessRefusal (x.val + 1)
  | _ => none

/-! ## Effects -/

/-- The machine after an instruction that was not refused. -/
def effect (randomByte : UInt8) (m : Machine) : Instruction → Machine
  | .clearScreen => { m with screen := m.screen.clear }.next
  | .ret => m.leave
  | .jump target => { m with pc := UInt16.ofNat target.val }
  | .call target => m.enter target
  | .skipIfEqual x value => m.nextSkipping (m.register x == value)
  | .skipUnlessEqual x value => m.nextSkipping (m.register x != value)
  | .skipIfSame x y => m.nextSkipping (m.register x == m.register y)
  | .skipUnlessSame x y => m.nextSkipping (m.register x != m.register y)
  | .load x value => m.setResult x value
  | .increase x value => m.setResult x (m.register x + value)
  | .copy x y => m.setResult x (m.register y)
  | .bitOr x y => m.setResult x (m.register x ||| m.register y)
  | .bitAnd x y => m.setResult x (m.register x &&& m.register y)
  | .bitXor x y => m.setResult x (m.register x ^^^ m.register y)
  | .add x y => m.setResultAndFlag x (m.register x + m.register y)
      (decide (256 ≤ (m.register x).toNat + (m.register y).toNat))
  | .subtract x y => m.setResultAndFlag x (m.register x - m.register y)
      (decide (m.register y < m.register x))
  | .shiftRight x => m.setResultAndFlag x (m.register x / 2) (m.register x % 2 == 1)
  | .subtractFrom x y => m.setResultAndFlag x (m.register y - m.register x)
      (decide (m.register x < m.register y))
  | .shiftLeft x => m.setResultAndFlag x (m.register x + m.register x)
      (decide (128 ≤ m.register x))
  | .setIndex target => { m with index := UInt16.ofNat target.val }.next
  | .jumpOffset target =>
    { m with pc := UInt16.ofNat target.val + (m.register .offset).toUInt16 }
  | .random x mask => m.setResult x (randomByte &&& mask)
  | .draw x y rows => m.drawSprite x y rows
  | .skipIfPressed x => m.nextSkipping (m.keys.isDown (Key.ofByte (m.register x)))
  | .skipUnlessPressed x => m.nextSkipping (!m.keys.isDown (Key.ofByte (m.register x)))
  | .readDelay x => m.setResult x m.delayTimer
  | .awaitKey x => { m with awaiting := some x }.poll x
  | .setDelay x => { m with delayTimer := m.register x }.next
  | .setSound x => { m with soundTimer := m.register x }.next
  | .addIndex x => { m with index := m.index + (m.register x).toUInt16 }.next
  | .glyph x => { m with index := Font.glyphAddress (m.register x) }.next
  | .decimal x => m.storeAtIndex (decimalDigits (m.register x))
  | .saveRegisters x => m.storeAtIndex (m.registers.toList.take (x.val + 1))
  | .restoreRegisters x => m.restore x

/-! ## What executing comes to -/

/-- The result of a computation on `m`: the fault, if there is one to raise, with `m` as it was, and
otherwise the machine `m'`. -/
def verdict (fault? : Option Fault) (m m' : Machine) : EStateM.Result Fault Machine Unit :=
  match fault? with
  | some fault => .error fault m
  | none => .ok () m'

theorem check_bind {check : Exec Unit} {fault? : Option Fault} {m : Machine}
    (h : check m = verdict fault? m m) (f : Machine → Machine) :
    (check >>= fun _ => modify f) m = verdict fault? m (f m) := by
  change EStateM.bind check _ m = _
  unfold EStateM.bind
  rw [h]
  cases fault? with
  | some fault => rfl
  | none => rfl

theorem requireMemory_eq (len : Nat) (m : Machine) :
    requireMemory len m = verdict (m.accessRefusal len) m m := by
  change (if Memory.Fits m.index.toNat len then pure () else throw _ : Exec Unit) m = _
  unfold accessRefusal
  split <;> rfl

theorem requireFreeSlot_eq (m : Machine) :
    requireFreeSlot m =
      verdict (if m.stack.isFull then some (.stackOverflow m.pc) else none) m m := by
  change (if m.stack.isFull = true then throw _ else pure () : Exec Unit) m = _
  split <;> rfl

theorem requireCall_eq (m : Machine) :
    requireCall m =
      verdict (if m.stack.isEmpty then some (.stackUnderflow m.pc) else none) m m := by
  change (if m.stack.isEmpty = true then throw _ else pure () : Exec Unit) m = _
  split <;> rfl

/-- **An instruction is refused, or carried out as a whole.** -/
theorem execute_eq (randomByte : UInt8) (m : Machine) (instruction : Instruction) :
    execute randomByte instruction m =
      verdict (m.refusal instruction) m (m.effect randomByte instruction) := by
  cases instruction with
  | ret => exact check_bind (requireCall_eq m) _
  | call target => exact check_bind (requireFreeSlot_eq m) _
  | draw x y rows => exact check_bind (requireMemory_eq _ m) _
  | decimal x => exact check_bind (requireMemory_eq _ m) _
  | saveRegisters x => exact check_bind (requireMemory_eq _ m) _
  | restoreRegisters x => exact check_bind (requireMemory_eq _ m) _
  | _ => rfl

/-! ## The effect on the parts of the machine -/

/-- Whether the instruction skips the one behind it. -/
def skips (m : Machine) : Instruction → Bool
  | .skipIfEqual x value => m.register x == value
  | .skipUnlessEqual x value => m.register x != value
  | .skipIfSame x y => m.register x == m.register y
  | .skipUnlessSame x y => m.register x != m.register y
  | .skipIfPressed x => m.keys.isDown (Key.ofByte (m.register x))
  | .skipUnlessPressed x => !m.keys.isDown (Key.ofByte (m.register x))
  | _ => false

/-- Where execution goes on after an instruction. -/
def successor (m : Machine) : Instruction → UInt16
  | .ret => m.stack.top
  | .jump target | .call target => UInt16.ofNat target.val
  | .jumpOffset target => UInt16.ofNat target.val + (m.register .offset).toUInt16
  | .awaitKey _ => if m.keys.lowest?.isSome then m.pc + 2 else m.pc
  | instruction => if m.skips instruction then m.pc + 2 + 2 else m.pc + 2

/-- The stack after an instruction: calls and returns alone touch it. -/
def stackAfter (m : Machine) : Instruction → CallStack
  | .call _ => m.stack.push (m.pc + 2)
  | .ret => m.stack.pop
  | _ => m.stack

/-- Skipping moves the program counter and nothing else. -/
theorem nextSkipping_eq (condition : Bool) (m : Machine) :
    m.nextSkipping condition = { m with pc := if condition then m.pc + 2 + 2 else m.pc + 2 } := by
  cases condition <;> rfl

theorem poll_of_some {m : Machine} {key : Key} (h : m.keys.lowest? = some key) (x : Register) :
    m.poll x = { m.setRegister x (UInt8.ofNat key.val) with awaiting := none }.next := by
  unfold poll
  rw [h]

theorem poll_of_none {m : Machine} (h : m.keys.lowest? = none) (x : Register) : m.poll x = m := by
  unfold poll
  rw [h]

theorem pc_poll (m : Machine) (x : Register) :
    (m.poll x).pc = if m.keys.lowest?.isSome then m.pc + 2 else m.pc := by
  cases h : m.keys.lowest? with
  | some key => rw [poll_of_some h]; rfl
  | none => rw [poll_of_none h]; rfl

theorem awaiting_poll (m : Machine) (x : Register) :
    (m.poll x).awaiting = if m.keys.lowest?.isSome then none else m.awaiting := by
  cases h : m.keys.lowest? with
  | some key => rw [poll_of_some h]; rfl
  | none => rw [poll_of_none h]; rfl

/-- A look at the keys touches the registers, the program counter and the wait, and nothing else. -/
theorem poll_eq (m : Machine) (x : Register) :
    m.poll x =
      { m with
        registers := (m.poll x).registers
        pc := (m.poll x).pc
        awaiting := (m.poll x).awaiting } := by
  cases h : m.keys.lowest? with
  | some key => rw [poll_of_some h]; rfl
  | none => rw [poll_of_none h]

@[simp]
theorem memory_poll (m : Machine) (x : Register) : (m.poll x).memory = m.memory := by
  rw [poll_eq]

@[simp]
theorem stack_poll (m : Machine) (x : Register) : (m.poll x).stack = m.stack := by
  rw [poll_eq]

@[simp]
theorem screen_poll (m : Machine) (x : Register) : (m.poll x).screen = m.screen := by
  rw [poll_eq]

@[simp]
theorem keys_poll (m : Machine) (x : Register) : (m.poll x).keys = m.keys := by
  rw [poll_eq]

theorem pc_effect (randomByte : UInt8) (m : Machine) (instruction : Instruction) :
    (m.effect randomByte instruction).pc = m.successor instruction := by
  cases instruction with
  | awaitKey x => exact pc_poll { m with awaiting := some x } x
  | skipIfEqual | skipUnlessEqual | skipIfSame | skipUnlessSame | skipIfPressed
  | skipUnlessPressed => exact congrArg pc (nextSkipping_eq _ m)
  | _ => rfl

theorem stack_effect (randomByte : UInt8) (m : Machine) (instruction : Instruction) :
    (m.effect randomByte instruction).stack = m.stackAfter instruction := by
  cases instruction with
  | awaitKey x => exact stack_poll { m with awaiting := some x } x
  | skipIfEqual | skipUnlessEqual | skipIfSame | skipUnlessSame | skipIfPressed
  | skipUnlessPressed =>
    change (m.nextSkipping _).stack = m.stack
    rw [nextSkipping_eq]
  | restoreRegisters x => dsimp only [effect, restore, next, stackAfter]
  | _ => rfl

/-- Clearing and drawing alone touch the screen. -/
theorem screen_effect (randomByte : UInt8) (m : Machine) (instruction : Instruction) :
    (m.effect randomByte instruction).screen =
      match instruction with
      | .clearScreen => m.screen.clear
      | .draw x y rows =>
        (m.screen.composite (m.register x).toNat (m.register y).toNat
          (m.memory.slice m.index.toNat rows.val)).1
      | _ => m.screen := by
  cases instruction with
  | awaitKey x => exact screen_poll { m with awaiting := some x } x
  | skipIfEqual | skipUnlessEqual | skipIfSame | skipUnlessSame | skipIfPressed
  | skipUnlessPressed =>
    change (m.nextSkipping _).screen = m.screen
    rw [nextSkipping_eq]
  | restoreRegisters x => dsimp only [effect, restore, next]
  | _ => rfl

/-- Writing decimal digits and saving registers alone touch memory. -/
theorem memory_effect (randomByte : UInt8) (m : Machine) (instruction : Instruction) :
    (m.effect randomByte instruction).memory =
      match instruction with
      | .decimal x => m.memory.store m.index.toNat (decimalDigits (m.register x))
      | .saveRegisters x =>
        m.memory.store m.index.toNat (m.registers.toList.take (x.val + 1))
      | _ => m.memory := by
  cases instruction with
  | awaitKey x => exact memory_poll { m with awaiting := some x } x
  | skipIfEqual | skipUnlessEqual | skipIfSame | skipUnlessSame | skipIfPressed
  | skipUnlessPressed =>
    change (m.nextSkipping _).memory = m.memory
    rw [nextSkipping_eq]
  | restoreRegisters x => dsimp only [effect, restore, next]
  | _ => rfl

/-- An instruction that waits for a key in vain alone leaves a wait behind. -/
theorem awaiting_effect (randomByte : UInt8) (m : Machine) (instruction : Instruction) :
    (m.effect randomByte instruction).awaiting =
      match instruction with
      | .awaitKey x => if m.keys.lowest?.isSome then none else some x
      | _ => m.awaiting := by
  cases instruction with
  | awaitKey x => exact awaiting_poll { m with awaiting := some x } x
  | skipIfEqual | skipUnlessEqual | skipIfSame | skipUnlessSame | skipIfPressed
  | skipUnlessPressed =>
    change (m.nextSkipping _).awaiting = m.awaiting
    rw [nextSkipping_eq]
  | restoreRegisters x => dsimp only [effect, restore, next]
  | _ => rfl

/-- No instruction moves a key. -/
theorem keys_effect (randomByte : UInt8) (m : Machine) (instruction : Instruction) :
    (m.effect randomByte instruction).keys = m.keys := by
  cases instruction with
  | awaitKey x => exact keys_poll { m with awaiting := some x } x
  | skipIfEqual | skipUnlessEqual | skipIfSame | skipUnlessSame | skipIfPressed
  | skipUnlessPressed =>
    change (m.nextSkipping _).keys = m.keys
    rw [nextSkipping_eq]
  | restoreRegisters x => dsimp only [effect, restore, next]
  | _ => rfl

/-! ## What a cycle comes to -/

/-- The instruction that the next cycle fetches, if it gets to fetch one. -/
def instruction? (m : Machine) : Option Instruction :=
  match m.awaiting with
  | some _ => none
  | none => (m.memory.word? m.pc.toNat).bind Instruction.decode

/-- The fault that the next cycle ends in, if it does. -/
def fault? (m : Machine) : Option Fault :=
  match m.awaiting, m.memory.word? m.pc.toNat with
  | some _, _ => none
  | none, none => some (.fetchOutOfBounds m.pc)
  | none, some word =>
    match Instruction.decode word with
    | none => some (.unknownInstruction word m.pc)
    | some instruction => m.refusal instruction

/-- The machine after the next cycle. -/
def advance (randomByte : UInt8) (m : Machine) : Machine :=
  match m.awaiting, m.instruction? with
  | some x, _ => ((m.poll x).complete false []).machine
  | none, none => m
  | none, some instruction =>
    match m.refusal instruction with
    | some _ => m
    | none => ((m.effect randomByte instruction).complete instruction.changesScreen []).machine

theorem fault?_of_awaiting {m : Machine} {x : Register} (h : m.awaiting = some x) :
    m.fault? = none := by
  simp only [fault?, h]

theorem fault?_of_fetch_error {m : Machine} {fault : Fault} (ha : m.awaiting = none)
    (hf : m.fetch = .error fault) : m.fault? = some fault := by
  simp only [fetch, Instruction.lookup_eq_decode] at hf
  simp only [fault?, ha]
  cases hw : m.memory.word? m.pc.toNat with
  | none =>
    simp only [hw, Except.error.injEq] at hf
    rw [← hf]
  | some word =>
    cases hd : Instruction.decode word with
    | none =>
      simp only [hw, hd, Except.error.injEq] at hf
      simp only [hd, ← hf]
    | some instruction => simp only [hw, hd, reduceCtorEq] at hf

theorem fault?_of_fetch {m : Machine} {word : UInt16} {instruction : Instruction}
    (ha : m.awaiting = none) (hf : m.fetch = .ok (word, instruction)) :
    m.fault? = m.refusal instruction := by
  obtain ⟨hw, hd⟩ := fetch_eq_ok_iff.1 hf
  simp only [fault?, ha, hw, hd]

theorem instruction?_of_fetch {m : Machine} {word : UInt16} {instruction : Instruction}
    (ha : m.awaiting = none) (hf : m.fetch = .ok (word, instruction)) :
    m.instruction? = some instruction := by
  obtain ⟨hw, hd⟩ := fetch_eq_ok_iff.1 hf
  simp only [instruction?, ha, hw, Option.bind_some, hd]

theorem instruction?_of_fetch_error {m : Machine} {fault : Fault} (ha : m.awaiting = none)
    (hf : m.fetch = .error fault) : m.instruction? = none := by
  simp only [instruction?, ha]
  cases hw : m.memory.word? m.pc.toNat with
  | none => rfl
  | some word =>
    cases hd : Instruction.decode word with
    | none => rw [Option.bind_some, hd]
    | some instruction =>
      rw [fetch_eq_ok_iff.2 ⟨hw, hd⟩] at hf
      cases hf

/-- What is fetched depends on memory and the program counter alone. -/
theorem fetch_congr {m m' : Machine} (hm : m.memory = m'.memory) (hp : m.pc = m'.pc) :
    m.fetch = m'.fetch := by
  unfold fetch
  rw [hm, hp]

/-- A machine that fetches an instruction does not wait. -/
theorem awaiting_of_instruction {m : Machine} {instruction : Instruction}
    (h : m.instruction? = some instruction) : m.awaiting = none := by
  cases ha : m.awaiting with
  | none => rfl
  | some x => simp only [instruction?, ha, reduceCtorEq] at h

theorem word_of_instruction {m : Machine} {instruction : Instruction}
    (h : m.instruction? = some instruction) :
    ∃ word, m.memory.word? m.pc.toNat = some word ∧
      Instruction.decode word = some instruction := by
  simp only [instruction?, awaiting_of_instruction h] at h
  exact Option.bind_eq_some_iff.1 h

/-- A cycle whose instruction is refused announces it and changes nothing. -/
theorem cycle_of_refusal {m : Machine} {word : UInt16} {instruction : Instruction} {fault : Fault}
    (ha : m.awaiting = none) (hf : m.fetch = .ok (word, instruction))
    (hr : m.refusal instruction = some fault) (randomByte : UInt8) :
    m.cycle randomByte = ⟨m, .error fault, [.executing m.pc word instruction]⟩ := by
  have hc := cycle_of_fetch ha hf randomByte
  rw [execute_eq, hr] at hc
  exact hc

/-- A cycle whose instruction is not refused carries it out and completes. -/
theorem cycle_of_effect {m : Machine} {word : UInt16} {instruction : Instruction}
    (ha : m.awaiting = none) (hf : m.fetch = .ok (word, instruction))
    (hr : m.refusal instruction = none) (randomByte : UInt8) :
    m.cycle randomByte = (m.effect randomByte instruction).complete instruction.changesScreen
      (.executing m.pc word instruction :: m.executionLog instruction) := by
  have hc := cycle_of_fetch ha hf randomByte
  rw [execute_eq, hr] at hc
  exact hc

/-- **The four kinds of cycles**: a look at the keys, a fetch that fails, an instruction that is
refused and one that is carried out. -/
theorem cycle_cases (randomByte : UInt8) (m : Machine) :
    (∃ x, m.awaiting = some x ∧
      m.cycle randomByte = (m.poll x).complete false m.pollLog) ∨
    (∃ fault, m.awaiting = none ∧ m.fetch = .error fault ∧
      m.cycle randomByte = ⟨m, .error fault, []⟩) ∨
    (∃ word instruction fault, m.awaiting = none ∧ m.fetch = .ok (word, instruction) ∧
      m.refusal instruction = some fault ∧
      m.cycle randomByte = ⟨m, .error fault, [.executing m.pc word instruction]⟩) ∨
    (∃ word instruction, m.awaiting = none ∧ m.fetch = .ok (word, instruction) ∧
      m.refusal instruction = none ∧
      m.cycle randomByte = (m.effect randomByte instruction).complete instruction.changesScreen
        (.executing m.pc word instruction :: m.executionLog instruction)) := by
  cases ha : m.awaiting with
  | some x => exact .inl ⟨x, rfl, cycle_of_awaiting ha randomByte⟩
  | none =>
    cases hf : m.fetch with
    | error fault => exact .inr (.inl ⟨fault, rfl, rfl, cycle_of_fetch_error ha hf randomByte⟩)
    | ok fetched =>
      obtain ⟨word, instruction⟩ := fetched
      cases hr : m.refusal instruction with
      | some fault =>
        have hc := cycle_of_refusal ha hf hr randomByte
        exact .inr (.inr (.inl ⟨word, instruction, fault, rfl, rfl, hr, hc⟩))
      | none =>
        have hc := cycle_of_effect ha hf hr randomByte
        exact .inr (.inr (.inr ⟨word, instruction, rfl, rfl, hr, hc⟩))

theorem machine_cycle (randomByte : UInt8) (m : Machine) :
    (m.cycle randomByte).machine = m.advance randomByte := by
  rcases cycle_cases randomByte m with ⟨x, ha, hc⟩ | ⟨fault, ha, hf, hc⟩ |
    ⟨word, instruction, fault, ha, hf, hr, hc⟩ | ⟨word, instruction, ha, hf, hr, hc⟩
  · simp only [hc, advance, ha]
    rfl
  · simp only [hc, advance, ha, instruction?_of_fetch_error ha hf]
  · simp only [hc, advance, ha, instruction?_of_fetch ha hf, hr]
  · simp only [hc, advance, ha, instruction?_of_fetch ha hf, hr]
    rfl

/-- Keys are moved from outside only. -/
theorem keys_cycle (randomByte : UInt8) (m : Machine) :
    (m.cycle randomByte).machine.keys = m.keys := by
  rcases cycle_cases randomByte m with ⟨x, -, hc⟩ | ⟨fault, -, -, hc⟩ |
    ⟨word, instruction, fault, -, -, -, hc⟩ | ⟨word, instruction, -, -, -, hc⟩
  · rw [hc]
    exact keys_poll m x
  · rw [hc]
  · rw [hc]
  · rw [hc]
    exact keys_effect randomByte m instruction

/-- A completed cycle that is not said to touch the screen leaves it alone. -/
theorem screen_cycle {m : Machine} {randomByte : UInt8} {outcome : Outcome}
    (h : (m.cycle randomByte).result = .ok outcome) (hs : outcome.screenChanged = false) :
    (m.cycle randomByte).machine.screen = m.screen := by
  rcases cycle_cases randomByte m with ⟨x, -, hc⟩ | ⟨fault, -, -, hc⟩ |
    ⟨word, instruction, fault, -, -, -, hc⟩ | ⟨word, instruction, -, -, -, hc⟩
  · rw [hc]
    exact screen_poll m x
  · rw [hc]
  · rw [hc]
  · rw [hc] at h ⊢
    obtain rfl : ⟨instruction.changesScreen, _⟩ = outcome := Except.ok.inj h
    refine (screen_effect randomByte m instruction).trans ?_
    cases instruction with
    | clearScreen | draw => cases hs
    | _ => rfl

/-- Only addresses whose word lies in memory are fetched from. -/
theorem pc_le_of_word {m : Machine} {word : UInt16}
    (h : m.memory.word? m.pc.toNat = some word) : m.pc.toNat ≤ 0xFFE := by
  unfold Memory.word? at h
  split at h
  · rename_i hlt
    simp only [Memory.size] at hlt
    omega
  · cases h

theorem pc_le_of_fetch {m : Machine} {word : UInt16} {instruction : Instruction}
    (h : m.fetch = .ok (word, instruction)) : m.pc.toNat ≤ 0xFFE :=
  pc_le_of_word (fetch_eq_ok_iff.1 h).1

theorem pc_le_of_instruction {m : Machine} {instruction : Instruction}
    (h : m.instruction? = some instruction) : m.pc.toNat ≤ 0xFFE := by
  obtain ⟨word, hw, -⟩ := word_of_instruction h
  exact pc_le_of_word hw

/-- Within memory the program counter moves on without wrapping around. -/
theorem toNat_pc_add_two {pc : UInt16} (h : pc.toNat ≤ 0xFFE) : (pc + 2).toNat = pc.toNat + 2 := by
  have : (2 : UInt16).toNat = 2 := rfl
  rw [UInt16.toNat_add, this]
  omega

end Chip8.Machine
