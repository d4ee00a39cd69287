import Chip8.Proofs.Effect

/-!
# Cycles that check every access

A second way to execute a cycle, which takes nothing for granted: it comes to nothing (`none`) as
soon as an index is past the end of what it indexes, a sum or a difference leaves its width, or a
run of bytes is copied to a run of another length. `cycleChecked_eq` says that a sound machine gets
through every cycle that way and that the cycle comes to the same; so none of the checks can fail
in a reachable machine (`reachable_safe`).
-/

namespace Chip8

/-! ## Checked accesses -/

/-- The sum, unless it wraps around. -/
def addChecked (a b : UInt16) : Option UInt16 :=
  if a.toNat + b.toNat < 0x10000 then some (a + b) else none

/-- The product, unless it wraps around. -/
def mulChecked (a b : UInt16) : Option UInt16 :=
  if a.toNat * b.toNat < 0x10000 then some (a * b) else none

/-- The vector with entry `k` replaced, if there is such an entry. -/
def setChecked {α : Type} {n : Nat} (v : Vector α n) (k : Nat) (a : α) : Option (Vector α n) :=
  if h : k < n then some (v.set k a) else none

namespace CallStack

/-- Puts a return address on top, if there is a slot for it. -/
def pushChecked (s : CallStack) (address : UInt16) : Option CallStack := do
  let slots ← setChecked s.slots s.depth.toNat address
  if s.depth.toNat + 1 < 0x100 then some ⟨slots, s.depth + 1⟩ else none

/-- The return address on top, along with the stack without it, if there is one. -/
def popChecked (s : CallStack) : Option (UInt16 × CallStack) :=
  if s.depth.toNat < 1 then
    none
  else do
    let depth := s.depth - 1
    let address ← s.slots[depth.toNat]?
    some (address, { s with depth := depth })

end CallStack

namespace Memory

/-- The run of `len` bytes from address `a` on, if it lies in memory. -/
def sliceChecked (mem : Memory) (a len : Nat) : Option Bytes :=
  if a + len ≤ size then some (mem.slice a len) else none

/-- Copies bytes to the run of `len` bytes from address `a` on, if that lies in memory and there is
one byte for each address. -/
def storeChecked (mem : Memory) (a len : Nat) (bytes : Bytes) : Option Memory :=
  if a + len ≤ size ∧ bytes.length = len then some (mem.store a bytes) else none

end Memory

namespace Bitmap

/-- Puts a byte into place `k` of the pixels. -/
def setPixel (b : Bitmap) (k : Nat) (p : UInt8) (h : k < b.pixels.size) : Bitmap :=
  { b with
    pixels := b.pixels.set k p
    size_pixels := by rw [Array.size_set, b.size_pixels] }

/-- Inverts a pixel unless it is cut off, if the array has a place for it. -/
def invertChecked (b : Bitmap) (col row : Nat) : Option (Bitmap × Bool) :=
  if col < b.width ∧ row < b.height then
    if h : row * b.width + col < b.pixels.size then
      let wasLit := b.pixels[row * b.width + col] != 0
      some (b.setPixel (row * b.width + col) (if wasLit then 0 else 1) h, wasLit)
    else
      none
  else
    some (b, false)

/-- Inverts the listed pixels one after another. -/
def invertAllChecked (b : Bitmap) : List (Nat × Nat) → Option (Bitmap × Bool)
  | [] => some (b, false)
  | (col, row) :: rest => do
    let (b', wentDark) ← b.invertChecked col row
    let (b'', laterDark) ← b'.invertAllChecked rest
    some (b'', wentDark || laterDark)

/-- Draws a sprite. -/
def compositeChecked (b : Bitmap) (col row : Nat) (sprite : Bytes) : Option (Bitmap × Bool) :=
  b.invertAllChecked (Sprite.cells col row (sprite.take (b.height - row)))

end Bitmap

/-! ## Checked instructions -/

namespace Machine

/-- The byte in the register of number `k`, if there is one. -/
def registerChecked (m : Machine) (k : Nat) : Option UInt8 :=
  m.registers[k]?

/-- The first `count` registers, if there are so many. -/
def registersChecked (m : Machine) (count : Nat) : Option Bytes :=
  if count ≤ 16 then some (m.registers.toList.take count) else none

/-- Puts a byte into the register of number `k`, if there is one. -/
def setRegisterChecked (k : Nat) (value : UInt8) (m : Machine) : Option Machine := do
  let registers ← setChecked m.registers k value
  some { m with registers := registers }

/-- Whether the key of number `k` is down, if there is one. -/
def keyChecked (m : Machine) (k : Nat) : Option Bool :=
  m.keys.down[k]?

/-- Moves the program counter on by one instruction. -/
def nextChecked (m : Machine) : Option Machine := do
  let pc ← addChecked m.pc 2
  some { m with pc := pc }

/-- Moves the program counter on by one instruction, or by two if `condition` holds. -/
def nextSkippingChecked (condition : Bool) (m : Machine) : Option Machine := do
  let m ← if condition then m.nextChecked else some m
  m.nextChecked

/-- Puts `result` into register `x`. -/
def setResultChecked (x : Nat) (result : UInt8) (m : Machine) : Option Machine := do
  let m ← m.setRegisterChecked x result
  m.nextChecked

/-- Puts `result` into register `x` and then `flag` into the flag register. -/
def setResultAndFlagChecked (x : Nat) (result : UInt8) (flag : Bool) (m : Machine) :
    Option Machine := do
  let m ← m.setRegisterChecked x result
  let m ← m.setRegisterChecked Register.flag.val flag.toUInt8
  m.nextChecked

/-- Lets the lowest key that is down end the wait for a key into register `x`. -/
def pollChecked (x : Nat) (m : Machine) : Option Machine :=
  match m.keys.lowest? with
  | some key => do
    let m ← m.setRegisterChecked x (UInt8.ofNat key.val)
    { m with awaiting := none }.nextChecked
  | none => some m

/-- Remembers where to return to and goes on at `target`. -/
def enterChecked (target : Address) (m : Machine) : Option Machine := do
  let m ← m.nextChecked
  let stack ← m.stack.pushChecked m.pc
  some { m with stack := stack, pc := UInt16.ofNat target.val }

/-- Goes on behind the last call. -/
def leaveChecked (m : Machine) : Option Machine := do
  let (address, stack) ← m.stack.popChecked
  some { m with stack := stack, pc := address }

/-- Draws the sprite of `rows` bytes at the index. -/
def drawSpriteChecked (x y rows : Nat) (m : Machine) : Option Machine := do
  let col ← m.registerChecked x
  let row ← m.registerChecked y
  let sprite ← m.memory.sliceChecked m.index.toNat rows
  let (screen, collision) ← m.screen.compositeChecked col.toNat row.toNat sprite
  let m ← { m with screen := screen }.setRegisterChecked Register.flag.val collision.toUInt8
  m.nextChecked

/-- Writes as many as `len` bytes to memory at the index. -/
def storeAtIndexChecked (len : Nat) (bytes : Bytes) (m : Machine) : Option Machine := do
  let memory ← m.memory.storeChecked m.index.toNat len bytes
  { m with memory := memory }.nextChecked

/-- Puts the bytes of a run into the registers from 0 on, if there are so many. -/
def setRegistersChecked (bytes : Bytes) (m : Machine) : Option Machine :=
  if bytes.length ≤ 16 then
    some { m with
      registers := Vector.ofFn fun k =>
        if k.val < bytes.length then bytes.getD k.val 0 else m.register k }
  else
    none

/-- Carries out an instruction that was not refused. -/
def effectChecked (randomByte : UInt8) (m : Machine) : Instruction → Option Machine
  | .clearScreen => { m with screen := m.screen.clear }.nextChecked
  | .ret => m.leaveChecked
  | .jump target => some { m with pc := UInt16.ofNat target.val }
  | .call target => m.enterChecked target
  | .skipIfEqual x value => do
    let a ← m.registerChecked x.val
    m.nextSkippingChecked (a == value)
  | .skipUnlessEqual x value => do
    let a ← m.registerChecked x.val
    m.nextSkippingChecked (a != value)
  | .skipIfSame x y => do
    let a ← m.registerChecked x.val
    let b ← m.registerChecked y.val
    m.nextSkippingChecked (a == b)
  | .skipUnlessSame x y => do
    let a ← m.registerChecked x.val
    let b ← m.registerChecked y.val
    m.nextSkippingChecked (a != b)
  | .load x value => m.setResultChecked x.val value
  | .increase x value => do
    let a ← m.registerChecked x.val
    m.setResultChecked x.val (a + value)
  | .copy x y => do
    let b ← m.registerChecked y.val
    m.setResultChecked x.val b
  | .bitOr x y => do
    let a ← m.registerChecked x.val
    let b ← m.registerChecked y.val
    m.setResultChecked x.val (a ||| b)
  | .bitAnd x y => do
    let a ← m.registerChecked x.val
    let b ← m.registerChecked y.val
    m.setResultChecked x.val (a &&& b)
  | .bitXor x y => do
    let a ← m.registerChecked x.val
    let b ← m.registerChecked y.val
    m.setResultChecked x.val (a ^^^ b)
  | .add x y => do
    let a ← m.registerChecked x.val
    let b ← m.registerChecked y.val
    m.setResultAndFlagChecked x.val (a + b) (decide (256 ≤ a.toNat + b.toNat))
  | .subtract x y => do
    let a ← m.registerChecked x.val
    let b ← m.registerChecked y.val
    m.setResultAndFlagChecked x.val (a - b) (decide (b < a))
  | .shiftRight x => do
    let a ← m.registerChecked x.val
    m.setResultAndFlagChecked x.val (a / 2) (a % 2 == 1)
  | .subtractFrom x y => do
    let a ← m.registerChecked x.val
    let b ← m.registerChecked y.val
    m.setResultAndFlagChecked x.val (b - a) (decide (a < b))
  | .shiftLeft x => do
    let a ← m.registerChecked x.val
    m.setResultAndFlagChecked x.val (a + a) (decide (128 ≤ a))
  | .setIndex target => { m with index := UInt16.ofNat target.val }.nextChecked
  | .jumpOffset target => do
    let offset ← m.registerChecked Register.offset.val
    let pc ← addChecked (UInt16.ofNat target.val) offset.toUInt16
    some { m with pc := pc }
  | .random x mask => m.setResultChecked x.val (randomByte &&& mask)
  | .draw x y rows => m.drawSpriteChecked x.val y.val rows.val
  | .skipIfPressed x => do
    let a ← m.registerChecked x.val
    let down ← m.keyChecked (a.toNat % 16)
    m.nextSkippingChecked down
  | .skipUnlessPressed x => do
    let a ← m.registerChecked x.val
    let down ← m.keyChecked (a.toNat % 16)
    m.nextSkippingChecked (!down)
  | .readDelay x => m.setResultChecked x.val m.delayTimer
  | .awaitKey x => { m with awaiting := some x }.pollChecked x.val
  | .setDelay x => do
    let a ← m.registerChecked x.val
    { m with delayTimer := a }.nextChecked
  | .setSound x => do
    let a ← m.registerChecked x.val
    { m with soundTimer := a }.nextChecked
  | .addIndex x => do
    let a ← m.registerChecked x.val
    { m with index := m.index + a.toUInt16 }.nextChecked
  | .glyph x => do
    let a ← m.registerChecked x.val
    let distance ← mulChecked a.toUInt16 (UInt16.ofNat Font.glyphSize)
    let index ← addChecked (UInt16.ofNat Font.start) distance
    { m with index := index }.nextChecked
  | .decimal x => do
    let a ← m.registerChecked x.val
    m.storeAtIndexChecked 3 (decimalDigits a)
  | .saveRegisters x => do
    let bytes ← m.registersChecked (x.val + 1)
    m.storeAtIndexChecked (x.val + 1) bytes
  | .restoreRegisters x => do
    let bytes ← m.memory.sliceChecked m.index.toNat (x.val + 1)
    let m ← m.setRegistersChecked bytes
    m.nextChecked

/-- The word at the program counter and the instruction it stands for. -/
def fetchChecked (m : Machine) : Option (Except Fault (UInt16 × Instruction)) :=
  if Memory.size ≤ m.pc.toNat + 1 then
    some (.error (.fetchOutOfBounds m.pc))
  else do
    let high ← m.memory.cells[m.pc.toNat]?
    let low ← m.memory.cells[m.pc.toNat + 1]?
    let word := UInt16.ofNat (256 * high.toNat + low.toNat)
    match Instruction.lookup word with
    | none => some (.error (.unknownInstruction word m.pc))
    | some instruction => some (.ok (word, instruction))

/-- Executes one cycle. -/
def cycleChecked (randomByte : UInt8) (m : Machine) :
    Option (Response (Except Fault Outcome)) :=
  match m.awaiting with
  | some x => do
    let m' ← m.pollChecked x.val
    some (m'.complete false m.pollLog)
  | none => do
    match ← m.fetchChecked with
    | .error fault => some ⟨m, .error fault, []⟩
    | .ok (word, instruction) =>
      let announcement := LogEntry.executing m.pc word instruction
      match m.refusal instruction with
      | some fault => some ⟨m, .error fault, [announcement]⟩
      | none => do
        let m' ← m.effectChecked randomByte instruction
        some (m'.complete instruction.changesScreen
          (announcement :: m.executionLog instruction))

end Machine

end Chip8
