import Chip8.Machine.Fault
import Chip8.Machine.State

/-!
# Executing instructions

`execute` gives the effect of every instruction. An instruction that can fail looks at what it needs
before it writes anything, and a fault hands back the state it was raised in, so that "a failed
instruction changes nothing" is a fact about the instructions and not about their caller.
-/

namespace Chip8.Machine

/-- Computations on a machine that may end in a fault. -/
abbrev Exec := EStateM Fault Machine

/-- Refuses to go on unless the `len` bytes at the index all exist. -/
def requireMemory (len : Nat) : Exec Unit := do
  let m ← get
  unless Memory.Fits m.index.toNat len do
    throw (.memoryOutOfBounds m.index.toNat len)

/-- Refuses to go on if every slot of the call stack is in use. -/
def requireFreeSlot : Exec Unit := do
  let m ← get
  if m.stack.isFull then
    throw (.stackOverflow m.pc)

/-- Refuses to go on if no call is in progress. -/
def requireCall : Exec Unit := do
  let m ← get
  if m.stack.isEmpty then
    throw (.stackUnderflow m.pc)

/-! ## Effects that cannot fail -/

/-- Puts `result` into register `x`. -/
def setResult (x : Register) (result : UInt8) (m : Machine) : Machine :=
  (m.setRegister x result).next

/-- Puts `result` into register `x` and then `flag` into the flag register, so that the flag
prevails when `x` is that register itself. -/
def setResultAndFlag (x : Register) (result : UInt8) (flag : Bool) (m : Machine) : Machine :=
  ((m.setRegister x result).setRegister .flag flag.toUInt8).next

/-- The decimal digits of a byte: hundreds, tens and ones. -/
def decimalDigits (value : UInt8) : Bytes :=
  [value / 100, value / 10 % 10, value % 10]

/-- Remembers where to return to and goes on at `target`. -/
def enter (target : Address) (m : Machine) : Machine :=
  { m with stack := m.stack.push (m.pc + 2), pc := UInt16.ofNat target.val }

/-- Goes on behind the last call. -/
def leave (m : Machine) : Machine :=
  { m with stack := m.stack.pop, pc := m.stack.top }

/-- Draws the sprite of `rows` bytes at the index and puts the collision into the flag register. -/
def drawSprite (x y : Register) (rows : Fin 16) (m : Machine) : Machine :=
  let sprite := m.memory.slice m.index.toNat rows.val
  let (screen, collision) := m.screen.composite (m.register x).toNat (m.register y).toNat sprite
  ({ m with screen := screen }.setRegister .flag collision.toUInt8).next

/-- Writes bytes to memory at the index. -/
def storeAtIndex (bytes : Bytes) (m : Machine) : Machine :=
  { m with memory := m.memory.store m.index.toNat bytes }.next

/-- Reads registers 0 to `x` from memory at the index. -/
def restore (x : Register) (m : Machine) : Machine :=
  { m with
    registers := Vector.ofFn fun k =>
      if k ≤ x then m.memory.read (m.index.toNat + k.val) else m.register k }.next

/-! ## The instructions -/

/-- Carries out an instruction. A random byte is at hand for the one instruction that needs it. -/
def execute (randomByte : UInt8) : Instruction → Exec Unit
  | .clearScreen => modify fun m => { m with screen := m.screen.clear }.next
  | .ret => do
    requireCall
    modify leave
  | .jump target => modify fun m => { m with pc := UInt16.ofNat target.val }
  | .call target => do
    requireFreeSlot
    modify (enter target)
  | .skipIfEqual x value => modify fun m => m.nextSkipping (m.register x == value)
  | .skipUnlessEqual x value => modify fun m => m.nextSkipping (m.register x != value)
  | .skipIfSame x y => modify fun m => m.nextSkipping (m.register x == m.register y)
  | .skipUnlessSame x y => modify fun m => m.nextSkipping (m.register x != m.register y)
  | .load x value => modify (setResult x value)
  | .increase x value => modify fun m => m.setResult x (m.register x + value)
  | .copy x y => modify fun m => m.setResult x (m.register y)
  | .bitOr x y => modify fun m => m.setResult x (m.register x ||| m.register y)
  | .bitAnd x y => modify fun m => m.setResult x (m.register x &&& m.register y)
  | .bitXor x y => modify fun m => m.setResult x (m.register x ^^^ m.register y)
  | .add x y => modify fun m =>
    let a := m.register x
    let b := m.register y
    m.setResultAndFlag x (a + b) (decide (256 ≤ a.toNat + b.toNat))
  | .subtract x y => modify fun m =>
    let a := m.register x
    let b := m.register y
    m.setResultAndFlag x (a - b) (decide (b < a))
  | .shiftRight x => modify fun m =>
    let a := m.register x
    m.setResultAndFlag x (a / 2) (a % 2 == 1)
  | .subtractFrom x y => modify fun m =>
    let a := m.register x
    let b := m.register y
    m.setResultAndFlag x (b - a) (decide (a < b))
  | .shiftLeft x => modify fun m =>
    let a := m.register x
    m.setResultAndFlag x (a + a) (decide (128 ≤ a))
  | .setIndex target => modify fun m => { m with index := UInt16.ofNat target.val }.next
  | .jumpOffset target => modify fun m =>
    { m with pc := UInt16.ofNat target.val + (m.register .offset).toUInt16 }
  | .random x mask => modify (setResult x (randomByte &&& mask))
  | .draw x y rows => do
    requireMemory rows.val
    modify (drawSprite x y rows)
  | .skipIfPressed x => modify fun m =>
    m.nextSkipping (m.keys.isDown (Key.ofByte (m.register x)))
  | .skipUnlessPressed x => modify fun m =>
    m.nextSkipping (!m.keys.isDown (Key.ofByte (m.register x)))
  | .readDelay x => modify fun m => m.setResult x m.delayTimer
  | .awaitKey x => modify fun m => { m with awaiting := some x }.poll x
  | .setDelay x => modify fun m => { m with delayTimer := m.register x }.next
  | .setSound x => modify fun m => { m with soundTimer := m.register x }.next
  | .addIndex x => modify fun m => { m with index := m.index + (m.register x).toUInt16 }.next
  | .glyph x => modify fun m => { m with index := Font.glyphAddress (m.register x) }.next
  | .decimal x => do
    requireMemory 3
    modify fun m => m.storeAtIndex (decimalDigits (m.register x))
  | .saveRegisters x => do
    requireMemory (x.val + 1)
    modify fun m => m.storeAtIndex (m.registers.toList.take (x.val + 1))
  | .restoreRegisters x => do
    requireMemory (x.val + 1)
    modify (restore x)

end Chip8.Machine
