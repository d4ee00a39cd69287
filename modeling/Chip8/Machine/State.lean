import Chip8.Bitmap
import Chip8.Font
import Chip8.Instruction
import Chip8.Keypad

/-!
# The state of a machine

Memory, registers, index, program counter, screen, timers, keys and call stack, along with what the
last cycle left behind: whether it touched the screen, and the register that waits for a key.
-/

namespace Chip8

/-- The return addresses of the calls in progress. `depth` is the number of slots in use; slots from
there on keep what was last written to them. -/
structure CallStack where
  slots : Vector UInt16 16
  depth : UInt8
  deriving DecidableEq

namespace CallStack

/-- The number of slots. -/
def capacity : Nat := 16

/-- The stack without any call in progress. -/
def empty : CallStack :=
  ⟨Vector.replicate 16 0, 0⟩

/-- Whether every slot is in use. -/
def isFull (s : CallStack) : Bool :=
  decide (capacity ≤ s.depth.toNat)

/-- Whether no slot is in use. -/
def isEmpty (s : CallStack) : Bool :=
  s.depth == 0

/-- The return address in slot `k`. -/
def slot (s : CallStack) (k : Nat) : UInt16 :=
  s.slots[k]?.getD 0

/-- Puts a return address on top. -/
def push (s : CallStack) (address : UInt16) : CallStack :=
  ⟨s.slots.setIfInBounds s.depth.toNat address, s.depth + 1⟩

/-- The return address on top. -/
def top (s : CallStack) : UInt16 :=
  s.slot (s.depth.toNat - 1)

/-- Takes the return address on top away. -/
def pop (s : CallStack) : CallStack :=
  { s with depth := s.depth - 1 }

end CallStack

/-- The number of columns of the screen. -/
def screenWidth : Nat := 64

/-- The number of rows of the screen. -/
def screenHeight : Nat := 32

/-- The whole state of a machine. The meanings of the instruction words are no part of it; they are
the same for all machines at all times (`Instruction.table`). -/
@[ext]
structure Machine where
  memory : Memory
  registers : Vector UInt8 16
  index : UInt16
  pc : UInt16
  screen : Bitmap
  delayTimer : UInt8
  soundTimer : UInt8
  keys : Keypad
  stack : CallStack
  /-- Whether the last cycle touched the screen. -/
  screenChanged : Bool
  /-- The register that waits for a key. -/
  awaiting : Option Register
  deriving DecidableEq

namespace Machine

/-- Puts everything into the power-on state. The screen keeps its size. -/
def reset (m : Machine) : Machine where
  memory := Font.memory
  registers := Vector.replicate 16 0
  index := 0
  pc := UInt16.ofNat Memory.programStart
  screen := m.screen.clear
  delayTimer := 0
  soundTimer := 0
  keys := Keypad.released
  stack := CallStack.empty
  screenChanged := true
  awaiting := none

/-- A new machine, in its power-on state. -/
def new : Machine where
  memory := Font.memory
  registers := Vector.replicate 16 0
  index := 0
  pc := UInt16.ofNat Memory.programStart
  screen := Bitmap.blank screenWidth screenHeight
  delayTimer := 0
  soundTimer := 0
  keys := Keypad.released
  stack := CallStack.empty
  screenChanged := true
  awaiting := none

/-- The byte in register `x`. -/
def register (m : Machine) (x : Register) : UInt8 :=
  m.registers[x]

/-- Puts a byte into register `x`. -/
def setRegister (m : Machine) (x : Register) (value : UInt8) : Machine :=
  { m with registers := m.registers.set x value }

/-- Sets all keys at once. -/
def setKeys (m : Machine) (keys : Keypad) : Machine :=
  { m with keys := keys }

/-- Moves the program counter on by one instruction. -/
def next (m : Machine) : Machine :=
  { m with pc := m.pc + 2 }

/-- Moves the program counter on by one instruction, or by two if `condition` holds. -/
def nextSkipping (condition : Bool) (m : Machine) : Machine :=
  if condition then m.next.next else m.next

/-- Lets the lowest key that is down, if any is, end the wait for a key into register `x`. -/
def poll (x : Register) (m : Machine) : Machine :=
  match m.keys.lowest? with
  | some key => { m.setRegister x (UInt8.ofNat key.val) with awaiting := none }.next
  | none => m

/-- A timer after one cycle. -/
def countDown (timer : UInt8) : UInt8 :=
  if timer = 0 then 0 else timer - 1

/-- Lets both timers run for one cycle. -/
def tick (m : Machine) : Machine :=
  { m with delayTimer := countDown m.delayTimer, soundTimer := countDown m.soundTimer }

/-! ## Registers and timers -/

@[simp]
theorem register_setRegister (m : Machine) (x y : Register) (value : UInt8) :
    (m.setRegister x value).register y = if y = x then value else m.register y := by
  simp only [register, setRegister, Fin.getElem_fin, Vector.getElem_set]
  by_cases h : y = x
  · simp [h]
  · have : ¬x.val = y.val := fun e => h (Fin.ext e.symm)
    simp [h, this]

/-- A timer runs down to zero and stays there. -/
theorem toNat_countDown (timer : UInt8) : (countDown timer).toNat = timer.toNat - 1 := by
  unfold countDown
  split
  · rename_i h
    simp [h]
  · rename_i h
    have : timer.toNat ≠ 0 := fun e => h (UInt8.toNat_inj.1 e)
    exact UInt8.toNat_sub_of_le _ _ (UInt8.le_iff_toNat_le.2 (Nat.pos_of_ne_zero this))

end Machine

end Chip8
