import Chip8.Proofs.Effect

/-!
# Reachable machines

Everything that the outside world can do to a machine is a `Request`. A machine is `Reachable` if
requests, in any number and order, lead to it from a new machine; `reachable_performAll` says that
a list of requests does not lead out of the reachable machines. `advanceAll` leads to the same
machine as `performAll` and is what concrete runs are computed with, since it decodes the words it
comes across and needs no table of all words.
-/

namespace Chip8

/-- What a machine can be asked for. Each cycle brings its own random byte. -/
inductive Request
  | restart
  | load (program : Bytes)
  | setKeys (keys : Keypad)
  | cycle (randomByte : UInt8)

namespace Machine

/-- The machine after a request, whether that is granted or refused. -/
def perform (m : Machine) : Request → Machine
  | .restart => m.restart.machine
  | .load program => (m.load program).machine
  | .setKeys keys => m.setKeys keys
  | .cycle randomByte => (m.cycle randomByte).machine

/-- The machine after all requests of a list, in order. -/
def performAll (m : Machine) : List Request → Machine
  | [] => m
  | request :: rest => (m.perform request).performAll rest

/-- The machines that requests lead to from a new one. -/
inductive Reachable : Machine → Prop
  | powerOn : Reachable powerOn.machine
  | perform {m : Machine} (h : Reachable m) (request : Request) : Reachable (m.perform request)

/-- The machine after all requests of a list, with every cycle computed by `advance`. -/
def advanceAll (m : Machine) : List Request → Machine
  | [] => m
  | .cycle randomByte :: rest => (m.advance randomByte).advanceAll rest
  | request :: rest => (m.perform request).advanceAll rest

theorem performAll_eq_advanceAll (m : Machine) (requests : List Request) :
    m.performAll requests = m.advanceAll requests := by
  induction requests generalizing m with
  | nil => rfl
  | cons request rest ih =>
    rw [performAll, ih]
    cases request with
    | cycle randomByte => rw [perform, machine_cycle, advanceAll]
    | _ => rfl

theorem performAll_append (m : Machine) (before after : List Request) :
    m.performAll (before ++ after) = (m.performAll before).performAll after := by
  induction before generalizing m with
  | nil => rfl
  | cons request rest ih => exact ih (m.perform request)

theorem reachable_performAll {m : Machine} (h : Reachable m) (requests : List Request) :
    Reachable (m.performAll requests) := by
  induction requests generalizing m with
  | nil => exact h
  | cons request rest ih => exact ih (h.perform request)

/-- A run in which a subroutine at `0x204` waits for a key and returns once a key is down. -/
def subroutineRun : List Request :=
  [.load [0x22, 0x04, 0x12, 0x02, 0xF3, 0x0A, 0x00, 0xEE], .cycle 0, .cycle 0,
    .setKeys (Keypad.released.press 5), .cycle 0, .cycle 0]

end Machine

end Chip8
