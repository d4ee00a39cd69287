import Chip8.Session

/-!
# Histories of sessions

Everything that can happen to a session is an `Operation`, and a history is a list of them. `after`
is the session that a history leads to, `observations` is what is seen on the way: the answer to
every operation, the calls of callbacks, the log, and whatever a look at the session shows. Since a
look changes nothing, looking is no operation of its own.

Keys may be moved at any time, also while a cycle is under way. A cycle does not look at the keypad
of the session, so it is enough to tell the moves before a refresh from those after it.
-/

namespace Chip8

/-- What the user does to the keypad of a session. -/
inductive KeyMove
  | press (key : UInt8)
  | release (key : UInt8)
  | releaseAll

namespace Keypad

/-- The keypad after a move. -/
def move (pad : Keypad) : KeyMove → Keypad
  | .press key => pad.press key
  | .release key => pad.release key
  | .releaseAll => released

/-- The keypad after all moves of a list, in order. -/
def moveAll (pad : Keypad) (moves : List KeyMove) : Keypad :=
  moves.foldl move pad

end Keypad

namespace Session

/-- What can happen to a session. Each cycle brings its own random byte. -/
inductive Operation
  /-- The user moves a key. -/
  | keys (move : KeyMove)
  | attach (attachment : Attachment)
  | start
  /-- The cycle that is held is executed; the user makes the moves `meanwhile` before the run gets
  to its next refresh. -/
  | iterate (randomByte : UInt8) (meanwhile : List KeyMove)
  /-- A run notices that it fell behind its rate. -/
  | countOverrun
  | stop (randomByte : UInt8)

/-- The moves of the user that an operation stands for. -/
def Operation.moves : Operation → List KeyMove
  | .keys move => [move]
  | .iterate _ meanwhile => meanwhile
  | _ => []

/-- What an operation is answered with. -/
inductive Answer
  | done
  | started (result : Except SessionError Unit)
  | stopped (result : Except SessionError Report)

/-- The user moves a key. -/
def move (s : Session) : KeyMove → Session
  | .press key => s.press key
  | .release key => s.release key
  | .releaseAll => s.releaseAll

/-- The user makes all moves of a list, in order. -/
def moveAll (s : Session) (moves : List KeyMove) : Session :=
  moves.foldl move s

/-- Puts the result of a reply into other words. -/
def Reply.map {α β : Type} (f : α → β) (r : Reply α) : Reply β :=
  ⟨r.session, f r.result, r.signals, r.log⟩

/-- Performs an operation. -/
def perform (s : Session) : Operation → Reply Answer
  | .keys move => (s.move move).answer .done
  | .attach attachment => (s.attach attachment).answer .done
  | .start => s.start.map .started
  | .iterate randomByte meanwhile =>
    ((s.cycle randomByte).andThen fun _ s => (s.moveAll meanwhile).refresh).map fun _ => .done
  | .countOverrun => (if s.isRunning then s.countOverrun else s).answer .done
  | .stop randomByte => (s.stop randomByte).map .stopped

/-- The session after all operations of a history, in order. -/
def after (s : Session) : List Operation → Session
  | [] => s
  | operation :: rest => (s.perform operation).session.after rest

/-- What is seen of an operation, and of the session after it. -/
structure Observation where
  answer : Answer
  signals : List Signal
  log : List LogEntry
  running : Bool
  machine? : Option Machine
  snapshot : Snapshot
  keypad : Keypad
  overruns : Nat
  options : Options

/-- What is seen of an operation. -/
def observe (s : Session) (operation : Operation) : Observation :=
  let reply := s.perform operation
  { answer := reply.result
    signals := reply.signals
    log := reply.log
    running := reply.session.isRunning
    machine? := reply.session.machine?
    snapshot := reply.session.snapshot
    keypad := reply.session.keypad
    overruns := reply.session.overruns
    options := reply.session.options }

/-- What is seen of all operations of a history, in order. -/
def observations (s : Session) : List Operation → List Observation
  | [] => []
  | operation :: rest => s.observe operation :: (s.perform operation).session.observations rest

/-- The calls of callbacks in a history. -/
def signals (s : Session) (history : List Operation) : List Signal :=
  (s.observations history).flatMap Observation.signals

/-- A new session over a new machine. -/
def fresh (program : Bytes) (options : Options) : Session :=
  new Machine.powerOn.machine program options

/-! ## Histories in two parts -/

@[simp]
theorem after_append (s : Session) (before later : List Operation) :
    s.after (before ++ later) = (s.after before).after later := by
  induction before generalizing s with
  | nil => rfl
  | cons operation rest ih => exact ih (s.perform operation).session

theorem after_concat (s : Session) (before : List Operation) (operation : Operation) :
    s.after (before ++ [operation]) = ((s.after before).perform operation).session :=
  s.after_append before [operation]

/-! ## What stays as it is -/

/-- Moves of keys touch nothing but the keypad. -/
theorem moveAll_eq (s : Session) (moves : List KeyMove) :
    s.moveAll moves = { s with keypad := s.keypad.moveAll moves } := by
  induction moves generalizing s with
  | nil => rfl
  | cons move rest ih =>
    refine (ih (s.move move)).trans ?_
    cases move with
    | _ => rfl

end Session

end Chip8
