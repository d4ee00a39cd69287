import Chip8.Session.Engine
import Chip8.Session.Options

/-!
# Sessions

A session runs a program on a machine. It is started, iterated, stopped and started again; it
refreshes the keys at a steady rate, keeps a snapshot of the screen and calls the attached
callbacks.

Between two operations a run is held right before its next cycle, the keys for that cycle being
refreshed already. So `start` refreshes the keys for the first cycle, `iterate` executes the cycle
that is held and refreshes the keys for the next one if they are due, and `stop` executes the cycle
that is held and nothing more. A run that ends on its own, by a fault or a crash, stays present
until it is stopped; a crash costs the machine.
-/

namespace Chip8

/-- A run in progress, or one that has ended but has not been stopped. -/
structure Run where
  engine : Engine
  /-- The number of completed cycles. -/
  cycles : Nat
  /-- How the run ended, if it is over. -/
  ending : Option Engine.Ending

/-- Whether a session has its machine at hand. -/
inductive Mode
  /-- The machine is at hand and nothing runs. -/
  | available (engine : Engine)
  /-- A run is present, and the machine is part of it. -/
  | active (run : Run)
  /-- The machine was lost when a run crashed. -/
  | lost

/-- A session. -/
structure Session where
  program : Bytes
  options : Options
  mode : Mode
  snapshot : Snapshot
  /-- The keys that the user holds down. -/
  keypad : Keypad
  /-- How often the current or last run fell behind its rate. -/
  overruns : Nat

namespace Session

/-- The account of a run that ended because it was stopped. -/
structure Report where
  cycles : Nat
  overruns : Nat
  deriving DecidableEq

/-- The account as a sentence. -/
def Report.message (r : Report) : String :=
  s!"Executed {r.cycles} cycles ({r.overruns} overruns)."

/-- What an operation on a session comes to. -/
structure Reply (α : Type) where
  session : Session
  result : α
  signals : List Signal
  log : List LogEntry

/-- Goes on with the session and the result of a reply. -/
def Reply.andThen {α β : Type} (r : Reply α) (f : α → Session → Reply β) : Reply β :=
  let next := f r.result r.session
  ⟨next.session, next.result, r.signals ++ next.signals, r.log ++ next.log⟩

/-- Replies without doing anything. -/
def answer {α : Type} (result : α) (s : Session) : Reply α :=
  ⟨s, result, [], []⟩

/-- A session that runs `program` on `m` once it is started. -/
def new (m : Machine) (program : Bytes) (options : Options) : Session where
  program := program
  options := options
  mode := .available (.ofMachine m)
  snapshot := Snapshot.empty
  keypad := Keypad.released
  overruns := 0

/-! ## Looking at a session -/

/-- Whether a run is present and has not ended. -/
def isRunning (s : Session) : Bool :=
  match s.mode with
  | .active run => run.ending.isNone
  | _ => false

/-- The machine, if it is at hand. -/
def machine? (s : Session) : Option Machine :=
  match s.mode with
  | .available engine => some engine.machine
  | _ => none

/-! ## Keys and callbacks -/

/-- The user puts a key down. -/
def press (s : Session) (key : UInt8) : Session :=
  { s with keypad := s.keypad.press key }

/-- The user lets a key go. -/
def release (s : Session) (key : UInt8) : Session :=
  { s with keypad := s.keypad.release key }

/-- The user lets all keys go. -/
def releaseAll (s : Session) : Session :=
  { s with keypad := Keypad.released }

/-- Attaches a callback, provided that the machine is at hand. -/
def attach (s : Session) (attachment : Attachment) : Session :=
  match s.mode with
  | .available engine => { s with mode := .available (engine.attach attachment) }
  | _ => s

/-! ## Starting -/

/-- Refreshes the keys if they are due before the cycle that is held. -/
def refresh (s : Session) : Reply Unit :=
  match s.mode with
  | .active ⟨engine, cycles, none⟩ =>
    if s.options.refreshDue cycles then
      let called := engine.refresh s.keypad
      let ending := if called.crashed then some Engine.Ending.crash else none
      ⟨{ s with mode := .active ⟨called.engine, cycles, ending⟩ }, (), called.signals, []⟩
    else
      s.answer ()
  | _ => s.answer ()

/-- Resets the machine, loads the program and begins a run by refreshing the keys. -/
def start (s : Session) : Reply (Except SessionError Unit) :=
  match s.mode with
  | .active _ => s.answer (.error .alreadyRunning)
  | .lost => s.answer (.error .machineLost)
  | .available engine =>
    let restarted := engine.machine.restart
    let loaded := restarted.machine.load s.program
    let engine := { engine with machine := loaded.machine }
    match loaded.result with
    | .error e =>
      ⟨{ s with mode := .available engine }, .error (.load e), [], restarted.log ++ loaded.log⟩
    | .ok _ =>
      let (snapshot, warnings) := s.snapshot.update engine.machine.screen s.options.color
      let refreshed :=
        { s with mode := .active ⟨engine, 0, none⟩, snapshot := snapshot, overruns := 0 }.refresh
      ⟨refreshed.session, .ok (), refreshed.signals,
        restarted.log ++ loaded.log ++ warnings ++ [.started s.options.rate] ++ refreshed.log⟩

/-! ## Running -/

/-- Executes the cycle that is held, with everything that follows it. -/
def cycle (randomByte : UInt8) (s : Session) : Reply Unit :=
  match s.mode with
  | .active ⟨engine, cycles, none⟩ =>
    let turn := engine.turn randomByte s.options.color s.snapshot
    let cycles := if turn.completed then cycles + 1 else cycles
    ⟨{ s with mode := .active ⟨turn.engine, cycles, turn.ending⟩, snapshot := turn.snapshot },
      (), turn.signals, turn.log⟩
  | _ => s.answer ()

/-- Executes the cycle that is held and goes on to right before the next one. -/
def iterate (randomByte : UInt8) (s : Session) : Reply Unit :=
  (s.cycle randomByte).andThen fun _ s => s.refresh

/-- Iterates `n` times, or until the run ends. `randomBytes i` is at hand in iteration `i`, and the
iterations are counted from `k` on. -/
def iterateFrom (randomBytes : Nat → UInt8) (k : Nat) : Nat → Session → Reply Unit
  | 0, s => s.answer ()
  | n + 1, s =>
    (s.iterate (randomBytes k)).andThen fun _ s =>
      if s.isRunning then iterateFrom randomBytes (k + 1) n s else s.answer ()

/-- Notes that the run fell behind its rate. The warning that goes with it tells how long the cycles
took, which only a clock knows, so that it is no entry of this log. -/
def countOverrun (s : Session) : Session :=
  { s with overruns := s.overruns + 1 }

/-! ## Stopping -/

/-- Takes the machine back from a run, unless the run crashed, and accounts for the run. -/
def settle (s : Session) : Reply (Except SessionError Report) :=
  match s.mode with
  | .active ⟨_, _, some .crash⟩ =>
    ⟨{ s with mode := .lost }, .error .crashed, [], [.crashed]⟩
  | .active ⟨engine, cycles, some (.fault fault)⟩ =>
    ⟨{ s with mode := .available engine }, .error (.execution fault), [],
      [.stopped cycles s.overruns]⟩
  | .active ⟨engine, cycles, none⟩ =>
    ⟨{ s with mode := .available engine }, .ok ⟨cycles, s.overruns⟩, [],
      [.stopped cycles s.overruns]⟩
  | _ => s.answer (.error .notRunning)

/-- Executes the cycle that is held and ends the run. -/
def stop (randomByte : UInt8) (s : Session) : Reply (Except SessionError Report) :=
  (s.cycle randomByte).andThen fun _ s => s.settle

/-- Gives the session up; a run that is present is stopped. -/
def close (randomByte : UInt8) (s : Session) : Reply Unit :=
  match s.mode with
  | .active _ =>
    let stopped := s.stop randomByte
    let last :=
      match stopped.result with
      | .error e => [LogEntry.closedWith e]
      | .ok _ => []
    ⟨stopped.session, (), stopped.signals, [.closedWhileRunning] ++ stopped.log ++ last⟩
  | _ => s.answer ()

end Session

end Chip8
