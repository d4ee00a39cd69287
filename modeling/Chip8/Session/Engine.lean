import Chip8.Machine.Cycle
import Chip8.Session.Callback
import Chip8.Session.Snapshot

/-!
# Engines

A machine together with the callbacks attached to it, which is what a session runs. `refresh` brings
new keys into the machine, and `turn` is one cycle with everything that follows it: the snapshot
takes the changed screen, then the callbacks for screens and for sound are called.
-/

namespace Chip8

/-- A machine and its callbacks. -/
structure Engine where
  machine : Machine
  onScreen : Option (Callback Bitmap Unit)
  onKeypad : Option (Callback Keypad Keypad)
  onSound : Option (Callback Unit Unit)

namespace Engine

/-- A machine without callbacks. -/
def ofMachine (m : Machine) : Engine :=
  ⟨m, none, none, none⟩

/-- Attaches a callback in place of an earlier one of its kind. -/
def attach (e : Engine) : Attachment → Engine
  | .screen callback => { e with onScreen := some callback }
  | .keypad callback => { e with onKeypad := some callback }
  | .sound callback => { e with onSound := some callback }

/-! ## Calling back -/

/-- What calling back comes to: the engine afterwards, the calls made, and whether the last of them
crashed. -/
structure Called where
  engine : Engine
  signals : List Signal
  crashed : Bool

/-- Nothing is called. -/
def quiet (e : Engine) : Called :=
  ⟨e, [], false⟩

/-- Goes on to call back unless a callback crashed. -/
def Called.andThen (c : Called) (f : Engine → Called) : Called :=
  if c.crashed then
    c
  else
    let next := f c.engine
    ⟨next.engine, c.signals ++ next.signals, next.crashed⟩

/-- Brings new keys into the machine: what the callback makes of the current ones, or the given
`handle` if there is no callback. -/
def refresh (handle : Keypad) (e : Engine) : Called :=
  let keys := e.machine.keys
  match e.onKeypad with
  | none => quiet { e with machine := e.machine.setKeys handle }
  | some callback =>
    match callback.call keys with
    | none => ⟨e, [.keypad keys], true⟩
    | some (refreshed, callback) =>
      ⟨{ e with machine := e.machine.setKeys refreshed, onKeypad := some callback },
        [.keypad keys], false⟩

/-- Calls back with the screen. -/
def callScreen (e : Engine) : Called :=
  let screen := e.machine.screen
  match e.onScreen with
  | none => quiet e
  | some callback =>
    match callback.call screen with
    | none => ⟨e, [.screen screen], true⟩
    | some (_, callback) => ⟨{ e with onScreen := some callback }, [.screen screen], false⟩

/-- Calls back because the sound timer ran out. -/
def callSound (e : Engine) : Called :=
  match e.onSound with
  | none => quiet e
  | some callback =>
    match callback.call () with
    | none => ⟨e, [.sound], true⟩
    | some (_, callback) => ⟨{ e with onSound := some callback }, [.sound], false⟩

/-- Calls back with everything that the outcome of a cycle asks for. -/
def announce (outcome : Outcome) (e : Engine) : Called :=
  (if outcome.screenChanged then e.callScreen else e.quiet).andThen fun e =>
    if outcome.soundExpired then e.callSound else e.quiet

/-! ## Turns -/

/-- How a run ended before anybody stopped it. -/
inductive Ending
  /-- A cycle faulted. -/
  | fault (fault : Fault)
  /-- A callback crashed. -/
  | crash
  deriving DecidableEq

/-- What a turn comes to. -/
structure Turn where
  engine : Engine
  snapshot : Snapshot
  /-- Whether the cycle was completed, even if a callback crashed after it. -/
  completed : Bool
  /-- How the turn ended the run, if it did. -/
  ending : Option Ending
  signals : List Signal
  log : List LogEntry

/-- One cycle and what follows it. -/
def turn (randomByte : UInt8) (color : Color) (snapshot : Snapshot) (e : Engine) : Turn :=
  let cycled := e.machine.cycle randomByte
  let e := { e with machine := cycled.machine }
  match cycled.result with
  | .error fault =>
    { engine := e
      snapshot := snapshot
      completed := false
      ending := some (.fault fault)
      signals := []
      log := cycled.log ++ [.faulted fault] }
  | .ok outcome =>
    let (snapshot, warnings) :=
      if outcome.screenChanged then snapshot.update e.machine.screen color else (snapshot, [])
    let called := e.announce outcome
    { engine := called.engine
      snapshot := snapshot
      completed := true
      ending := if called.crashed then some .crash else none
      signals := called.signals
      log := cycled.log ++ warnings }

end Engine

end Chip8
