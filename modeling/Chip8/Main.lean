import Chip8.CommandLine
import Chip8.Random
import Chip8.Terminal.Keymap
import Chip8.Terminal.View

/-!
# The program

Runs a program in a terminal. The characters typed so far are read by a task of their own; the
session is iterated at its rate, and what it signals is drawn and sounded.
-/

namespace Chip8.Terminal

/-- The error that an attempt to read a file ended in. -/
def readErrorOf : IO.Error → ReadError
  | .noFileOrDirectory .. => .notFound
  | .inappropriateType _ 21 _ => .isDirectory
  | .inappropriateType .. => ⟨"Not a directory", some 20⟩
  | .permissionDenied .. => ⟨"Permission denied", some 13⟩
  | e => ⟨toString e, none⟩

/-- Reads a whole file. -/
def readProgram (path : String) : IO (Except ReadError Bytes) := do
  try
    return .ok (← IO.FS.readBinFile path).toList
  catch e =>
    return .error (readErrorOf e)

/-- Draws a view over the one before it. -/
def draw (v : View) : IO Unit := do
  let out ← IO.getStdout
  out.putStr "\x1b[0m\x1b[H\x1b[2J"
  for p in v.prints do
    out.putStr s!"\x1b[{p.row + 1};{p.col + 1}H\x1b[7m{p.text}\x1b[0m"
  out.flush

/-- Shows what a session signals. -/
def present : Signal → IO Unit
  | .screen screen => draw (View.ofBitmap screen)
  | .sound => do
    let out ← IO.getStdout
    out.putStr "\x07"
    out.flush
  | .keypad _ => return

/-- What has been typed and not been taken yet. -/
structure Typed where
  inputs : List Input
  /-- Whether there is nothing more to come. -/
  closed : Bool

/-- Collects what is typed until there is nothing more to come. -/
partial def collect (stdin : IO.FS.Stream) (typed : IO.Ref Typed) : IO Unit := do
  let bytes ← stdin.read 1
  if bytes.isEmpty then
    typed.modify fun t => { t with closed := true }
  else
    let inputs := bytes.toList.filterMap fun b => Input.ofChar? (Char.ofNat b.toNat)
    typed.modify fun t => { t with inputs := t.inputs ++ inputs }
    collect stdin typed

/-- Stops a session and reports how it went. -/
def finish (randomByte : UInt8) (s : Session) : IO UInt32 := do
  match (s.stop randomByte).result with
  | .ok report =>
    IO.println report.message
    return 0
  | .error e =>
    IO.eprintln e.message
    return 1

/-- Iterates a session at its rate. `k` iterations are done, the first `batchStart` of them before
the time `since`, in milliseconds. -/
partial def loop (typed : IO.Ref Typed) (randomBytes : Nat → UInt8) (since batchStart k : Nat)
    (s : Session) : IO UInt32 := do
  let t ← typed.modifyGet fun t => (t, { t with inputs := [] })
  let s := t.inputs.foldl Input.apply s
  if t.closed || t.inputs.contains .quit then
    finish (randomBytes k) s
  else
    let reply := s.iterate (randomBytes k)
    for signal in reply.signals do
      present signal
    let s := reply.session
    if !s.isRunning then
      finish (randomBytes (k + 1)) s
    else
      let now ← IO.monoMsNow
      let rate := s.options.rate
      let due := since + (k + 1 - batchStart) * 1000 / rate
      if now < due then
        IO.sleep (UInt32.ofNat (due - now))
      if (k + 1 - batchStart) % rate == 0 then
        let late := since + 1000 < (← IO.monoMsNow)
        let s := if late then s.countOverrun else s
        loop typed randomBytes (← IO.monoMsNow) (k + 1) (k + 1) s
      else
        loop typed randomBytes since batchStart (k + 1) s

/-- Runs a program until the user ends it or it ends itself. -/
def play (program : Bytes) (options : Options) : IO UInt32 := do
  let launched := CommandLine.launch program options [.screen .ignore, .sound .ignore]
  match launched.result with
  | .error e =>
    IO.eprintln e.message
    return 1
  | .ok _ =>
    let typed ← IO.mkRef ⟨[], false⟩
    let stdin ← IO.getStdin
    let _ ← IO.asTask (collect stdin typed) Task.Priority.dedicated
    draw View.blank
    let now ← IO.monoMsNow
    loop typed (Random.byte (UInt64.ofNat now)) now 0 0 launched.session

end Chip8.Terminal

/-- Runs the program named on the command line. -/
def main (arguments : List String) : IO UInt32 := do
  let arguments := Chip8.CommandLine.defaultName :: arguments
  match ← Chip8.CommandLine.prepare Chip8.Terminal.readProgram arguments with
  | .error e =>
    IO.eprintln e.message
    return 1
  | .ok (program, options) => Chip8.Terminal.play program options
