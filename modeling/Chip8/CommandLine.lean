import Chip8.Session

/-!
# The command line

`<program> [cycles per second]`: the path of a program and, optionally, a rate. `CommandLine.parse`
checks the arguments before any file is touched, so a wrong rate is reported even if the file cannot
be read; `CommandLine.prepare` then reads the program through whatever file system it is given.
-/

namespace Chip8

/-- How the arguments can be wrong. -/
inductive UsageError
  /-- There is no path; `command` is the name under which the program was started. -/
  | missingProgram (command : String)
  /-- The argument for the rate is not a number or too large. -/
  | invalidRate (argument : String)
  deriving DecidableEq

/-- The text of the usage error. -/
def UsageError.message : UsageError → String
  | missingProgram command => s!"Usage: {command} <program> [cycles per second]"
  | invalidRate argument => s!"Usage: Invalid number of cycles per second: {argument}"

/-- Why a file cannot be read: a description and, if the error comes from the system, its number
there. -/
structure ReadError where
  description : String
  code : Option Nat
  deriving DecidableEq

namespace ReadError

/-- The path leads nowhere. -/
def notFound : ReadError := ⟨"No such file or directory", some 2⟩

/-- The path leads to a directory. -/
def isDirectory : ReadError := ⟨"Is a directory", some 21⟩

/-- The text of the error. -/
def message (e : ReadError) : String :=
  match e.code with
  | some code => s!"{e.description} (os error {code})"
  | none => e.description

end ReadError

/-- Why a command line does not lead to a running session. -/
inductive LaunchError
  | usage (cause : UsageError)
  | unreadable (cause : ReadError)
  | session (cause : SessionError)
  deriving DecidableEq

/-- The text of the error. -/
def LaunchError.message : LaunchError → String
  | usage cause => cause.message
  | unreadable cause => "Could not read the program: " ++ cause.message
  | session cause => cause.message

namespace CommandLine

/-- The largest rate that is accepted. -/
def maxRate : Nat := 0xFFFFFFFF

/-- The value of decimal digits. -/
def decimalValue (digits : List Char) : Nat :=
  digits.foldl (fun acc c => 10 * acc + (c.toNat - 48)) 0

/-- The rate that a text denotes: decimal digits, optionally after one plus sign. -/
def parseRate (text : String) : Option Nat :=
  let digits :=
    match text.toList with
    | '+' :: rest => rest
    | cs => cs
  if digits.isEmpty || !digits.all Char.isDigit then
    none
  else if decimalValue digits ≤ maxRate then
    some (decimalValue digits)
  else
    none

/-- The name by which the program goes if its arguments do not tell it. -/
def defaultName : String := "emulator_text_ui"

/-- The path and the options that the arguments ask for; the first argument is the program's own
name. -/
def parse : List String → Except UsageError (String × Options)
  | [] => .error (.missingProgram defaultName)
  | [command] => .error (.missingProgram command)
  | [_, path] => .ok (path, .standard)
  | _ :: path :: rate :: _ =>
    match parseRate rate with
    | some n => .ok (path, { Options.standard with cyclesPerSecond := n })
    | none => .error (.invalidRate rate)

/-- The program and the options that the arguments ask for, with `read` at hand to read a file. -/
def prepare {m : Type → Type} [Monad m] (read : String → m (Except ReadError Bytes))
    (arguments : List String) : m (Except LaunchError (Bytes × Options)) := do
  match parse arguments with
  | .error e => return .error (.usage e)
  | .ok (path, options) =>
    match ← read path with
    | .error e => return .error (.unreadable e)
    | .ok program => return .ok (program, options)

/-- A started session for a program on a new machine. -/
def launch (program : Bytes) (options : Options) (attachments : List Attachment) :
    Session.Reply (Except LaunchError Unit) :=
  let powered := Machine.powerOn
  let session := attachments.foldl Session.attach (Session.new powered.machine program options)
  let started := session.start
  { started with
    result := started.result.mapError .session
    log := powered.log ++ started.log }

end CommandLine

end Chip8
