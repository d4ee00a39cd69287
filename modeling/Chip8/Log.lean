import Chip8.Bitmap
import Chip8.Instruction.Listing
import Chip8.Keypad
import Chip8.Session.Error

/-!
# The log

What machines and sessions write down while they work. An entry is a fact; its level and its text
follow from it. The line is all that is seen of an entry, and it tells the entry
(`LogEntry.line_injective`). `LogLine` reads the lines about instructions, keys and the sound timer;
it finds in them what the entries hold, and nothing of the kind in the lines of other entries
(`LogEntry.execution?_line` and its neighbours).
-/

namespace Chip8

/-- How much attention a log entry asks for. -/
inductive LogLevel
  | trace
  | debug
  | info
  | warn
  | error
  deriving DecidableEq

/-- The name of the level. -/
def LogLevel.name : LogLevel → String
  | trace => "TRACE"
  | debug => "DEBUG"
  | info => "INFO"
  | warn => "WARN"
  | error => "ERROR"

/-- A fact worth writing down. -/
inductive LogEntry
  /-- The machine was put into its power-on state. -/
  | reset
  /-- A program of `size` bytes was loaded. -/
  | loaded (size : Nat)
  /-- The instruction of `word`, fetched at `address`, is about to be executed. -/
  | executing (address word : UInt16) (instruction : Instruction)
  /-- The machine starts to wait for a key that goes into register `x`. -/
  | awaitingKey (x : Register)
  /-- A key satisfied the wait for one. -/
  | keyTaken (key : Key)
  /-- The sound timer ran out. -/
  | soundExpired
  /-- A run was started at this many cycles per second. -/
  | started (rate : Nat)
  /-- A fault ended the run. -/
  | faulted (fault : Fault)
  /-- The run that is stopped had crashed. -/
  | crashed
  /-- The run was stopped after this many cycles, with this many overruns. -/
  | stopped (cycles overruns : Nat)
  /-- The session is closed while a run is present. -/
  | closedWhileRunning
  /-- The run that was stopped on closing ended in this error. -/
  | closedWith (error : SessionError)
  /-- The snapshot could not take the screen. -/
  | snapshotRefused (error : Bitmap.AccessError)
  deriving DecidableEq

namespace LogEntry

/-- The level of the entry. -/
def level : LogEntry → LogLevel
  | executing .. => .trace
  | reset | awaitingKey _ | keyTaken _ | soundExpired => .debug
  | loaded _ | started _ | stopped .. => .info
  | closedWhileRunning | snapshotRefused _ => .warn
  | faulted _ | crashed | closedWith _ => .error

/-- The text of the entry. -/
def message : LogEntry → String
  | reset => "CHIP-8 reset"
  | loaded size => s!"Loaded {size} byte program"
  | executing address word instruction =>
    Hex.literal 3 address.toNat ++ ": " ++ Hex.text 4 word.toNat ++ " " ++ instruction.listing
  | awaitingKey x => "Waiting for key into V" ++ Hex.text 1 x.val
  | keyTaken key => "Key " ++ Hex.text 1 key.val ++ " pressed, resuming"
  | soundExpired => "Sound timer expired"
  | started rate => s!"Started emulation at {rate} cycles per second"
  | faulted fault => "Emulation stopped: " ++ fault.message
  | crashed => "Emulation thread panicked"
  | stopped cycles overruns => s!"Stopped emulation after {cycles} cycles ({overruns} overruns)"
  | closedWhileRunning => "Driver dropped while running, stopping emulation"
  | closedWith error => error.message
  | snapshotRefused error => "Could not update frame snapshot: " ++ error.message

/-- The entry as a line of the log: its level and its text. -/
def line (entry : LogEntry) : String :=
  entry.level.name ++ " " ++ entry.message

/-! ## What an entry holds -/

/-- The entry belongs to the trace. -/
def isTrace (entry : LogEntry) : Bool :=
  entry.level == .trace

/-- The address, the word and the instruction that are announced. -/
def execution? : LogEntry → Option (UInt16 × UInt16 × Instruction)
  | executing address word instruction => some (address, word, instruction)
  | _ => none

/-- An instruction that wants a key is announced. -/
def announcesWait : LogEntry → Bool
  | executing _ _ (.awaitKey _) => true
  | _ => false

/-- The register that begins to wait for a key. -/
def awaiting? : LogEntry → Option Register
  | awaitingKey x => some x
  | _ => none

/-- The key that ends the wait for one. -/
def taken? : LogEntry → Option Key
  | keyTaken key => some key
  | _ => none

/-- The sound timer ran out. -/
def isSoundExpired : LogEntry → Bool
  | soundExpired => true
  | _ => false

end LogEntry

/-! ## What a line says -/

namespace LogLine

/-- The line belongs to the trace. -/
def isTrace (line : String) : Bool :=
  match words line with
  | "TRACE" :: _ => true
  | _ => false

/-- The address, the word and the instruction that a line of the trace names. The address stands
between `0x` and a colon. -/
def execution? (line : String) : Option (UInt16 × UInt16 × Instruction) :=
  match words line with
  | "TRACE" :: address :: word :: listing =>
    (Instruction.ofListing? listing).map fun instruction =>
      (UInt16.ofNat (Hex.value (address.toList.drop 2).dropLast),
        UInt16.ofNat (Hex.value word.toList), instruction)
  | _ => none

/-- A line of the trace whose instruction wants a key. -/
def announcesWait (line : String) : Bool :=
  match words line with
  | "TRACE" :: _ :: _ :: "LdVxK" :: _ => true
  | _ => false

/-- The register that begins to wait for a key, behind the letter of registers. -/
def awaiting? (line : String) : Option Register :=
  match words line with
  | ["DEBUG", "Waiting", "for", "key", "into", register] =>
    some (Instruction.numberedRegister (Hex.value (register.toList.drop 1)))
  | _ => none

/-- The key that ends the wait for one. -/
def taken? (line : String) : Option Key :=
  match words line with
  | ["DEBUG", "Key", key, "pressed,", "resuming"] =>
    some (Key.ofByte (UInt8.ofNat (Hex.value key.toList)))
  | _ => none

/-- The sound timer ran out. -/
def isSoundExpired (line : String) : Bool :=
  match words line with
  | ["DEBUG", "Sound", "timer", "expired"] => true
  | _ => false

end LogLine

/-! ## Lines name what entries hold -/

namespace LogEntry

theorem words_line (entry : LogEntry) :
    words entry.line = entry.level.name :: words entry.message := by
  have hlevel : words entry.level.name = [entry.level.name] := by
    cases entry.level with
    | _ => decide
  rw [line, String.append_assoc, words_append, hlevel, List.singleton_append]

/-- The words of a message. Every number is a word by itself or but for a mark, so no two numbers
run into each other. -/
theorem words_message (entry : LogEntry) :
    words entry.message =
      match entry with
      | reset => ["CHIP-8", "reset"]
      | loaded size => ["Loaded", toString size, "byte", "program"]
      | executing address word instruction =>
        (Hex.literal 3 address.toNat ++ ":") :: Hex.text 4 word.toNat :: words instruction.listing
      | awaitingKey x => ["Waiting", "for", "key", "into", "V" ++ Hex.text 1 x.val]
      | keyTaken key => ["Key", Hex.text 1 key.val, "pressed,", "resuming"]
      | soundExpired => ["Sound", "timer", "expired"]
      | started rate => ["Started", "emulation", "at", toString rate, "cycles", "per", "second"]
      | faulted fault => "Emulation" :: "stopped:" :: words fault.message
      | crashed => ["Emulation", "thread", "panicked"]
      | stopped cycles overruns =>
        ["Stopped", "emulation", "after", toString cycles, "cycles", "(" ++ toString overruns,
          "overruns)"]
      | closedWhileRunning => ["Driver", "dropped", "while", "running,", "stopping", "emulation"]
      | closedWith error => words error.message
      | snapshotRefused error =>
        "Could" :: "not" :: "update" :: "frame" :: "snapshot:" :: words error.message := by
  cases entry with
  | reset | soundExpired | crashed | closedWhileRunning | closedWith error => rfl
  | loaded size =>
    change words ("Loaded" ++ " " ++ toString size ++ (" " ++ "byte program")) = _
    simp only [String.append_assoc, words_append, Decimal.words_toString]
    rfl
  | executing address word instruction =>
    have haddress : words (Hex.literal 3 address.toNat ++ ":") =
        [Hex.literal 3 address.toNat ++ ":"] :=
      words_append_of_not_mem (Hex.blank_not_mem_literal 3 _) (by decide)
    have hmessage : (executing address word instruction).message =
        Hex.literal 3 address.toNat ++ ":" ++ (" " ++ (Hex.text 4 word.toNat ++ (" " ++
          instruction.listing))) := by
      change Hex.literal 3 address.toNat ++ (":" ++ " ") ++ Hex.text 4 word.toNat ++ " " ++ _ = _
      simp only [String.append_assoc]
    rw [hmessage, words_append, words_append, haddress, Hex.words_text]
    rfl
  | awaitingKey x =>
    have hregister : words ("V" ++ Hex.text 1 x.val) = ["V" ++ Hex.text 1 x.val] :=
      words_append_of_not_mem (by decide) (Hex.blank_not_mem_text 1 _)
    change words ("Waiting for key into" ++ (" " ++ "V") ++ Hex.text 1 x.val) = _
    simp only [String.append_assoc, words_append, hregister]
    rfl
  | keyTaken key =>
    change words ("Key" ++ " " ++ Hex.text 1 key.val ++ (" " ++ "pressed, resuming")) = _
    simp only [String.append_assoc, words_append, Hex.words_text]
    rfl
  | started rate =>
    change words ("Started emulation at" ++ " " ++ toString rate ++
      (" " ++ "cycles per second")) = _
    simp only [String.append_assoc, words_append, Decimal.words_toString]
    rfl
  | faulted fault =>
    change words ("Emulation stopped:" ++ " " ++ fault.message) = _
    simp only [String.append_assoc, words_append]
    rfl
  | stopped cycles overruns =>
    have hoverruns : words ("(" ++ toString overruns) = ["(" ++ toString overruns] :=
      words_append_of_not_mem (by decide) (Decimal.blank_not_mem_toString overruns)
    have hmessage : (stopped cycles overruns).message =
        "Stopped emulation after" ++ (" " ++ (toString cycles ++ (" " ++ ("cycles" ++ (" " ++
          ("(" ++ toString overruns ++ (" " ++ "overruns)"))))))) := by
      change "Stopped emulation after" ++ " " ++ toString cycles ++ (" " ++ "cycles" ++ " " ++
        "(") ++ toString overruns ++ (" " ++ "overruns)") = _
      simp only [String.append_assoc]
    rw [hmessage, words_append, words_append, words_append, words_append, hoverruns,
      Decimal.words_toString]
    rfl
  | snapshotRefused error =>
    change words ("Could not update frame snapshot:" ++ " " ++ error.message) = _
    simp only [String.append_assoc, words_append]
    rfl

theorem isTrace_line (entry : LogEntry) : LogLine.isTrace entry.line = entry.isTrace := by
  rw [LogLine.isTrace, words_line]
  cases entry with
  | _ => rfl

/-- **A line of the trace names address, word and instruction**, and no other line does. -/
theorem execution?_line (entry : LogEntry) :
    LogLine.execution? entry.line = entry.execution? := by
  rw [LogLine.execution?, words_line, words_message]
  cases entry with
  | executing address word instruction =>
    have haddress : ((Hex.literal 3 address.toNat ++ ":").toList.drop 2).dropLast =
        (Hex.text 3 address.toNat).toList := by
      rw [Hex.literal, String.toList_append, String.toList_append, List.append_assoc]
      exact List.dropLast_concat
    change (Instruction.ofListing? _).map _ = some (address, word, instruction)
    rw [Instruction.ofListing?_words_listing, Option.map_some, haddress, Hex.value_text,
      Hex.value_text, UInt16.ofNat_toNat, UInt16.ofNat_toNat]
  | _ => rfl

example : LogLine.execution? "TRACE 0x200: 2204 Call \x7b address: 516 \x7d" =
    some (0x200, 0x2204, .call ⟨0x204, by decide⟩) := by
  decide

theorem announcesWait_line (entry : LogEntry) :
    LogLine.announcesWait entry.line = entry.announcesWait := by
  rw [LogLine.announcesWait, words_line, words_message]
  cases entry with
  | executing address word instruction =>
    obtain ⟨rest, hlisting, -⟩ := instruction.words_listing
    dsimp only
    rw [hlisting]
    cases instruction with
    | _ => rfl
  | _ => rfl

/-- A line that says that a key is waited for names the register. -/
theorem awaiting?_line (entry : LogEntry) : LogLine.awaiting? entry.line = entry.awaiting? := by
  rw [LogLine.awaiting?, words_line, words_message]
  cases entry with
  | awaitingKey x =>
    have hregister : ("V" ++ Hex.text 1 x.val).toList.drop 1 = (Hex.text 1 x.val).toList := by
      rw [String.toList_append]
      rfl
    change some (Instruction.numberedRegister (Hex.value (List.drop 1 _))) = some x
    rw [hregister, Hex.value_text, Instruction.numberedRegister_val]
  | _ => rfl

/-- A line that says that a key was taken names the key. -/
theorem taken?_line (entry : LogEntry) : LogLine.taken? entry.line = entry.taken? := by
  rw [LogLine.taken?, words_line, words_message]
  cases entry with
  | keyTaken key =>
    change some (Key.ofByte (UInt8.ofNat (Hex.value (Hex.text 1 key.val).toList))) = some key
    rw [Hex.value_text, Key.ofByte_ofNat_val]
  | _ => rfl

theorem isSoundExpired_line (entry : LogEntry) :
    LogLine.isSoundExpired entry.line = entry.isSoundExpired := by
  rw [LogLine.isSoundExpired, words_line, words_message]
  cases entry with
  | _ => rfl

/-- Of entries with the same level, the message tells the entry. -/
theorem eq_of_message_eq {a b : LogEntry} (hlevel : a.level = b.level)
    (h : a.message = b.message) : a = b := by
  have hwords := congrArg words h
  rw [words_message, words_message] at hwords
  -- the text of the error that ended a run is not marked by a word of its own
  have hclosed (error : SessionError) (rest : List String) :
      words error.message ≠ "Emulation" :: rest := by
    intro hemulation
    refine error.words_message_ne_emulation ?_
    rw [hemulation]
    rfl
  cases a with
  | reset =>
    cases b with
    | reset => rfl
    | awaitingKey | keyTaken | soundExpired => simp at hwords
    | _ => cases hlevel
  | loaded size =>
    cases b with
    | loaded size' => simpa [Decimal.repr_inj] using hwords
    | started | stopped => simp at hwords
    | _ => cases hlevel
  | executing address word instruction =>
    cases b with
    | executing address' word' instruction' =>
      simp only [List.cons.injEq, String.append_left_inj, Hex.literal_inj, Hex.text_inj,
        UInt16.toNat_inj] at hwords
      obtain ⟨rfl, rfl, hlisting⟩ := hwords
      rw [Instruction.eq_of_words_listing_eq hlisting]
    | _ => cases hlevel
  | awaitingKey x =>
    cases b with
    | awaitingKey x' => simpa [Hex.text_inj, Fin.ext_iff] using hwords
    | reset | keyTaken | soundExpired => simp at hwords
    | _ => cases hlevel
  | keyTaken key =>
    cases b with
    | keyTaken key' => simpa [Hex.text_inj, Fin.ext_iff] using hwords
    | reset | awaitingKey | soundExpired => simp at hwords
    | _ => cases hlevel
  | soundExpired =>
    cases b with
    | soundExpired => rfl
    | reset | awaitingKey | keyTaken => simp at hwords
    | _ => cases hlevel
  | started rate =>
    cases b with
    | started rate' => simpa [Decimal.repr_inj] using hwords
    | loaded | stopped => simp at hwords
    | _ => cases hlevel
  | stopped cycles overruns =>
    cases b with
    | stopped cycles' overruns' => simpa [Decimal.repr_inj] using hwords
    | loaded | started => simp at hwords
    | _ => cases hlevel
  | closedWhileRunning =>
    cases b with
    | closedWhileRunning => rfl
    | snapshotRefused => simp at hwords
    | _ => cases hlevel
  | snapshotRefused error =>
    cases b with
    | snapshotRefused error' =>
      rw [Bitmap.AccessError.message_injective ((String.append_right_inj _).1 h)]
    | closedWhileRunning => simp at hwords
    | _ => cases hlevel
  | faulted fault =>
    cases b with
    | faulted fault' => rw [Fault.message_injective ((String.append_right_inj _).1 h)]
    | crashed => simp at hwords
    | closedWith error' => exact absurd hwords.symm (hclosed error' _)
    | _ => cases hlevel
  | crashed =>
    cases b with
    | crashed => rfl
    | faulted => simp at hwords
    | closedWith error' => exact absurd hwords.symm (hclosed error' _)
    | _ => cases hlevel
  | closedWith error =>
    cases b with
    | closedWith error' => rw [SessionError.message_injective h]
    | faulted | crashed => exact absurd hwords (hclosed error _)
    | _ => cases hlevel

/-- **A line tells its entry**: of which kind it is and what it holds. -/
theorem line_injective {a b : LogEntry} (h : a.line = b.line) : a = b := by
  have hwords := congrArg words h
  rw [words_line, words_line, List.cons.injEq] at hwords
  have hlevel : a.level = b.level := by
    obtain ⟨hname, -⟩ := hwords
    revert hname
    cases a.level with
    | _ =>
      cases b.level with
      | _ => decide
  rw [line, line, hlevel] at h
  exact eq_of_message_eq hlevel ((String.append_right_inj _).1 h)

end LogEntry

end Chip8
