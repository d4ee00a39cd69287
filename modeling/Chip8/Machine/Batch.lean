import Chip8.Machine.Cycle

/-!
# Batches of cycles

Many cycles in a row, with a tally of what they did. A batch ends early at the first fault.
-/

namespace Chip8.Machine

/-- What a batch of cycles has done so far. -/
structure Tally where
  /-- The number of completed cycles. -/
  cycles : Nat
  /-- How many of them touched the screen. -/
  screenChanges : Nat
  /-- The cycles, counted from zero, in which the sound timer ran out. -/
  expiries : Array Nat
  /-- The fault that ended the batch. -/
  fault : Option Fault
  log : Array LogEntry

namespace Tally

/-- The tally before the first cycle. -/
def zero : Tally :=
  ⟨0, 0, #[], none, #[]⟩

/-- Takes the result and the log of one more cycle into account. -/
def record (t : Tally) (result : Except Fault Outcome) (entries : List LogEntry) : Tally :=
  match result with
  | .error fault => { t with fault := some fault, log := t.log ++ entries }
  | .ok outcome =>
    { cycles := t.cycles + 1
      screenChanges := t.screenChanges + outcome.screenChanged.toNat
      expiries := if outcome.soundExpired then t.expiries.push t.cycles else t.expiries
      fault := none
      log := t.log ++ entries }

end Tally

/-- Executes up to `n` more cycles after those in the tally. `randomBytes k` is at hand in cycle `k`
of the batch. -/
def continueBatch (randomBytes : Nat → UInt8) : Nat → Tally → Machine → Machine × Tally
  | 0, tally, m => (m, tally)
  | n + 1, tally, m =>
    match tally.fault with
    | some _ => (m, tally)
    | none =>
      match m.cycle (randomBytes tally.cycles) with
      | ⟨m', result, entries⟩ => continueBatch randomBytes n (tally.record result entries) m'

/-- Executes a batch of up to `n` cycles. -/
def batch (randomBytes : Nat → UInt8) (n : Nat) (m : Machine) : Machine × Tally :=
  continueBatch randomBytes n Tally.zero m

end Chip8.Machine
