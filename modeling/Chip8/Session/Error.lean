import Chip8.Machine.Fault

/-!
# Session errors

Why a session refuses a request, or how the run that it stopped had ended. The message tells the
error (`SessionError.message_injective`), also where it is the message of a cause.
-/

namespace Chip8

/-- What starting or stopping a session can report instead of success. -/
inductive SessionError
  /-- A run is present already. -/
  | alreadyRunning
  /-- There is no run to stop. -/
  | notRunning
  /-- The machine was lost when an earlier run crashed. -/
  | machineLost
  /-- The program cannot be loaded. -/
  | load (cause : LoadError)
  /-- A cycle of the run ended in a fault. -/
  | execution (cause : Fault)
  /-- A callback crashed during the run. -/
  | crashed
  deriving DecidableEq

/-- The text of the session error; an error with a cause has the text of its cause. -/
def SessionError.message : SessionError → String
  | alreadyRunning => "The emulation is already running."
  | notRunning => "The emulation is not running."
  | machineLost => "The chip was lost in a previous run."
  | load cause => cause.message
  | execution cause => cause.message
  | crashed => "The emulation thread panicked."

/-! ## Messages tell errors apart -/

namespace SessionError

/-- **The message tells the session error.** -/
theorem message_injective {e e' : SessionError} (h : e.message = e'.message) : e = e' := by
  have hload (cause : LoadError) :
      (words cause.message)[0]? = some "The" ∧ (words cause.message)[1]? = some "program" := by
    rw [LoadError.words_message]
    cases cause with
    | _ => exact ⟨rfl, rfl⟩
  have hfault (cause : Fault) : (words cause.message)[0]? ≠ some "The" := by
    rw [Fault.words_message]
    cases cause with
    | _ => simp
  have hfirst := congrArg (fun text => (words text)[0]?) h
  have hsecond := congrArg (fun text => (words text)[1]?) h
  cases e with
  | load cause =>
    cases e' with
    | load cause' => rw [LoadError.message_injective h]
    | execution cause' => exact absurd (hfirst.symm.trans (hload cause).1) (hfault cause')
    | _ => exact absurd (hsecond.symm.trans (hload cause).2) (by decide)
  | execution cause =>
    cases e' with
    | load cause' => exact absurd (hfirst.trans (hload cause').1) (hfault cause)
    | execution cause' => rw [Fault.message_injective h]
    | _ => exact absurd (hfirst.trans (by decide)) (hfault cause)
  | alreadyRunning | notRunning | machineLost | crashed =>
    cases e' with
    | load cause' => exact absurd (hsecond.trans (hload cause').2) (by decide)
    | execution cause' => exact absurd (hfirst.symm.trans (by decide)) (hfault cause')
    | _ =>
      revert h
      decide

/-- A message of a session error begins otherwise than the lines about the end of a run. -/
theorem words_message_ne_emulation (e : SessionError) :
    (words e.message)[0]? ≠ some "Emulation" := by
  cases e with
  | load cause =>
    rw [message, LoadError.words_message]
    cases cause with
    | _ => simp
  | execution cause =>
    rw [message, Fault.words_message]
    cases cause with
    | _ => simp
  | _ => decide

end SessionError

end Chip8
