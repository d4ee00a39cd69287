import Chip8.Proofs.Session.Alike
import Chip8.Proofs.Session.Lifecycle

/-!
# A restart forgets the past

A reset makes a reachable machine equal to a new one, and a start resets everything else that a
session keeps. So a session that has its machine at hand, whatever it went through, cannot be told
from a new one over the same program once both are started (`restart_forgets`). What remains is what
a start does not touch: the user's keypad and the callbacks, which remember what they like.
-/

namespace Chip8

namespace Session

/-- Operations by which a session is prepared for its first start. -/
def Operation.prepares : Operation → Bool
  | .keys _ | .attach _ => true
  | _ => false

theorem not_started_of_prepares {s : Session} {history : List Operation}
    (h : ∀ operation ∈ history, operation.prepares) :
    ∀ seen ∈ s.observations history, seen.answer ≠ .started (.ok ()) := by
  induction history generalizing s with
  | nil => exact fun _ hmem => absurd hmem List.not_mem_nil
  | cons operation rest ih =>
    rw [List.forall_mem_cons] at h
    rw [observations, List.forall_mem_cons]
    refine ⟨?_, ih h.2⟩
    cases operation with
    | keys | attach => exact Answer.noConfusion
    | start | iterate | countOverrun | stop => cases h.1

/-- No start succeeds with a program that cannot be loaded. -/
theorem not_started_of_load_error {s : Session} (hs : s.Sound) {cause : LoadError}
    (hl : (Machine.powerOn.machine.load s.program).result = .error cause)
    (history : List Operation) :
    ∀ seen ∈ s.observations history, seen.answer ≠ .started (.ok ()) := by
  induction history generalizing s with
  | nil => exact fun _ hmem => absurd hmem List.not_mem_nil
  | cons operation rest ih =>
    rw [observations, List.forall_mem_cons]
    refine ⟨?_, ih (hs.perform operation) ?_⟩
    · cases operation with
      | start =>
        intro hstarted
        obtain ⟨-, size, hloads⟩ := hs.starts.ok_iff.1 (Answer.started.inj hstarted)
        cases hl.symm.trans hloads
      | keys | attach | iterate | countOverrun | stop => exact Answer.noConfusion
    · rw [(s.perform_frame operation).1]
      exact hl

/-- **A restart forgets the past.** Every reachable machine is reset to a new one. Hence a session
with its machine at hand behaves from a start on like a new one that was only prepared for it, if
their keypads agree and their callbacks are alike. -/
theorem restart_forgets {program : Bytes} {options : Options} {past preparation : List Operation}
    {e e' : Engine} (hused : ((fresh program options).after past).mode = .available e)
    (hnew : ((fresh program options).after preparation).mode = .available e')
    (hprepares : ∀ operation ∈ preparation, operation.prepares)
    (hkeypad : ((fresh program options).after past).keypad =
      ((fresh program options).after preparation).keypad)
    (hcallbacks : e.CallbacksAlike e') :
    (∀ m : Machine, m.Reachable → m.restart = Machine.powerOn) ∧
      ∀ later,
        ((fresh program options).after past).observations (.start :: later) =
            ((fresh program options).after preparation).observations (.start :: later) ∧
          ((fresh program options).after (past ++ .start :: later)).Alike
            ((fresh program options).after (preparation ++ .start :: later)) := by
  refine ⟨fun m hm => ?_, fun later => ?_⟩
  · rw [Machine.restart, hm.sound.reset_eq]
    rfl
  · have ho := sound_fresh program options
    have hu := unstarted_fresh program options
    have hs := ho.after past
    have hs' := ho.after preparation
    obtain ⟨hp, hoptions⟩ := (fresh program options).after_frame past
    obtain ⟨hp', hoptions'⟩ := (fresh program options).after_frame preparation
    have hunstarted := hu.after ho (not_started_of_prepares hprepares)
    have hstart := start_alike hs hs' hused hnew hcallbacks (hp.trans hp'.symm)
      (hoptions.trans hoptions'.symm) hkeypad fun cause hl => by
        rw [hp] at hl
        have hpast := hu.after ho (not_started_of_load_error ho hl past)
        exact ⟨hpast.snapshot_eq.trans hunstarted.snapshot_eq.symm,
          hpast.overruns_eq.trans hunstarted.overruns_eq.symm⟩
    have hreply : (((fresh program options).after past).perform .start).Alike
        (((fresh program options).after preparation).perform .start) := hstart.map _
    obtain ⟨hrest, hafter⟩ := hreply.session.history (hs.perform .start) (hs'.perform .start) later
    rw [after_append, after_append, observations, observations, observe_eq_of_alike hreply, hrest]
    exact ⟨rfl, hafter⟩

/-- A session that has run a program which loops for ever runs it again like the first time. -/
theorem restart_forgets_loop :
    ((fresh [0x12, 0x00] Options.standard).after [.start, .stop 0]).observations
        [.start, .iterate 1 [], .stop 2] =
      (fresh [0x12, 0x00] Options.standard).observations [.start, .iterate 1 [], .stop 2] := by
  have hbegins : (fresh [0x12, 0x00] Options.standard).Begins [.start] [] []
      (.ofMachine Machine.powerOn.machine) := ⟨rfl, rfl, ⟨2, rfl⟩, by decide⟩
  obtain ⟨-, run, -, hmode⟩ := (hbegins.stops (sound_fresh _ _) 0).available _
    (Engine.hearAll_ofMachine _ _)
  have hpast : ∀ s : Session, s.after [.start, .stop 0] = ((s.after [.start]).stop 0).session :=
    fun _ => rfl
  have hkeypad : ∀ s : Session, (s.after [.start, .stop 0]).keypad = s.keypad := by
    intro s
    obtain ⟨mode, snapshot, overruns, hstart⟩ := s.start_frame
    obtain ⟨mode', snapshot', hstop⟩ := s.start.session.stop_frame 0
    change (s.start.session.stop 0).session.keypad = s.keypad
    rw [hstop, hstart]
  rw [← hpast] at hmode
  exact ((@restart_forgets [0x12, 0x00] Options.standard [.start, .stop 0] [] _ _ hmode rfl
    (by decide) (hkeypad _) ⟨.none, .none, .none⟩).2 [.iterate 1 [], .stop 2]).1

end Session

end Chip8
