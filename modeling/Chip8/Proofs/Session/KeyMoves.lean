import Mathlib.Data.List.Induction
import Chip8.Proofs.Session.Course

/-!
# The keys that a cycle sees

The user moves keys whenever they like, also before a run and in earlier ones, and the keypad of the
session keeps what all their moves come to: a key is down if and only if the last move that bears on
it presses it (`isDown_moveAll_iff`). A run takes the keypad over at its refreshes alone. So in
cycle `c` it sees the moves up to the last refresh that was due, and no later ones
(`cycle_sees_last_pressed`).

A move between two operations comes after the refresh of the cycle that is held; the moves that come
with an iteration are made any time between the cycle and the next refresh. The first refresh is
part of the start, but it is not too late for a move once the start is over, since such a move might
as well have come before it (`start_moveAll`).
-/

namespace Chip8

/-! ## The last move that bears on a key -/

/-- Whether a move decides about a key, be it to press it or to let it go. Of a byte only the lower
four bits count. -/
def KeyMove.decides (key : Key) : KeyMove → Bool
  | .press b | .release b => b.toNat % 16 == key.val
  | .releaseAll => true

/-- The last of the moves that decides about the key presses it. -/
def LastPressed (key : Key) (moves : List KeyMove) : Prop :=
  ∃ earlier b later, moves = earlier ++ .press b :: later ∧ b.toNat % 16 = key.val ∧
    ∀ move ∈ later, move.decides key = false

theorem not_lastPressed_nil (key : Key) : ¬LastPressed key [] := by
  rintro ⟨earlier, b, later, h, -⟩
  exact List.append_ne_nil_of_right_ne_nil earlier (List.cons_ne_nil _ later) h.symm

/-- One more move settles the matter, or leaves it as it is. -/
theorem lastPressed_concat {key : Key} {moves : List KeyMove} {move : KeyMove} :
    LastPressed key (moves ++ [move]) ↔
      if move.decides key then ∃ b, move = .press b else LastPressed key moves := by
  constructor
  · rintro ⟨earlier, b, later, h, hb, hlater⟩
    rcases List.eq_nil_or_concat later with rfl | ⟨before, last, rfl⟩
    · obtain ⟨rfl, hmove⟩ := List.append_inj' h rfl
      obtain rfl : move = .press b := List.singleton_inj.1 hmove
      have hdecides : (KeyMove.press b).decides key = true := beq_iff_eq.2 hb
      rw [if_pos hdecides]
      exact ⟨b, rfl⟩
    · rw [List.concat_eq_append] at h hlater
      rw [← List.cons_append, ← List.append_assoc] at h
      obtain ⟨rfl, hmove⟩ := List.append_inj' h rfl
      obtain rfl : move = last := List.singleton_inj.1 hmove
      have hlast := hlater move (List.mem_append_right _ (List.mem_singleton_self move))
      rw [if_neg (by rw [hlast]; exact Bool.false_ne_true)]
      exact ⟨earlier, b, before, rfl, hb, fun other h => hlater other (List.mem_append_left _ h)⟩
  · intro h
    split at h
    · rename_i hdecides
      obtain ⟨b, rfl⟩ := h
      exact ⟨moves, b, [], rfl, beq_iff_eq.1 hdecides, List.forall_mem_nil _⟩
    · rename_i hdecides
      obtain ⟨earlier, b, later, rfl, hb, hlater⟩ := h
      refine ⟨earlier, b, later ++ [move], by simp, hb, fun other hother => ?_⟩
      rcases List.mem_append.1 hother with hother | hother
      · exact hlater other hother
      · rw [List.mem_singleton.1 hother]
        exact Bool.eq_false_iff.2 hdecides

namespace Keypad

theorem moveAll_append (pad : Keypad) (moves later : List KeyMove) :
    pad.moveAll (moves ++ later) = (pad.moveAll moves).moveAll later :=
  List.foldl_append

/-- A move changes the keys that it decides about and no other. -/
theorem isDown_move (pad : Keypad) (move : KeyMove) (key : Key) :
    (pad.move move).isDown key = true ↔
      if move.decides key then ∃ b, move = .press b else pad.isDown key = true := by
  have hkey : ∀ b : UInt8, key = Key.ofByte b ↔ b.toNat % 16 = key.val := by
    intro b
    rw [← Fin.val_inj, eq_comm]
    rfl
  cases move with
  | press b =>
    simp only [move, press, isDown_setKey, hkey, KeyMove.decides, beq_iff_eq]
    by_cases h : b.toNat % 16 = key.val
    · simp [h]
    · simp [h]
  | release b =>
    simp only [move, release, isDown_setKey, hkey, KeyMove.decides, beq_iff_eq]
    by_cases h : b.toNat % 16 = key.val
    · simp [h]
    · simp [h]
  | releaseAll => simp [move, KeyMove.decides]

/-- **A key is down if and only if it was pressed last.** -/
theorem isDown_moveAll_iff (moves : List KeyMove) (key : Key) :
    (released.moveAll moves).isDown key = true ↔ LastPressed key moves := by
  induction moves using List.reverseRecOn with
  | nil =>
    refine iff_of_false ?_ (not_lastPressed_nil key)
    change ¬released.isDown key = true
    rw [isDown_released]
    exact Bool.false_ne_true
  | append_singleton moves move ih =>
    rw [moveAll_append, lastPressed_concat, ← ih]
    exact isDown_move (released.moveAll moves) move key

end Keypad

/-! ## Which refresh a cycle sees -/

namespace Scenario

variable {w : Scenario}

/-- **Without a callback for keys** a cycle sees the user's keypad of the last refresh that was
due. -/
theorem keys_ready (h : w.engine.onKeypad = none) (c : Nat) :
    (w.ready c).keys = w.handle (w.interval * (c / w.interval)) := by
  induction c with
  | zero =>
    rw [ready_of_dvd w (Nat.dvd_zero _), refreshed_of_no_callback h, Nat.zero_div, Nat.mul_zero]
    rfl
  | succ c ih =>
    by_cases hd : w.interval ∣ c + 1
    · rw [ready_of_dvd w hd, refreshed_of_no_callback h, Nat.mul_div_cancel' hd]
      rfl
    · have hready : w.ready (c + 1) = w.machine (c + 1) := by
        rw [ready, refreshRequests, if_neg hd]
        rfl
      rw [hready, machine_succ, Machine.keys_cycle, ih, Nat.succ_div_of_not_dvd hd]

end Scenario

namespace Session

/-! ## The moves in a history -/

/-- All moves of the user in a history. -/
def keyMoves (history : List Operation) : List KeyMove :=
  history.flatMap Operation.moves

/-- The moves of the user before refresh `k` of a run that is followed by the operations. Refresh
zero comes before all of them, every other one at the end of an iteration. -/
def movesBefore : List Operation → Nat → List KeyMove
  | _, 0 => []
  | [], _ + 1 => []
  | .iterate _ meanwhile :: rest, k + 1 => meanwhile ++ movesBefore rest k
  | operation :: rest, k + 1 => operation.moves ++ movesBefore rest (k + 1)

theorem handleAt_eq (pad : Keypad) (operations : List Operation) (k : Nat) :
    handleAt pad operations k = pad.moveAll (movesBefore operations k) := by
  induction operations generalizing pad k with
  | nil =>
    cases k with
    | _ => rfl
  | cons operation rest ih =>
    cases k with
    | zero => rfl
    | succ k =>
      cases operation with
      | keys move => exact ih (pad.move move) (k + 1)
      | iterate randomByte meanwhile =>
        rw [handleAt, movesBefore, Keypad.moveAll_append]
        exact ih (pad.moveAll meanwhile) k
      | attach | start | countOverrun | stop => exact ih pad (k + 1)

/-- The keypad of a session is what all moves in its history come to. -/
theorem keypad_after (s : Session) (history : List Operation) :
    (s.after history).keypad = s.keypad.moveAll (keyMoves history) := by
  induction history generalizing s with
  | nil => rfl
  | cons operation rest ih =>
    refine (ih (s.perform operation).session).trans ?_
    rw [keypad_perform, ← Keypad.moveAll_append]
    rfl

/-- A move that comes before the first refresh might as well come before the start. -/
theorem start_moveAll {s : Session} {e : Engine} {size : Nat} (hm : s.mode = .available e)
    (hs : e.machine.Sound) (hl : (Machine.powerOn.machine.load s.program).result = .ok size)
    (moves : List KeyMove) :
    ((s.begun e).moveAll moves).refresh.session = (s.moveAll moves).start.session := by
  have hmoved : ∀ t : Session, t.moveAll moves = { t with keypad := t.keypad.moveAll moves } :=
    fun t => t.moveAll_eq moves
  have hstart := start_of_load (s := { s with keypad := s.keypad.moveAll moves }) hm hs hl
  rw [hmoved, hmoved, hstart]
  rfl

/-! ## Runs -/

/-- **The keys that a cycle sees.** In a run without a callback for keys, whatever happened before
and whatever the user does meanwhile, the machine is held before cycle `c` with just those keys down
that were pressed last by the moves up to the last refresh which was due. The keypad of the session
keeps the moves of its whole history, through all starts. -/
theorem cycle_sees_last_pressed {program : Bytes} {options : Options} {past : List Operation}
    {engine : Engine} {size : Nat}
    (hmode : ((fresh program options).after past).mode = .available engine)
    (hcallback : engine.onKeypad = none)
    (hload : (Machine.powerOn.machine.load program).result = .ok size)
    {during : List Operation} (hduring : ∀ operation ∈ during, operation.isStop = false)
    (hrunning : ((fresh program options).after (past ++ .start :: during)).isRunning = true) :
    let s := (fresh program options).after (past ++ .start :: during)
    let c := iterations during
    let r := options.refreshInterval
    (∃ e, s.Holds e c ∧ ∀ key, e.machine.keys.isDown key = true ↔
      LastPressed key (keyMoves past ++ movesBefore during (r * (c / r)))) ∧
    ∀ key, s.keypad.isDown key = true ↔ LastPressed key (keyMoves past ++ keyMoves during) := by
  have hkeypad := (fresh program options).keypad_after
  have hsound := (sound_fresh program options).after past
  obtain ⟨hprogram, hoptions⟩ := (fresh program options).after_frame past
  have hl : (Machine.powerOn.machine.load ((fresh program options).after past).program).result =
      .ok size := by
    rw [hprogram]
    exact hload
  have hfollows := (follows_during hsound hmode hl hduring []).1
  rw [← after_append, List.append_nil] at hfollows
  obtain ⟨e, hholds, hheld⟩ := hfollows.holds hrunning
  refine ⟨⟨e, hholds, fun key => ?_⟩, fun key => ?_⟩
  · have hhandle : ∀ k, (((fresh program options).after past).scenario engine during).handle k =
        Keypad.released.moveAll (keyMoves past ++ movesBefore during k) := by
      intro k
      change handleAt ((fresh program options).after past).keypad during k = _
      rw [handleAt_eq, hkeypad, Keypad.moveAll_append]
      rfl
    have hinterval : (((fresh program options).after past).scenario engine during).interval =
        options.refreshInterval := congrArg Options.refreshInterval hoptions
    rw [hheld.machine_eq, Scenario.keys_ready hcallback, hhandle, hinterval]
    exact Keypad.isDown_moveAll_iff _ key
  · have hmoves : keyMoves (past ++ .start :: during) = keyMoves past ++ keyMoves during := by
      simp [keyMoves, Operation.moves]
    rw [hkeypad, hmoves]
    exact Keypad.isDown_moveAll_iff _ key

/-- A key that goes down after the only refresh so far is not seen in the second cycle. -/
theorem cycle_sees_last_pressed_before_refresh :
    let s := (fresh [0x12, 0x00] ⟨2, 1, Color.white⟩).after
      [.keys (.press 0x15), .start, .iterate 0 [.press 0x23, .release 0x35]]
    (∃ e, s.Holds e 1 ∧ e.machine.keys.isDown 5 = true ∧ e.machine.keys.isDown 3 = false) ∧
      s.keypad.isDown 5 = false ∧ s.keypad.isDown 3 = true := by
  intro s
  have hsplit : s = ((fresh [0x12, 0x00] ⟨2, 1, Color.white⟩).after [.keys (.press 0x15)]).after
      (.start :: [.iterate 0 [.press 0x23, .release 0x35]]) :=
    after_append _ [.keys (.press 0x15)] _
  have hsound := (sound_fresh [0x12, 0x00] ⟨2, 1, Color.white⟩).after [.keys (.press 0x15)]
  have hrunning : s.isRunning = true := by
    rw [hsplit]
    refine (@follows_during _ _ 2 [.iterate 0 [.press 0x23, .release 0x35]] hsound rfl rfl
      (by decide) []).1.isRunning rfl fun k hk => Machine.result_of_no_fault ?_ _
    simp only [Scenario.ready, Scenario.machine, Machine.performAll_eq_advanceAll]
    revert k
    decide +kernel
  obtain ⟨⟨e, hholds, hkeys⟩, hkeypad⟩ := @cycle_sees_last_pressed [0x12, 0x00]
    ⟨2, 1, Color.white⟩ [.keys (.press 0x15)] _ 2 rfl rfl rfl
    [.iterate 0 [.press 0x23, .release 0x35]] (by decide) hrunning
  have hseen : ∀ key, e.machine.keys.isDown key =
      (Keypad.released.moveAll [.press 0x15]).isDown key := fun key =>
    Bool.eq_iff_iff.2 ((hkeys key).trans (Keypad.isDown_moveAll_iff _ key).symm)
  have hkept : ∀ key, s.keypad.isDown key =
      (Keypad.released.moveAll [.press 0x15, .press 0x23, .release 0x35]).isDown key := fun key =>
    Bool.eq_iff_iff.2 ((hkeypad key).trans (Keypad.isDown_moveAll_iff _ key).symm)
  refine ⟨⟨e, hholds, ?_, ?_⟩, ?_, ?_⟩
  · rw [hseen]
    decide
  · rw [hseen]
    decide
  · rw [hkept]
    decide
  · rw [hkept]
    decide

end Session

end Chip8
