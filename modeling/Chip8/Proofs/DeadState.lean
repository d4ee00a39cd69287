import Chip8.Proofs.Run

/-!
# Dead state

Nothing reads the sound timer, the note that the screen changed or a slot of the stack that is not
in use, except to tell the outside world that the sound timer ran out. So machines that agree in
everything else (`AgreesLive`) go on agreeing, whatever they are asked for
(`dead_state_stays_dead`). The relation moves with the stack: a call writes the same return address
to a slot which comes into use, and a return takes a slot out of use that both machines have alike.
-/

namespace Chip8

namespace CallStack

/-- Stacks with the same calls in progress, whatever the slots hold that are not in use. -/
structure AgreesLive (s s' : CallStack) : Prop where
  depth_eq : s.depth = s'.depth
  slot_eq : ∀ k < s.depth.toNat, s.slot k = s'.slot k

instance (s s' : CallStack) : Decidable (s.AgreesLive s') :=
  decidable_of_iff (s.depth = s'.depth ∧ ∀ k < s.depth.toNat, s.slot k = s'.slot k)
    ⟨fun h => ⟨h.1, h.2⟩, fun h => ⟨h.depth_eq, h.slot_eq⟩⟩

namespace AgreesLive

theorem refl (s : CallStack) : s.AgreesLive s :=
  ⟨rfl, fun _ _ => rfl⟩

variable {s s' : CallStack}

theorem isFull_eq (h : s.AgreesLive s') : s.isFull = s'.isFull := by
  unfold isFull
  rw [h.depth_eq]

theorem isEmpty_eq (h : s.AgreesLive s') : s.isEmpty = s'.isEmpty := by
  unfold isEmpty
  rw [h.depth_eq]

theorem top_eq (h : s.AgreesLive s') (hd : s.depth.toNat ≠ 0) : s.top = s'.top := by
  unfold top
  rw [← h.depth_eq]
  exact h.slot_eq _ (by omega)

/-- The slot that comes into use holds the same address in both. -/
theorem push (h : s.AgreesLive s') (hd : s.depth.toNat < 16) (address : UInt16) :
    (s.push address).AgreesLive (s'.push address) where
  depth_eq := congrArg (· + 1) h.depth_eq
  slot_eq k hk := by
    have hd' : s'.depth.toNat < 16 := h.depth_eq ▸ hd
    rw [toNat_depth_push hd] at hk
    by_cases hlt : k < s.depth.toNat
    · rw [slot_push_of_lt hlt, slot_push_of_lt (h.depth_eq ▸ hlt)]
      exact h.slot_eq k hlt
    · obtain rfl : k = s.depth.toNat := by omega
      rw [slot_push_self hd, h.depth_eq, slot_push_self hd']

theorem pop (h : s.AgreesLive s') (hd : s.depth.toNat ≠ 0) : s.pop.AgreesLive s'.pop where
  depth_eq := congrArg (· - 1) h.depth_eq
  slot_eq k hk := by
    rw [toNat_depth_pop hd] at hk
    exact h.slot_eq k (by omega)

end AgreesLive

end CallStack

namespace Machine

/-- Machines that are equal in everything but the sound timer, the note that the screen changed and
the slots of the stack that are not in use. -/
structure AgreesLive (m m' : Machine) : Prop where
  memory_eq : m.memory = m'.memory
  registers_eq : m.registers = m'.registers
  index_eq : m.index = m'.index
  pc_eq : m.pc = m'.pc
  screen_eq : m.screen = m'.screen
  delayTimer_eq : m.delayTimer = m'.delayTimer
  keys_eq : m.keys = m'.keys
  awaiting_eq : m.awaiting = m'.awaiting
  stack : m.stack.AgreesLive m'.stack

/-- The machine with another sound timer, another note and another stack. -/
def withDead (m : Machine) (soundTimer : UInt8) (screenChanged : Bool) (stack : CallStack) :
    Machine :=
  { m with soundTimer := soundTimer, screenChanged := screenChanged, stack := stack }

/-- Machines agree if one comes from the other by a change of dead state. -/
theorem agreesLive_of_withDead {m m' : Machine} {soundTimer : UInt8} {screenChanged : Bool}
    {stack : CallStack} (h : m' = m.withDead soundTimer screenChanged stack)
    (hs : m.stack.AgreesLive stack) : m.AgreesLive m' := by
  subst h
  exact ⟨rfl, rfl, rfl, rfl, rfl, rfl, rfl, rfl, hs⟩

theorem AgreesLive.eq_withDead {m m' : Machine} (h : m.AgreesLive m') :
    m' = m.withDead m'.soundTimer m'.screenChanged m'.stack :=
  Machine.ext h.memory_eq.symm h.registers_eq.symm h.index_eq.symm h.pc_eq.symm h.screen_eq.symm
    h.delayTimer_eq.symm rfl h.keys_eq.symm rfl rfl h.awaiting_eq.symm

theorem AgreesLive.refl (m : Machine) : m.AgreesLive m :=
  agreesLive_of_withDead (m := m) rfl (.refl _)

/-! ## One cycle -/

theorem poll_withDead (m : Machine) (x : Register) (soundTimer : UInt8) (screenChanged : Bool)
    (stack : CallStack) :
    (m.withDead soundTimer screenChanged stack).poll x =
      (m.poll x).withDead soundTimer screenChanged stack := by
  have hkeys : (m.withDead soundTimer screenChanged stack).keys = m.keys := rfl
  cases hk : m.keys.lowest? with
  | none => rw [poll_of_none hk, poll_of_none (hkeys ▸ hk)]
  | some key =>
    rw [poll_of_some hk, poll_of_some (hkeys ▸ hk)]
    rfl

/-- The sound timer after an instruction: one instruction alone sets it. -/
def soundAfter (m : Machine) : Instruction → UInt8
  | .setSound x => m.register x
  | _ => m.soundTimer

/-- **No instruction lets dead state leak**: what it does to dead state alone depends on that. The
address to return to is read from the stack, but from a slot in use. -/
theorem effect_withDead {m : Machine} {instruction : Instruction} {stack : CallStack}
    (hret : instruction = .ret → m.stack.top = stack.top) (randomByte : UInt8)
    (soundTimer : UInt8) (screenChanged : Bool) :
    (m.withDead soundTimer screenChanged stack).effect randomByte instruction =
      (m.effect randomByte instruction).withDead
        ((m.withDead soundTimer screenChanged stack).soundAfter instruction) screenChanged
        ((m.withDead soundTimer screenChanged stack).stackAfter instruction) := by
  cases instruction with
  | ret =>
    change ({ m with pc := stack.top } : Machine).withDead soundTimer screenChanged stack.pop =
      ({ m with pc := m.stack.top } : Machine).withDead soundTimer screenChanged stack.pop
    rw [hret rfl]
  | awaitKey x => exact poll_withDead { m with awaiting := some x } x soundTimer screenChanged stack
  | skipIfEqual | skipUnlessEqual | skipIfSame | skipUnlessSame | skipIfPressed
  | skipUnlessPressed =>
    change (m.withDead soundTimer screenChanged stack).nextSkipping _ =
      (m.nextSkipping _).withDead soundTimer screenChanged stack
    rw [nextSkipping_eq, nextSkipping_eq]
    rfl
  | _ => rfl

namespace AgreesLive

variable {m m' : Machine}

theorem refusal_eq (h : m.AgreesLive m') (instruction : Instruction) :
    m'.refusal instruction = m.refusal instruction := by
  have hpc := h.pc_eq
  have hfull := h.stack.isFull_eq
  have hempty := h.stack.isEmpty_eq
  cases instruction with
  | call target => simp only [refusal, hfull, hpc]
  | ret => simp only [refusal, hempty, hpc]
  | _ =>
    rw [h.eq_withDead]
    rfl

theorem stackAfter (h : m.AgreesLive m') {instruction : Instruction}
    (hr : m.refusal instruction = none) :
    (m.stackAfter instruction).AgreesLive (m'.stackAfter instruction) := by
  cases instruction with
  | call target =>
    change (m.stack.push (m.pc + 2)).AgreesLive (m'.stack.push (m'.pc + 2))
    rw [← h.pc_eq]
    exact h.stack.push (depth_lt_of_refusal hr) _
  | ret => exact h.stack.pop (depth_ne_zero_of_refusal hr)
  | _ => exact h.stack

theorem effect (h : m.AgreesLive m') {instruction : Instruction}
    (hr : m.refusal instruction = none) (randomByte : UInt8) :
    (m.effect randomByte instruction).AgreesLive (m'.effect randomByte instruction) := by
  have hstack := h.stackAfter hr
  have hret : instruction = .ret → m.stack.top = m'.stack.top := by
    rintro rfl
    exact h.stack.top_eq (depth_ne_zero_of_refusal hr)
  rw [h.eq_withDead] at hstack ⊢
  refine agreesLive_of_withDead (effect_withDead hret randomByte _ _) ?_
  rw [stack_effect]
  exact hstack

theorem poll (h : m.AgreesLive m') (x : Register) : (m.poll x).AgreesLive (m'.poll x) := by
  have hstack := h.stack
  rw [h.eq_withDead]
  refine agreesLive_of_withDead (poll_withDead m x _ _ _) ?_
  rw [stack_poll]
  exact hstack

/-- To complete a cycle is to tell the same about the screen, and to agree. -/
theorem complete (h : m.AgreesLive m') (screenChanged : Bool) (log log' : List LogEntry) :
    (m.complete screenChanged log).machine.AgreesLive (m'.complete screenChanged log').machine where
  memory_eq := h.memory_eq
  registers_eq := h.registers_eq
  index_eq := h.index_eq
  pc_eq := h.pc_eq
  screen_eq := h.screen_eq
  delayTimer_eq := congrArg countDown h.delayTimer_eq
  keys_eq := h.keys_eq
  awaiting_eq := h.awaiting_eq
  stack := h.stack

/-- **One cycle**: machines that agree fail alike or complete alike, and agree afterwards. -/
theorem cycle (h : m.AgreesLive m') (randomByte : UInt8) :
    (m.cycle randomByte).machine.AgreesLive (m'.cycle randomByte).machine ∧
      (m.cycle randomByte).result.map Outcome.screenChanged =
        (m'.cycle randomByte).result.map Outcome.screenChanged := by
  cases ha : m.awaiting with
  | some x =>
    have ha' := h.awaiting_eq.symm.trans ha
    rw [cycle_of_awaiting ha, cycle_of_awaiting ha']
    exact ⟨(h.poll x).complete false _ _, rfl⟩
  | none =>
    have ha' := h.awaiting_eq.symm.trans ha
    have hfetch : m'.fetch = m.fetch := fetch_congr h.memory_eq.symm h.pc_eq.symm
    cases hf : m.fetch with
    | error fault =>
      rw [cycle_of_fetch_error ha hf, cycle_of_fetch_error ha' (hfetch.trans hf)]
      exact ⟨h, rfl⟩
    | ok fetched =>
      obtain ⟨word, instruction⟩ := fetched
      have hf' := hfetch.trans hf
      cases hr : m.refusal instruction with
      | some fault =>
        have hr' := (h.refusal_eq instruction).trans hr
        rw [cycle_of_refusal ha hf hr, cycle_of_refusal ha' hf' hr']
        exact ⟨h, rfl⟩
      | none =>
        have hr' := (h.refusal_eq instruction).trans hr
        rw [cycle_of_effect ha hf hr, cycle_of_effect ha' hf' hr']
        exact ⟨(h.effect hr randomByte).complete _ _ _, rfl⟩

/-! ## Requests -/

/-- **One step**: machines that agree go on agreeing, and a cycle comes to the same but for the end
of the sound. -/
theorem perform (h : m.AgreesLive m') (request : Request) :
    (m.perform request).AgreesLive (m'.perform request) ∧
      (m.resultOf request).map (Except.map Outcome.screenChanged) =
        (m'.resultOf request).map (Except.map Outcome.screenChanged) := by
  cases request with
  | restart =>
    have hreset : m'.reset = m.reset := by
      unfold reset
      rw [h.screen_eq]
    refine ⟨?_, rfl⟩
    change m.reset.AgreesLive m'.reset
    rw [hreset]
    exact .refl m.reset
  | load program =>
    have hmemory := memory_load_congr h.memory_eq program
    refine ⟨?_, rfl⟩
    change (m.load program).machine.AgreesLive (m'.load program).machine
    rw [load_eq, load_eq program m']
    exact { h with memory_eq := hmemory }
  | setKeys keys => exact ⟨{ h with keys_eq := rfl }, rfl⟩
  | cycle randomByte =>
    obtain ⟨hcycle, hresult⟩ := h.cycle randomByte
    exact ⟨hcycle, congrArg some hresult⟩

/-! ## Runs -/

theorem before (h : m.AgreesLive m') (requests : List Request) (k : Nat) :
    (m.before requests k).AgreesLive (m'.before requests k) := by
  induction k with
  | zero => exact h
  | succ k ih =>
    rw [before_succ, before_succ]
    cases requests[k]? with
    | none => exact ih
    | some request => exact (ih.perform request).1

theorem result?_eq (h : m.AgreesLive m') (requests : List Request) (k : Nat) :
    (m.result? requests k).map (Except.map Outcome.screenChanged) =
      (m'.result? requests k).map (Except.map Outcome.screenChanged) := by
  unfold result?
  cases requests[k]? with
  | none => rfl
  | some request => exact ((h.before requests k).perform request).2

/-- The same cycles complete in both runs, and tell the same about the screen. -/
theorem outcome?_eq (h : m.AgreesLive m') (requests : List Request) (k : Nat) :
    (m.outcome? requests k).map Outcome.screenChanged =
      (m'.outcome? requests k).map Outcome.screenChanged := by
  have hoption : ∀ result? : Option (Except Fault Outcome),
      (result?.bind Except.toOption).map Outcome.screenChanged =
        (result?.map (Except.map Outcome.screenChanged)).bind Except.toOption := by
    rintro (_ | _ | _)
    all_goals rfl
  rw [outcome?_eq_toOption_result?, outcome?_eq_toOption_result?, hoption, hoption,
    h.result?_eq requests k]

end AgreesLive

/-- The note that the screen changed after a request: a completed cycle and a restart leave one. -/
def noteAfter (m : Machine) : Request → Option Outcome → Bool
  | _, some outcome => outcome.screenChanged
  | .restart, none => true
  | _, none => m.screenChanged

theorem Step.screenChanged_eq {m m' : Machine} {request : Request} {outcome : Option Outcome}
    {completed : Option Instruction} (h : m.Step request outcome completed m') :
    m'.screenChanged = m.noteAfter request outcome := by
  cases h with
  | load program =>
    rw [load_eq]
    rfl
  | restart | setKeys | fail | poll | carryOut => rfl

/-- Once a cycle has completed, the machines agree in the note as well. -/
theorem AgreesLive.screenChanged_eq {m m' : Machine} (h : m.AgreesLive m')
    (requests : List Request) {k : Nat} (hk : ∃ j < k, (m.outcome? requests j).isSome = true) :
    (m.before requests k).screenChanged = (m'.before requests k).screenChanged := by
  induction k with
  | zero =>
    obtain ⟨j, hj, -⟩ := hk
    exact absurd hj (Nat.not_lt_zero j)
  | succ k ih =>
    -- the note is either left by request number `k` or was there before
    have hbefore : m.outcome? requests k = none →
        (m.before requests k).screenChanged = (m'.before requests k).screenChanged := by
      intro hnone
      obtain ⟨j, hj, hsome⟩ := hk
      refine ih ⟨j, ?_, hsome⟩
      rcases Nat.lt_succ_iff_lt_or_eq.1 hj with hlt | rfl
      · exact hlt
      · rw [hnone] at hsome
        cases hsome
    have houtcome := h.outcome?_eq requests k
    cases hrequest : requests[k]? with
    | none =>
      have hrun := before_succ_of_none (m := m) hrequest
      rw [hrun.1, (before_succ_of_none (m := m') hrequest).1]
      exact hbefore hrun.2.1
    | some request =>
      rw [(step_before (m := m) hrequest).screenChanged_eq,
        (step_before (m := m') hrequest).screenChanged_eq]
      cases ho : m.outcome? requests k with
      | some outcome =>
        rw [ho] at houtcome
        obtain ⟨outcome', ho', heq⟩ := Option.map_eq_some_iff.1 houtcome.symm
        rw [ho']
        exact heq.symm
      | none =>
        rw [ho] at houtcome
        rw [Option.map_eq_none_iff.1 houtcome.symm]
        cases request with
        | restart => rfl
        | load | setKeys | cycle => exact hbefore ho

/-- **Dead state never leaks into a program.** Machines that agree in everything but the sound timer,
the note that the screen changed and the slots of the stack that are not in use go on agreeing,
whatever both are asked for. Their cycles complete or fail alike, with the same faults and the same
word on whether the screen changed. They agree in the note as well once a cycle has completed. -/
theorem dead_state_stays_dead {m m' : Machine} (h : m.AgreesLive m') (requests : List Request)
    (k : Nat) :
    (m.before requests k).AgreesLive (m'.before requests k) ∧
      (m.result? requests k).map (Except.map Outcome.screenChanged) =
        (m'.result? requests k).map (Except.map Outcome.screenChanged) ∧
      ((∃ j < k, (m.outcome? requests j).isSome = true) →
        (m.before requests k).screenChanged = (m'.before requests k).screenChanged) :=
  ⟨h.before requests k, h.result?_eq requests k, fun hk => h.screenChanged_eq requests hk⟩

/-- A subroutine call makes no difference between a fresh machine and one with a stale return address
in every slot, a sound timer about to run out and another note. -/
theorem dead_state_stays_dead_stale_slots :
    let fresh := new.performAll [.load [0x22, 0x04, 0x12, 0x00, 0x00, 0xEE]]
    let stale := fresh.withDead 1 false ⟨Vector.replicate 16 0x345, 0⟩
    (fresh.before [.cycle 0, .cycle 0] 1).AgreesLive (stale.before [.cycle 0, .cycle 0] 1) ∧
      (fresh.before [.cycle 0, .cycle 0] 2).screenChanged =
        (stale.before [.cycle 0, .cycle 0] 2).screenChanged := by
  intro fresh stale
  have hstack : fresh.stack.AgreesLive ⟨Vector.replicate 16 0x345, 0⟩ := by
    simp only [fresh, performAll_eq_advanceAll]
    decide +kernel
  have hagree : fresh.AgreesLive stale := agreesLive_of_withDead rfl hstack
  have hcompleted : (fresh.outcome? [.cycle 0, .cycle 0] 0).isSome = true := by
    rw [isSome_outcome?_eq]
    simp only [fresh, before, performAll_eq_advanceAll]
    decide +kernel
  exact ⟨(dead_state_stays_dead hagree [.cycle 0, .cycle 0] 1).1,
    (dead_state_stays_dead hagree [.cycle 0, .cycle 0] 2).2.2 ⟨0, by decide, hcompleted⟩⟩

end Machine

end Chip8
