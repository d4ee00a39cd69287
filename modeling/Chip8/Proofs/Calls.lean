import Chip8.Proofs.Run

/-!
# Calls and returns

What becomes of the call stack in a run of requests without a failing cycle. The stack is as deep as
there were more calls than returns (`depth_add_returns`), and the slot of a call is left alone for
as long as the stack stays deeper than it was at the call (`slot_before`). So the return that gets
back to that depth goes on right behind the call, whatever was executed in between
(`calls_and_returns_match`).
-/

namespace Chip8

namespace Instruction

def isCall : Instruction → Bool
  | call _ => true
  | _ => false

def isReturn : Instruction → Bool
  | ret => true
  | _ => false

end Instruction

namespace Machine

/-! ## The stack after an instruction -/

/-- A call that is carried out makes the stack deeper by one, a return less deep by one. -/
theorem depth_stackAfter {m : Machine} {instruction : Instruction}
    (hr : m.refusal instruction = none) :
    (m.stackAfter instruction).depth.toNat + (if instruction.isReturn then 1 else 0) =
      m.stack.depth.toNat + (if instruction.isCall then 1 else 0) := by
  cases instruction with
  | call target => exact CallStack.toNat_depth_push (depth_lt_of_refusal hr) (m.pc + 2)
  | ret =>
    have hd := depth_ne_zero_of_refusal hr
    have hpop : (m.stackAfter .ret).depth.toNat = m.stack.depth.toNat - 1 :=
      CallStack.toNat_depth_pop hd
    rw [hpop]
    exact Nat.sub_add_cancel (Nat.pos_of_ne_zero hd)
  | _ => rfl

/-- No instruction writes to a slot in use. -/
theorem slot_stackAfter {m : Machine} {k : Nat} (hk : k < m.stack.depth.toNat)
    (instruction : Instruction) : (m.stackAfter instruction).slot k = m.stack.slot k := by
  cases instruction with
  | call target => exact CallStack.slot_push_of_lt hk (m.pc + 2)
  | ret => exact CallStack.slot_pop m.stack k
  | _ => rfl

/-! ## The stack in a step -/

/-- An instruction that is carried out was fetched in memory and not refused, and it tells where the
machine goes on and what becomes of its stack. -/
theorem Step.stack_of_completed {m m' : Machine} {request : Request} {outcome : Option Outcome}
    {instruction : Instruction} (h : m.Step request outcome (some instruction) m') :
    m.pc.toNat ≤ 0xFFE ∧ m.refusal instruction = none ∧ m'.pc = m.successor instruction ∧
      m'.stack = m.stackAfter instruction := by
  cases h with
  | carryOut randomByte hi hr =>
    exact ⟨pc_le_of_instruction hi, hr, pc_effect randomByte m instruction,
      stack_effect randomByte m instruction⟩

/-- A request that carries out no instruction leaves the stack alone. -/
theorem Step.stack_of_not_completed {m m' : Machine} {request : Request}
    {outcome : Option Outcome} (h : m.Step request outcome none m') (hr : request ≠ .restart) :
    m'.stack = m.stack := by
  cases h with
  | restart => exact absurd rfl hr
  | load program => rw [load_eq]
  | setKeys keys => rfl
  | fail randomByte hf => rfl
  | @poll randomByte x ha => exact stack_poll m x

/-! ## The stack in a run -/

section Runs

variable {m : Machine} {requests : List Request} {k : Nat}

/-- What a successful cycle executes, it carries out. -/
theorem before_succ_of_executed (hs : m.Succeeds requests) {instruction : Instruction}
    (he : m.executed? requests k = some instruction) :
    (m.before requests k).pc.toNat ≤ 0xFFE ∧
      (m.before requests k).refusal instruction = none ∧
      (m.before requests (k + 1)).pc = (m.before requests k).successor instruction ∧
      (m.before requests (k + 1)).stack = (m.before requests k).stackAfter instruction := by
  obtain ⟨⟨randomByte, hk⟩, hi⟩ := executed?_eq_some_iff.1 he
  have hf : (m.before requests k).fault? = none := result_eq_ok_iff.1 (hs k randomByte hk)
  have hstep := step_before (m := m) hk
  rw [completed?_eq_some_iff.2 ⟨⟨randomByte, hk⟩, hf, hi⟩] at hstep
  exact hstep.stack_of_completed

/-- Only instructions touch the stack. -/
theorem stack_before_succ_of_none (hr : .restart ∉ requests)
    (he : m.executed? requests k = none) :
    (m.before requests (k + 1)).stack = (m.before requests k).stack := by
  cases hk : requests[k]? with
  | none => rw [(before_succ_of_none hk).1]
  | some request =>
    have hstep := step_before (m := m) hk
    cases hc : m.completed? requests k with
    | none =>
      rw [hc] at hstep
      refine hstep.stack_of_not_completed ?_
      rintro rfl
      exact hr (List.mem_of_getElem? hk)
    | some instruction =>
      obtain ⟨hcycle, -, hi⟩ := completed?_eq_some_iff.1 hc
      rw [executed?_eq_some_iff.2 ⟨hcycle, hi⟩] at he
      cases he

theorem depth_before_succ (hr : .restart ∉ requests) (hs : m.Succeeds requests) :
    (m.before requests (k + 1)).stack.depth.toNat +
        (if (m.executed? requests k).any Instruction.isReturn then 1 else 0) =
      (m.before requests k).stack.depth.toNat +
        (if (m.executed? requests k).any Instruction.isCall then 1 else 0) := by
  cases he : m.executed? requests k with
  | none =>
    rw [stack_before_succ_of_none hr he]
    rfl
  | some instruction =>
    obtain ⟨-, hrefusal, -, hstack⟩ := before_succ_of_executed hs he
    rw [hstack]
    exact depth_stackAfter hrefusal

theorem slot_before_succ (hr : .restart ∉ requests) (hs : m.Succeeds requests) {d : Nat}
    (hd : d < (m.before requests k).stack.depth.toNat) :
    (m.before requests (k + 1)).stack.slot d = (m.before requests k).stack.slot d := by
  cases he : m.executed? requests k with
  | none => rw [stack_before_succ_of_none hr he]
  | some instruction =>
    obtain ⟨-, -, -, hstack⟩ := before_succ_of_executed hs he
    rw [hstack]
    exact slot_stackAfter hd instruction

/-- The stack is as deep as there were more calls than returns. -/
theorem depth_add_returns (hr : .restart ∉ requests) (hs : m.reset.Succeeds requests) (k : Nat) :
    (m.reset.before requests k).stack.depth.toNat +
        executions Instruction.isReturn m.reset requests k =
      executions Instruction.isCall m.reset requests k := by
  induction k with
  | zero => rfl
  | succ k ih =>
    have hstep := depth_before_succ (k := k) hr hs
    rw [executions_succ, executions_succ]
    omega

/-- For as long as every cycle leaves the stack deeper than it was at a call, the slot of the call
is in use and holds the address behind it. -/
theorem slot_before (hr : .restart ∉ requests) (hs : m.Succeeds requests) {i : Nat}
    {target : Address} (hi : m.executed? requests i = some (.call target)) {k : Nat} (hk : i ≤ k)
    (hd : ∀ l ≤ k, i ≤ l → ∀ randomByte, requests[l]? = some (.cycle randomByte) →
      (m.before requests i).stack.depth.toNat < (m.before requests (l + 1)).stack.depth.toNat) :
    (m.before requests i).stack.depth.toNat < (m.before requests (k + 1)).stack.depth.toNat ∧
      (m.before requests (k + 1)).stack.slot (m.before requests i).stack.depth.toNat =
        (m.before requests i).pc + 2 := by
  -- that the slot is in use is carried along: only cycles are known to keep the stack deep
  induction hk with
  | refl =>
    obtain ⟨⟨randomByte, hcycle⟩, -⟩ := executed?_eq_some_iff.1 hi
    obtain ⟨-, hrefusal, -, hstack⟩ := before_succ_of_executed hs hi
    refine ⟨hd i (Nat.le_refl i) (Nat.le_refl i) randomByte hcycle, ?_⟩
    rw [hstack]
    exact CallStack.slot_push_self (depth_lt_of_refusal hrefusal) _
  | @step k hk ih =>
    obtain ⟨hdeep, hslot⟩ := ih fun l hl => hd l (Nat.le_succ_of_le hl)
    refine ⟨?_, by rw [slot_before_succ hr hs hdeep, hslot]⟩
    cases he : m.executed? requests (k + 1) with
    | none =>
      rw [stack_before_succ_of_none hr he]
      exact hdeep
    | some instruction =>
      obtain ⟨⟨randomByte, hcycle⟩, -⟩ := executed?_eq_some_iff.1 he
      exact hd (k + 1) (Nat.le_refl _) (Nat.le_succ_of_le hk) randomByte hcycle

end Runs

/-- **Calls and returns match.** In a run of successful cycles after a reset, with keys set and
programs loaded in between, the stack is as deep as there were more calls than returns. If a call
finds the stack at depth `d`, every cycle from then on leaves it deeper than `d`, and then a return
finds it at depth `d + 1`, that return goes on behind the call with the stack at depth `d`. -/
theorem calls_and_returns_match (m : Machine) {requests : List Request}
    (hr : .restart ∉ requests) (hs : m.reset.Succeeds requests) :
    (∀ k, (m.reset.before requests k).stack.depth.toNat +
        executions Instruction.isReturn m.reset requests k =
          executions Instruction.isCall m.reset requests k) ∧
      ∀ i j d target, i < j →
        m.reset.executed? requests i = some (.call target) →
        (m.reset.before requests i).stack.depth.toNat = d →
        m.reset.executed? requests j = some .ret →
        (m.reset.before requests j).stack.depth.toNat = d + 1 →
        (∀ k < j, i ≤ k → ∀ randomByte, requests[k]? = some (.cycle randomByte) →
          d + 1 ≤ (m.reset.before requests (k + 1)).stack.depth.toNat) →
        (m.reset.before requests (j + 1)).pc.toNat = (m.reset.before requests i).pc.toNat + 2 ∧
          (m.reset.before requests (j + 1)).stack.depth.toNat = d := by
  refine ⟨depth_add_returns hr hs, ?_⟩
  rintro i j d target hij hi rfl hj hdepth hdeep
  obtain ⟨k, rfl⟩ : ∃ k, j = k + 1 := ⟨j - 1, by omega⟩
  obtain ⟨-, hslot⟩ := slot_before hr hs hi (Nat.le_of_lt_succ hij) fun l hl =>
    hdeep l (Nat.lt_succ_of_le hl)
  obtain ⟨hp, -, -, -⟩ := before_succ_of_executed hs hi
  obtain ⟨-, hrefusal, hpc, hstack⟩ := before_succ_of_executed hs hj
  constructor
  · have htop : (m.reset.before requests (k + 1)).stack.top =
        (m.reset.before requests i).pc + 2 := by
      rw [CallStack.top, hdepth, Nat.add_sub_cancel, hslot]
    rw [hpc, successor, htop, toNat_pc_add_two hp]
  · have hreturn := depth_stackAfter hrefusal
    rw [← hstack, hdepth] at hreturn
    exact Nat.succ.inj hreturn

/-- The subroutine that waits for a key returns behind its call. -/
theorem calls_and_returns_match_subroutine :
    (new.reset.before subroutineRun (5 + 1)).pc.toNat =
        (new.reset.before subroutineRun 1).pc.toNat + 2 ∧
      (new.reset.before subroutineRun (5 + 1)).stack.depth.toNat = 0 := by
  have hf : ∀ k < 6, 0 < k → (new.reset.before subroutineRun k).fault? = none := by
    simp only [before, performAll_eq_advanceAll]
    decide +kernel
  have hs : new.reset.Succeeds subroutineRun := by
    intro k randomByte hk
    obtain ⟨hlt, -⟩ := List.getElem?_eq_some_iff.1 hk
    cases k with
    | zero => cases hk
    | succ k => exact result_of_no_fault (hf (k + 1) hlt (Nat.succ_pos k)) randomByte
  have hcall : new.reset.executed? subroutineRun 1 =
      some (.call (Instruction.operandAddress 0x2204)) := by
    simp only [executed?, before, performAll_eq_advanceAll]
    decide +kernel
  have hret : new.reset.executed? subroutineRun 5 = some .ret := by
    simp only [executed?, before, performAll_eq_advanceAll]
    decide +kernel
  have hdepth : (new.reset.before subroutineRun 1).stack.depth.toNat = 0 ∧
      (new.reset.before subroutineRun 5).stack.depth.toNat = 0 + 1 ∧
      ∀ k < 5, 1 ≤ k → 0 + 1 ≤ (new.reset.before subroutineRun (k + 1)).stack.depth.toNat := by
    simp only [before, performAll_eq_advanceAll]
    decide +kernel
  obtain ⟨hd, hd', hdeep⟩ := hdepth
  exact (calls_and_returns_match new (by simp [subroutineRun]) hs).2 1 5 0
    (Instruction.operandAddress 0x2204) (by decide) hcall hd hret hd'
    fun k hk h1 _ _ => hdeep k hk h1

end Machine

end Chip8
