import Mathlib.Data.List.Forall2
import Chip8.Proofs.Run

/-!
# What the keys can influence

Three instructions look at the keys, and keys influence a program through these alone
(`keys_matter_to_key_instructions`): of two machines that differ in their keys only and are handed
different keys from then on, neither can be told from the other by anything but its keys for as long
as none of the three is executed. A run is followed request by request along `AgreesButKeys`; what
carries this is that an instruction which does not look at the keys commutes with setting them
(`cycle_setKeys`), whatever it writes over the program.
-/

namespace Chip8

namespace Instruction

/-- Whether an instruction looks at the keys, as those do that the words `Ex9E`, `ExA1` and `Fx0A`
spell. -/
def looksAtKeys : Instruction → Bool
  | .skipIfPressed _ | .skipUnlessPressed _ | .awaitKey _ => true
  | _ => false

end Instruction

/-- Requests that are the same up to the keys they set. -/
inductive Request.AgreesButKeys : Request → Request → Prop
  | restart : AgreesButKeys .restart .restart
  | load (program : Bytes) : AgreesButKeys (.load program) (.load program)
  | setKeys (keys keys' : Keypad) : AgreesButKeys (.setKeys keys) (.setKeys keys')
  | cycle (randomByte : UInt8) : AgreesButKeys (.cycle randomByte) (.cycle randomByte)

/-- In lists of such requests the same places are taken, by such requests. -/
theorem Request.getElem?_of_agreesButKeys {requests requests' : List Request}
    (h : List.Forall₂ AgreesButKeys requests requests') (k : Nat) :
    (requests[k]? = none ∧ requests'[k]? = none) ∨
      ∃ request request', requests[k]? = some request ∧ requests'[k]? = some request' ∧
        request.AgreesButKeys request' := by
  induction h generalizing k with
  | nil => exact .inl ⟨rfl, rfl⟩
  | cons hr _ ih =>
    cases k with
    | zero => exact .inr ⟨_, _, rfl, rfl, hr⟩
    | succ k => exact ih k

namespace Machine

/-- Machines that are equal in everything but the keys. -/
def AgreesButKeys (m m' : Machine) : Prop :=
  m' = m.setKeys m'.keys

theorem agreesButKeys_setKeys (m : Machine) (keys : Keypad) : m.AgreesButKeys (m.setKeys keys) :=
  rfl

theorem AgreesButKeys.pc_eq {m m' : Machine} (h : m.AgreesButKeys m') : m'.pc = m.pc := by
  unfold AgreesButKeys at h
  rw [h]
  rfl

/-- The next cycle of the machine does not look at the keys. -/
structure IgnoresKeys (m : Machine) : Prop where
  awaiting_eq : m.awaiting = none
  looksAtKeys_eq : ∀ instruction, m.instruction? = some instruction →
    instruction.looksAtKeys = false

/-! ## One cycle -/

/-- An instruction that does not look at the keys does the same whatever they are. -/
theorem effect_setKeys {instruction : Instruction} (h : instruction.looksAtKeys = false)
    (randomByte : UInt8) (m : Machine) (keys : Keypad) :
    (m.setKeys keys).effect randomByte instruction =
      (m.effect randomByte instruction).setKeys keys := by
  cases instruction with
  | skipIfPressed | skipUnlessPressed | awaitKey => cases h
  | skipIfEqual | skipUnlessEqual | skipIfSame | skipUnlessSame =>
    change (m.setKeys keys).nextSkipping _ = (m.nextSkipping _).setKeys keys
    rw [nextSkipping_eq, nextSkipping_eq]
    rfl
  | _ => rfl

theorem executionLog_setKeys {instruction : Instruction} (h : instruction.looksAtKeys = false)
    (m : Machine) (keys : Keypad) :
    (m.setKeys keys).executionLog instruction = m.executionLog instruction := by
  cases instruction with
  | awaitKey x => cases h
  | _ => rfl

/-- **A cycle that does not look at the keys** comes to the same whatever they are, up to the keys
themselves. -/
theorem cycle_setKeys {m : Machine} (h : m.IgnoresKeys) (keys : Keypad) (randomByte : UInt8) :
    (m.setKeys keys).cycle randomByte =
      ⟨(m.cycle randomByte).machine.setKeys keys, (m.cycle randomByte).result,
        (m.cycle randomByte).log⟩ := by
  have ha := h.awaiting_eq
  have ha' : (m.setKeys keys).awaiting = none := ha
  have hfetch : (m.setKeys keys).fetch = m.fetch := fetch_congr rfl rfl
  cases hf : m.fetch with
  | error fault =>
    rw [cycle_of_fetch_error ha hf, cycle_of_fetch_error ha' (hfetch.trans hf)]
  | ok fetched =>
    obtain ⟨word, instruction⟩ := fetched
    have hr' := refusal_setKeys m keys instruction
    cases hr : m.refusal instruction with
    | some fault =>
      rw [cycle_of_refusal ha hf hr,
        cycle_of_refusal ha' (hfetch.trans hf) (hr'.trans hr)]
      rfl
    | none =>
      have hi := h.looksAtKeys_eq instruction (instruction?_of_fetch ha hf)
      rw [cycle_of_effect ha hf hr, cycle_of_effect ha' (hfetch.trans hf) (hr'.trans hr),
        effect_setKeys hi, executionLog_setKeys hi]
      rfl

/-- Only looking at the keys can begin a wait for one. -/
theorem IgnoresKeys.awaiting_cycle {m : Machine} (h : m.IgnoresKeys) (randomByte : UInt8) :
    (m.cycle randomByte).machine.awaiting = none := by
  rcases cycle_cases randomByte m with ⟨x, hx, -⟩ | ⟨fault, -, -, hc⟩ |
    ⟨word, instruction, fault, -, -, -, hc⟩ | ⟨word, instruction, ha, hf, -, hc⟩
  · rw [h.awaiting_eq] at hx
    cases hx
  · rw [hc]
    exact h.awaiting_eq
  · rw [hc]
    exact h.awaiting_eq
  · rw [hc]
    refine (awaiting_effect randomByte m instruction).trans ?_
    cases instruction with
    | awaitKey x => cases h.looksAtKeys_eq _ (instruction?_of_fetch ha hf)
    | _ => exact ha

/-! ## Requests -/

/-- **One step**: machines that agree go on agreeing unless a cycle looks at the keys. -/
theorem AgreesButKeys.perform {m m' : Machine} (h : m.AgreesButKeys m')
    {request request' : Request} (hr : request.AgreesButKeys request')
    (hi : ∀ randomByte, request = .cycle randomByte → m.IgnoresKeys) :
    (m.perform request).AgreesButKeys (m'.perform request') := by
  unfold AgreesButKeys at h
  rw [h]
  generalize m'.keys = other
  cases hr with
  | restart => exact rfl
  | load program =>
    have hsame : (m.setKeys other).memory = m.memory := rfl
    have hmemory := memory_load_congr hsame program
    change ((m.setKeys other).load program).machine =
      (m.load program).machine.setKeys ((m.setKeys other).load program).machine.keys
    rw [load_eq, load_eq program m, hmemory]
    rfl
  | setKeys keys keys' => exact rfl
  | cycle randomByte =>
    change ((m.setKeys other).cycle randomByte).machine =
      (m.cycle randomByte).machine.setKeys ((m.setKeys other).cycle randomByte).machine.keys
    rw [cycle_setKeys (hi randomByte rfl)]
    rfl

theorem AgreesButKeys.resultOf_eq {m m' : Machine} (h : m.AgreesButKeys m')
    {request request' : Request} (hr : request.AgreesButKeys request')
    (hi : ∀ randomByte, request = .cycle randomByte → m.IgnoresKeys) :
    m.resultOf request = m'.resultOf request' := by
  cases hr with
  | cycle randomByte =>
    unfold AgreesButKeys at h
    rw [h, resultOf, resultOf, cycle_setKeys (hi randomByte rfl)]
  | restart | load | setKeys => rfl

/-- Only a cycle that looks at the keys can begin a wait for one. -/
theorem awaiting_perform_of_ignoresKeys {m : Machine} (ha : m.awaiting = none) {request : Request}
    (hi : ∀ randomByte, request = .cycle randomByte → m.IgnoresKeys) :
    (m.perform request).awaiting = none := by
  cases request with
  | restart => rfl
  | load program =>
    change (m.load program).machine.awaiting = none
    rw [load_eq]
    exact ha
  | setKeys keys => exact ha
  | cycle randomByte => exact (hi randomByte rfl).awaiting_cycle randomByte

/-! ## Runs -/

section Runs

variable {m m' : Machine} {requests requests' : List Request}

/-- A run that executes no instruction which looks at the keys ignores them in its cycles, unless it
waits for one. -/
theorem ignoresKeys_before {k : Nat} (ha : (m.before requests k).awaiting = none)
    (hi : ∀ instruction, m.executed? requests k = some instruction →
      instruction.looksAtKeys = false)
    {request : Request} (hk : requests[k]? = some request) :
    ∀ randomByte, request = .cycle randomByte → (m.before requests k).IgnoresKeys := by
  rintro randomByte rfl
  exact ⟨ha, fun instruction h => hi instruction (executed?_eq_some_iff.2 ⟨⟨randomByte, hk⟩, h⟩)⟩

/-- The machines agree, and do not wait, up to the first instruction that looks at the keys. -/
theorem AgreesButKeys.before (hm : m.AgreesButKeys m') (ha : m.awaiting = none)
    (hr : List.Forall₂ Request.AgreesButKeys requests requests') {n : Nat}
    (hi : ∀ k < n, ∀ instruction, m.executed? requests k = some instruction →
      instruction.looksAtKeys = false) :
    ∀ k ≤ n, (m.before requests k).AgreesButKeys (m'.before requests' k) ∧
      (m.before requests k).awaiting = none := by
  intro k hk
  induction k with
  | zero => exact ⟨hm, ha⟩
  | succ k ih =>
    obtain ⟨hagree, hawake⟩ := ih (Nat.le_of_succ_le hk)
    rw [before_succ, before_succ]
    rcases Request.getElem?_of_agreesButKeys hr k with
      ⟨hnone, hnone'⟩ | ⟨request, request', hsome, hsome', hrequest⟩
    · rw [hnone, hnone']
      exact ⟨hagree, hawake⟩
    · have hignore := ignoresKeys_before hawake (hi k hk) hsome
      rw [hsome, hsome']
      exact ⟨hagree.perform hrequest hignore, awaiting_perform_of_ignoresKeys hawake hignore⟩

/-- **Keys influence a program through the instructions that look at keys alone.** Two machines that
do not wait and are equal in everything but the keys go through requests that are the same up to the
keys they set. As long as the first executes no instruction that looks at the keys, their cycles
come to the same, outcomes and faults alike, and they stay equal in everything but the keys. -/
theorem keys_matter_to_key_instructions (hm : m.AgreesButKeys m') (ha : m.awaiting = none)
    (hr : List.Forall₂ Request.AgreesButKeys requests requests') {n : Nat}
    (hi : ∀ k < n, ∀ instruction, m.executed? requests k = some instruction →
      instruction.looksAtKeys = false) :
    (∀ k ≤ n, (m.before requests k).AgreesButKeys (m'.before requests' k)) ∧
      ∀ k < n, m.result? requests k = m'.result? requests' k := by
  have hbefore := hm.before ha hr hi
  refine ⟨fun k hk => (hbefore k hk).1, fun k hk => ?_⟩
  obtain ⟨hagree, hawake⟩ := hbefore k (Nat.le_of_lt hk)
  unfold result?
  rcases Request.getElem?_of_agreesButKeys hr k with
    ⟨hnone, hnone'⟩ | ⟨request, request', hsome, hsome', hrequest⟩
  · rw [hnone, hnone']
    rfl
  · rw [hsome, hsome']
    exact hagree.resultOf_eq hrequest (ignoresKeys_before hawake (hi k hk) hsome)

end Runs

/-- A run, with `keys` put down before every cycle, of a program that draws a random byte and skips
an instruction if the key is down which that names. -/
def drawThenSkip (keys : Keypad) : List Request :=
  [.load [0xC0, 0xFF, 0xE0, 0x9E], .setKeys keys, .cycle 0xAB, .setKeys keys, .cycle 0]

theorem drawThenSkip_agreesButKeys (keys keys' : Keypad) :
    List.Forall₂ Request.AgreesButKeys (drawThenSkip keys) (drawThenSkip keys') := by
  simp only [drawThenSkip, List.forall₂_cons, Request.AgreesButKeys.load,
    Request.AgreesButKeys.setKeys, Request.AgreesButKeys.cycle, List.Forall₂.nil, and_self]

/-- Whether the key is down makes no difference up to the skip, and then it does. -/
theorem keys_matter_to_key_instructions_skip :
    let down := Keypad.released.press 0xB
    (new.before (drawThenSkip .released) 4).AgreesButKeys
        ((new.setKeys down).before (drawThenSkip down) 4) ∧
      new.result? (drawThenSkip .released) 2 = (new.setKeys down).result? (drawThenSkip down) 2 ∧
      ¬(new.before (drawThenSkip .released) 5).AgreesButKeys
        ((new.setKeys down).before (drawThenSkip down) 5) := by
  intro down
  have hi : ∀ k < 4, (new.executed? (drawThenSkip .released) k).any (·.looksAtKeys) = false := by
    simp only [executed?, before, performAll_eq_advanceAll]
    decide +kernel
  obtain ⟨hagree, hresult⟩ := keys_matter_to_key_instructions (agreesButKeys_setKeys new down) rfl
    (drawThenSkip_agreesButKeys .released down) (n := 4)
    (fun k hk instruction h => by simpa [h] using hi k hk)
  refine ⟨hagree 4 (Nat.le_refl _), hresult 2 (by decide), ?_⟩
  intro h
  have hpc := h.pc_eq
  simp only [before, performAll_eq_advanceAll] at hpc
  revert hpc
  decide +kernel

end Machine

end Chip8
