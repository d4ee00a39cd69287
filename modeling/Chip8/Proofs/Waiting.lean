import Chip8.Proofs.Run

/-!
# Waiting for a key

A machine that finds no key down at an instruction which wants one notes the register and from then
on only looks at the keys, until one is down. A `Spinner` has nothing to note: it fetches the same
instruction again in every cycle, and that changes nothing as long as no key is down.
`waiting_is_spinning` says that the two cannot be told apart. The machine follows the spinner along
`Machine.spinner`, which forgets the note; what carries this is that a machine which waits stays
where the instruction stands (`WaitsInPlace`).
-/

namespace Chip8

/-- The state of a machine without the note that an instruction waits for a key. -/
structure Spinner where
  memory : Memory
  registers : Vector UInt8 16
  index : UInt16
  pc : UInt16
  screen : Bitmap
  delayTimer : UInt8
  soundTimer : UInt8
  keys : Keypad
  stack : CallStack
  screenChanged : Bool

/-- All of a machine but the note that an instruction waits for a key. -/
def Machine.spinner (m : Machine) : Spinner where
  memory := m.memory
  registers := m.registers
  index := m.index
  pc := m.pc
  screen := m.screen
  delayTimer := m.delayTimer
  soundTimer := m.soundTimer
  keys := m.keys
  stack := m.stack
  screenChanged := m.screenChanged

namespace Spinner

/-- The machine in this state in which no instruction waits. -/
def machine (s : Spinner) : Machine where
  memory := s.memory
  registers := s.registers
  index := s.index
  pc := s.pc
  screen := s.screen
  delayTimer := s.delayTimer
  soundTimer := s.soundTimer
  keys := s.keys
  stack := s.stack
  screenChanged := s.screenChanged
  awaiting := none

/-! ## Spinning on an instruction -/

/-- Carries out an instruction. One that wants a key stores the lowest key that is down and goes on,
or changes nothing; any other does what it does on a machine. -/
def execute (randomByte : UInt8) (s : Spinner) : Instruction → Except Fault Spinner
  | .awaitKey x =>
    match s.keys.pressed with
    | key :: _ =>
      let registers := (s.machine.setRegister x (UInt8.ofNat key.val)).registers
      .ok { s with registers := registers, pc := s.pc + 2 }
    | [] => .ok s
  | instruction =>
    match Machine.execute randomByte instruction s.machine with
    | .ok _ m => .ok m.spinner
    | .error fault _ => .error fault

/-- Completes a cycle: notes whether it touched the screen and lets both timers run on. -/
def complete (screenChanged : Bool) (s : Spinner) : Except Fault Outcome × Spinner :=
  (.ok ⟨screenChanged, s.soundTimer == 1⟩,
    { s with
      screenChanged := screenChanged
      delayTimer := Machine.countDown s.delayTimer
      soundTimer := Machine.countDown s.soundTimer })

/-- Executes one cycle, which always fetches an instruction. -/
def cycle (randomByte : UInt8) (s : Spinner) : Except Fault Outcome × Spinner :=
  match s.machine.fetch with
  | .error fault => (.error fault, s)
  | .ok (_, instruction) =>
    match s.execute randomByte instruction with
    | .error fault => (.error fault, s)
    | .ok s' => s'.complete instruction.changesScreen

/-- The spinner after a request. -/
def perform (s : Spinner) : Request → Spinner
  | .restart => s.machine.reset.spinner
  | .load program => (s.machine.load program).machine.spinner
  | .setKeys keys => { s with keys := keys }
  | .cycle randomByte => (s.cycle randomByte).2

/-- The spinner before request number `k` of a run. -/
def before (s : Spinner) (requests : List Request) (k : Nat) : Spinner :=
  (requests.take k).foldl perform s

/-- The register for which the next cycle wants a key and finds none down. -/
def unsatisfied? (s : Spinner) : Option Register :=
  match s.machine.fetch, s.keys.pressed with
  | .ok (_, .awaitKey x), [] => some x
  | _, _ => none

end Spinner

/-- The number of the last cycle among the first `k` requests. -/
def lastCycle? (requests : List Request) : Nat → Option Nat
  | 0 => none
  | k + 1 =>
    match requests[k]? with
    | some (.cycle _) => some k
    | _ => lastCycle? requests k

namespace Machine

/-! ## A waiting machine stays in place -/

/-- If a register waits for a key, the instruction that wants the key is at the program counter. -/
def WaitsInPlace (m : Machine) : Prop :=
  ∀ x, m.awaiting = some x →
    ∃ word, m.memory.word? m.pc.toNat = some word ∧ Instruction.decode word = some (.awaitKey x)

theorem waitsInPlace_of_not_awaiting {m : Machine} (h : m.awaiting = none) : m.WaitsInPlace := by
  intro x hx
  rw [h] at hx
  cases hx

theorem lowest?_eq_none_of_awaiting_poll {m : Machine} {x y : Register}
    (h : (m.poll x).awaiting = some y) : m.keys.lowest? = none := by
  cases hk : m.keys.lowest? with
  | none => rfl
  | some key =>
    rw [awaiting_poll, hk] at h
    cases h

/-- A machine goes on waiting in place unless a program is loaded meanwhile. -/
theorem Step.waitsInPlace {m m' : Machine} {request : Request} {outcome : Option Outcome}
    {completed : Option Instruction} (h : m.Step request outcome completed m')
    (hw : m.WaitsInPlace) (hl : ∀ program, request = .load program → m.awaiting = none) :
    m'.WaitsInPlace := by
  cases h with
  | restart => exact waitsInPlace_of_not_awaiting rfl
  | load program =>
    refine waitsInPlace_of_not_awaiting (Eq.trans ?_ (hl program rfl))
    rw [load_eq]
  | setKeys keys => exact hw
  | fail randomByte hf => exact hw
  | @poll randomByte x ha =>
    intro y hy
    -- a wait that is still there was not ended, so that nothing moved
    have hk : m.keys.lowest? = none := lowest?_eq_none_of_awaiting_poll hy
    rw [poll_of_none hk] at hy ⊢
    exact hw y hy
  | @carryOut randomByte instruction hi hr =>
    intro y hy
    have ha : m.awaiting = none := awaiting_of_instruction hi
    have hy : (m.effect randomByte instruction).awaiting = some y := hy
    cases instruction with
    | awaitKey x =>
      have hk : m.keys.lowest? = none :=
        lowest?_eq_none_of_awaiting_poll (m := { m with awaiting := some x }) hy
      have heffect : m.effect randomByte (.awaitKey x) = { m with awaiting := some x } :=
        poll_of_none (m := { m with awaiting := some x }) hk x
      rw [heffect] at hy ⊢
      obtain rfl : x = y := Option.some.inj hy
      exact word_of_instruction (m := m) hi
    | _ =>
      rw [awaiting_effect, ha] at hy
      cases hy

/-! ## The machine follows the spinner -/

theorem machine_spinner {m : Machine} (h : m.awaiting = none) : m.spinner.machine = m := by
  cases m with
  | mk =>
    cases h
    rfl

theorem fetch_machine_spinner (m : Machine) : m.spinner.machine.fetch = m.fetch :=
  fetch_congr rfl rfl

/-- The instruction that wants a key does to a spinner what a look at the keys does to a machine. -/
theorem execute_spinner_awaitKey (m : Machine) (x : Register) (randomByte : UInt8) :
    m.spinner.execute randomByte (.awaitKey x) = .ok (m.poll x).spinner := by
  have hlowest : m.keys.lowest? = m.keys.pressed.head? := m.keys.lowest?_eq_head?_pressed
  unfold Spinner.execute
  change (match m.keys.pressed with | key :: _ => _ | [] => _) = _
  cases hp : m.keys.pressed with
  | nil =>
    rw [hp] at hlowest
    rw [poll_of_none hlowest]
  | cons key rest =>
    rw [hp] at hlowest
    rw [poll_of_some hlowest]
    rfl

/-- Without a wait, a spinner carries out what a machine carries out. -/
theorem execute_spinner {m : Machine} (ha : m.awaiting = none) (randomByte : UInt8)
    (instruction : Instruction) :
    m.spinner.execute randomByte instruction =
      match m.refusal instruction with
      | some fault => .error fault
      | none => .ok (m.effect randomByte instruction).spinner := by
  by_cases hx : ∃ x, instruction = .awaitKey x
  · obtain ⟨x, rfl⟩ := hx
    exact execute_spinner_awaitKey { m with awaiting := some x } x randomByte
  · rw [Spinner.execute, machine_spinner ha, execute_eq]
    · cases m.refusal instruction with
      | some fault => rfl
      | none => rfl
    · exact fun x h => hx ⟨x, h⟩

/-- **The square of the simulation**: to forget the wait and spin is to cycle and forget the wait,
with the same result. -/
theorem cycle_spinner {m : Machine} (hw : m.WaitsInPlace) (randomByte : UInt8) :
    m.spinner.cycle randomByte =
      ((m.cycle randomByte).result, (m.cycle randomByte).machine.spinner) := by
  rw [Spinner.cycle, fetch_machine_spinner]
  cases ha : m.awaiting with
  | some x =>
    obtain ⟨word, hword⟩ := hw x ha
    rw [cycle_of_awaiting ha, fetch_eq_ok_iff.2 hword]
    dsimp only
    rw [execute_spinner_awaitKey]
    rfl
  | none =>
    cases hf : m.fetch with
    | error fault => rw [cycle_of_fetch_error ha hf]
    | ok fetched =>
      obtain ⟨word, instruction⟩ := fetched
      rw [cycle_of_fetch ha hf, execute_eq]
      dsimp only
      rw [execute_spinner ha]
      cases m.refusal instruction with
      | some fault => rfl
      | none => rfl

theorem unsatisfied?_of_fetch {m : Machine} {word : UInt16} {x : Register}
    (hf : m.fetch = .ok (word, .awaitKey x)) :
    m.spinner.unsatisfied? = if m.keys.lowest?.isSome then none else some x := by
  have hkeys : m.spinner.keys = m.keys := rfl
  unfold Spinner.unsatisfied?
  rw [fetch_machine_spinner, hf, hkeys, Keypad.lowest?_eq_head?_pressed]
  cases m.keys.pressed with
  | nil => rfl
  | cons key rest => rfl

theorem unsatisfied?_of_not_fetch {m : Machine}
    (hf : ∀ word x, m.fetch ≠ .ok (word, .awaitKey x)) : m.spinner.unsatisfied? = none := by
  unfold Spinner.unsatisfied?
  rw [fetch_machine_spinner]
  split
  · rename_i word x heq _
    exact absurd heq (hf word x)
  · rfl

/-- After a cycle the register waits for which the spinner finds no key. -/
theorem awaiting_cycle {m : Machine} (hw : m.WaitsInPlace) (randomByte : UInt8) :
    (m.cycle randomByte).machine.awaiting = m.spinner.unsatisfied? := by
  by_cases hx : ∃ word x, m.fetch = .ok (word, .awaitKey x)
  · obtain ⟨word, x, hf⟩ := hx
    rw [unsatisfied?_of_fetch hf]
    cases ha : m.awaiting with
    | some y =>
      obtain ⟨word', hword'⟩ := hw y ha
      obtain rfl : x = y := by
        rw [fetch_eq_ok_iff.2 hword'] at hf
        cases hf
        rfl
      rw [cycle_of_awaiting ha, ← ha]
      exact awaiting_poll m x
    | none =>
      rw [cycle_of_fetch ha hf, execute_eq]
      exact awaiting_effect randomByte m (.awaitKey x)
  · have hx : ∀ word x, m.fetch ≠ .ok (word, .awaitKey x) := fun word x h => hx ⟨word, x, h⟩
    rw [unsatisfied?_of_not_fetch hx]
    rcases cycle_cases randomByte m with ⟨x, ha, -⟩ | ⟨fault, ha, -, hc⟩ |
      ⟨word, instruction, fault, ha, -, -, hc⟩ | ⟨word, instruction, ha, hf, -, hc⟩
    · obtain ⟨word, hword⟩ := hw x ha
      exact absurd (fetch_eq_ok_iff.2 hword) (hx word x)
    · rw [hc]
      exact ha
    · rw [hc]
      exact ha
    · rw [hc]
      refine (awaiting_effect randomByte m instruction).trans ?_
      split
      · exact absurd hf (hx word _)
      · exact ha

/-! ## Runs -/

theorem perform_spinner {m : Machine} (hw : m.WaitsInPlace) {request : Request}
    (hr : request.isPlay = false → m.awaiting = none) :
    (m.perform request).spinner = m.spinner.perform request := by
  cases request with
  | restart => rfl
  | load program =>
    change (m.load program).machine.spinner = (m.spinner.machine.load program).machine.spinner
    rw [machine_spinner (hr rfl)]
  | setKeys keys => rfl
  | cycle randomByte =>
    change (m.cycle randomByte).machine.spinner = (m.spinner.cycle randomByte).2
    rw [cycle_spinner hw]

end Machine

namespace Spinner

theorem before_succ (s : Spinner) (requests : List Request) (k : Nat) :
    s.before requests (k + 1) =
      match requests[k]? with
      | some request => (s.before requests k).perform request
      | none => s.before requests k := by
  unfold before
  rw [List.take_add_one, List.foldl_append]
  cases requests[k]? with
  | some request => rfl
  | none => rfl

end Spinner

namespace Machine

/-- The register that waits for a key is the one which the last cycle left unsatisfied. -/
theorem awaiting_perform {m : Machine} (hw : m.WaitsInPlace) {request : Request}
    (hr : request.isPlay = false → m.awaiting = none) :
    (m.perform request).awaiting =
      match request with
      | .cycle _ => m.spinner.unsatisfied?
      | _ => m.awaiting := by
  cases request with
  | restart => exact (hr rfl).symm
  | load program =>
    change (m.load program).machine.awaiting = m.awaiting
    rw [load_eq]
  | setKeys keys => rfl
  | cycle randomByte => exact awaiting_cycle hw randomByte

section Runs

variable {m : Machine} (ha : m.awaiting = none) {requests : List Request}
  (hr : ∀ k request, requests[k]? = some request → request.isPlay = false →
    (m.before requests k).awaiting = none)

include ha hr

theorem waitsInPlace_before (k : Nat) : (m.before requests k).WaitsInPlace := by
  induction k with
  | zero => exact waitsInPlace_of_not_awaiting ha
  | succ k ih =>
    rw [before_succ]
    cases hk : requests[k]? with
    | none => exact ih
    | some request =>
      refine ((m.before requests k).step request).waitsInPlace ih fun program hl => ?_
      subst hl
      exact hr k _ hk rfl

theorem spinner_before (k : Nat) :
    (m.before requests k).spinner = m.spinner.before requests k := by
  induction k with
  | zero => rfl
  | succ k ih =>
    rw [before_succ, Spinner.before_succ]
    cases hk : requests[k]? with
    | none => exact ih
    | some request =>
      have hw := waitsInPlace_before ha hr k
      dsimp only
      rw [perform_spinner hw (hr k request hk), ih]

theorem awaiting_before (k : Nat) :
    (m.before requests k).awaiting =
      (lastCycle? requests k).bind fun j => (m.spinner.before requests j).unsatisfied? := by
  induction k with
  | zero => exact ha
  | succ k ih =>
    rw [before_succ, lastCycle?]
    cases hk : requests[k]? with
    | none => exact ih
    | some request =>
      have hw := waitsInPlace_before ha hr k
      dsimp only
      rw [awaiting_perform hw (hr k request hk)]
      cases request with
      | cycle randomByte =>
        dsimp only
        rw [spinner_before ha hr]
        rfl
      | restart | load | setKeys => exact ih

end Runs

/-- **Waiting for a key is spinning on the instruction.** In a run from a machine that does not
wait, with no restart and no program while it waits, the machine is always where the spinner is and
every cycle has the same result. It waits for the register that the last cycle left without a key,
and the word `Fx0A` of that register is at the program counter. -/
theorem waiting_is_spinning {m : Machine} (ha : m.awaiting = none) {requests : List Request}
    (hr : ∀ k request, requests[k]? = some request → request.isPlay = false →
      (m.before requests k).awaiting = none) (k : Nat) :
    (m.before requests k).spinner = m.spinner.before requests k ∧
      (∀ randomByte, ((m.before requests k).cycle randomByte).result =
        ((m.spinner.before requests k).cycle randomByte).1) ∧
      (m.before requests k).awaiting =
        (lastCycle? requests k).bind (fun j => (m.spinner.before requests j).unsatisfied?) ∧
      ∀ x, (m.before requests k).awaiting = some x →
        ∃ word, (m.before requests k).memory.word? (m.before requests k).pc.toNat = some word ∧
          word.toNat = 0xF00A + 256 * x.val := by
  have hw : (m.before requests k).WaitsInPlace := waitsInPlace_before ha hr k
  have hspin := spinner_before ha hr k
  refine ⟨hspin, fun randomByte => ?_, awaiting_before ha hr k, fun x hx => ?_⟩
  · rw [← hspin, cycle_spinner hw]
  · obtain ⟨word, hword, hd⟩ := hw x hx
    exact ⟨word, hword, Instruction.decode_eq_awaitKey_iff.1 hd⟩

/-- The subroutine that waits for a key waits at its first word when the key goes down, and the
spinner has returned from it in the same cycle. -/
theorem waiting_is_spinning_subroutine :
    (new.before subroutineRun 6).spinner = new.spinner.before subroutineRun 6 ∧
      (new.before subroutineRun 4).awaiting = some 3 ∧
      ∃ word, (new.before subroutineRun 4).memory.word?
          (new.before subroutineRun 4).pc.toNat = some word ∧ word.toNat = 0xF30A := by
  have hr : ∀ k request, subroutineRun[k]? = some request → request.isPlay = false →
      (new.before subroutineRun k).awaiting = none := by
    intro k request hk hp
    cases k with
    | zero => rfl
    | succ k =>
      have hplay : ∀ r ∈ subroutineRun.tail, r.isPlay = true := by
        simp [subroutineRun, Request.isPlay]
      rw [hplay request (List.mem_of_getElem? hk)] at hp
      cases hp
  have hwait : (new.before subroutineRun 4).awaiting = some 3 := by
    simp only [before, performAll_eq_advanceAll]
    decide +kernel
  obtain ⟨-, -, -, hword⟩ := waiting_is_spinning rfl hr 4
  exact ⟨(waiting_is_spinning rfl hr 6).1, hwait, hword 3 hwait⟩

end Machine

end Chip8
