import Chip8.Proofs.Run

/-!
# Timers

A timer is set by an instruction of its own and runs down by one in every cycle that completes, that
of its setting and those in which an instruction waits for a key included. Cycles that fail let it
stand. Completed cycles are numbered along a run (`completions`), so that a timer which was set to
`v` stands at `v` less the number of cycles since then (`toNat_value_of_set`), and the sound timer
runs out in the `v`th of these cycles and in no other one (`RunsOut`, `timers_run_down`).
-/

namespace Chip8

/-- The timers of a machine. -/
inductive Timer
  | delay
  | sound

namespace Timer

/-- What the timer stands at. -/
def value (m : Machine) : Timer → UInt8
  | delay => m.delayTimer
  | sound => m.soundTimer

/-- The instruction that sets the timer to register `x`. -/
def setting (x : Register) : Timer → Instruction
  | delay => .setDelay x
  | sound => .setSound x

/-- What the timer stands at when a cycle lets it run on: what the instruction that was carried out
set it to, or what it stood at before. -/
def loaded (m : Machine) : Timer → Option Instruction → UInt8
  | delay, some (.setDelay x) => m.register x
  | sound, some (.setSound x) => m.register x
  | t, _ => t.value m

/-! ## One cycle -/

theorem loaded_setting (t : Timer) (m : Machine) (x : Register) :
    t.loaded m (some (t.setting x)) = m.register x := by
  cases t with
  | delay => rfl
  | sound => rfl

theorem loaded_of_ne {t : Timer} {m : Machine} {completed : Option Instruction}
    (h : ∀ x, completed ≠ some (t.setting x)) : t.loaded m completed = t.value m := by
  unfold loaded
  split
  · exact absurd rfl (h _)
  · exact absurd rfl (h _)
  · rfl

/-- Registers, program counter and waiting make no difference to a timer. -/
theorem value_with (t : Timer) (m : Machine) (registers : Vector UInt8 16) (pc : UInt16)
    (awaiting : Option Register) :
    t.value { m with registers := registers, pc := pc, awaiting := awaiting } = t.value m := by
  cases t with
  | delay => rfl
  | sound => rfl

theorem value_poll (t : Timer) (m : Machine) (x : Register) : t.value (m.poll x) = t.value m := by
  rw [Machine.poll_eq]
  exact t.value_with m _ _ _

/-- An instruction sets a timer or leaves it alone. -/
theorem value_effect (t : Timer) (randomByte : UInt8) (m : Machine) (instruction : Instruction) :
    t.value (m.effect randomByte instruction) = t.loaded m (some instruction) := by
  cases instruction with
  | awaitKey x =>
    refine (t.value_poll { m with awaiting := some x } x).trans ?_
    cases t with
    | delay => rfl
    | sound => rfl
  | skipIfEqual | skipUnlessEqual | skipIfSame | skipUnlessSame | skipIfPressed
  | skipUnlessPressed =>
    change t.value (m.nextSkipping _) = _
    rw [Machine.nextSkipping_eq]
    cases t with
    | delay => rfl
    | sound => rfl
  | restoreRegisters x =>
    refine (t.value_with m _ _ _).trans ?_
    cases t with
    | delay => rfl
    | sound => rfl
  | _ =>
    cases t with
    | delay => rfl
    | sound => rfl

theorem value_complete (t : Timer) (m : Machine) (screenChanged : Bool) (log : List LogEntry) :
    t.value (m.complete screenChanged log).machine = Machine.countDown (t.value m) := by
  cases t with
  | delay => rfl
  | sound => rfl

end Timer

namespace Machine

/-- **One step on a timer**: a completed cycle lets it run on from what it is set to, and nothing
else but a restart moves it. -/
theorem Step.value_eq {m m' : Machine} {request : Request} {outcome : Option Outcome}
    {completed : Option Instruction} (h : m.Step request outcome completed m')
    (hrestart : request ≠ .restart) (t : Timer) :
    t.value m' = if outcome.isSome then countDown (t.loaded m completed) else t.value m := by
  cases h with
  | restart => exact absurd rfl hrestart
  | load program =>
    rw [load_eq]
    cases t with
    | delay => rfl
    | sound => rfl
  | setKeys keys =>
    cases t with
    | delay => rfl
    | sound => rfl
  | fail randomByte hf => rfl
  | @poll randomByte x ha =>
    have hloaded : t.loaded m none = t.value m :=
      Timer.loaded_of_ne fun y => (Option.some_ne_none (t.setting y)).symm
    rw [Timer.value_complete, Timer.value_poll, hloaded]
    rfl
  | @carryOut randomByte instruction hi hr =>
    rw [Timer.value_complete, Timer.value_effect]
    rfl

/-- A completed cycle reports that the sound timer runs out if this stands at one. -/
theorem Step.soundExpired_iff {m m' : Machine} {request : Request} {outcome : Outcome}
    {completed : Option Instruction} (h : m.Step request (some outcome) completed m') :
    outcome.soundExpired = true ↔ Timer.sound.loaded m completed = 1 := by
  cases h with
  | @poll randomByte x ha =>
    have hvalue : (m.poll x).soundTimer = m.soundTimer := Timer.sound.value_poll m x
    change ((m.poll x).soundTimer == 1) = true ↔ m.soundTimer = 1
    rw [hvalue, beq_iff_eq]
  | @carryOut randomByte instruction hi hr =>
    have hvalue : (m.effect randomByte instruction).soundTimer =
        Timer.sound.loaded m (some instruction) :=
      Timer.sound.value_effect randomByte m instruction
    change ((m.effect randomByte instruction).soundTimer == 1) = true ↔ _
    rw [hvalue, beq_iff_eq]

theorem Step.register_of_readDelay {m m' : Machine} {request : Request} {outcome : Option Outcome}
    {x : Register} (h : m.Step request outcome (some (.readDelay x)) m') :
    m'.register x = m.delayTimer := by
  cases h with
  | carryOut randomByte => exact (register_setRegister m x x m.delayTimer).trans (if_pos rfl)

/-! ## Numbers of cycles -/

/-- How many of the first `k` requests of a run are cycles that complete. A cycle that completes has
this as its number, if `k` is the number of its request. -/
def completions (m : Machine) (requests : List Request) (k : Nat) : Nat :=
  (List.range k).countP fun r => (m.outcome? requests r).isSome

/-- In request number `k` of a run the sound timer runs out. -/
def ExpiresAt (m : Machine) (requests : List Request) (k : Nat) : Prop :=
  ∃ outcome, m.outcome? requests k = some outcome ∧ outcome.soundExpired = true

theorem completions_succ (m : Machine) (requests : List Request) (k : Nat) :
    m.completions requests (k + 1) =
      m.completions requests k + if (m.outcome? requests k).isSome then 1 else 0 := by
  unfold completions
  rw [List.range_succ, List.countP_append, List.countP_singleton]

section Numbers

variable {m : Machine} {requests : List Request}

theorem completions_mono {i k : Nat} (h : i ≤ k) :
    m.completions requests i ≤ m.completions requests k := by
  induction h with
  | refl => exact Nat.le_refl _
  | step _ ih =>
    rw [completions_succ]
    exact Nat.le_add_right_of_le ih

/-- Later cycles have larger numbers. -/
theorem completions_lt {i k : Nat} (hi : (m.outcome? requests i).isSome = true) (h : i < k) :
    m.completions requests i < m.completions requests k := by
  have hsucc := completions_succ m requests i
  have hmono : m.completions requests (i + 1) ≤ m.completions requests k := completions_mono h
  rw [if_pos hi] at hsucc
  omega

theorem completions_inj {i k : Nat} (hi : (m.outcome? requests i).isSome = true)
    (hk : (m.outcome? requests k).isSome = true)
    (h : m.completions requests i = m.completions requests k) : i = k := by
  rcases Nat.lt_trichotomy i k with hlt | heq | hgt
  · have := completions_lt hi hlt
    omega
  · exact heq
  · have := completions_lt hk hgt
    omega

/-- No number is left out. -/
theorem exists_completions_eq {k n : Nat} (h : n < m.completions requests k) :
    ∃ r < k, (m.outcome? requests r).isSome = true ∧ m.completions requests r = n := by
  induction k with
  | zero => cases h
  | succ k ih =>
    by_cases hn : n < m.completions requests k
    · obtain ⟨r, hr, hrest⟩ := ih hn
      exact ⟨r, Nat.lt_succ_of_lt hr, hrest⟩
    · rw [completions_succ] at h
      cases ho : (m.outcome? requests k).isSome with
      | true =>
        rw [ho, if_pos rfl] at h
        exact ⟨k, Nat.lt_succ_self k, ho, by omega⟩
      | false =>
        rw [ho, if_neg Bool.false_ne_true] at h
        exact absurd h hn

end Numbers

/-- From request number `p` on and before number `q`, the sound timer runs out in the `v`th cycle
that completes, if there are as many, and in no other one; in none at all if `v` is zero. -/
structure RunsOut (m : Machine) (requests : List Request) (p q v : Nat) : Prop where
  /-- A cycle in which the timer runs out is the `v`th one, and the other way round. -/
  expiresAt_iff : ∀ r, p ≤ r → r < q →
    (m.ExpiresAt requests r ↔ (m.outcome? requests r).isSome = true ∧
      m.completions requests r + 1 = m.completions requests p + v)
  /-- If there is a `v`th cycle, the timer runs out. -/
  exists_expiresAt : 0 < v → m.completions requests p + v ≤ m.completions requests q →
    ∃ r, p ≤ r ∧ r < q ∧ m.ExpiresAt requests r
  /-- The timer runs out once at most. -/
  eq_of_expiresAt : ∀ r r', p ≤ r → r < q → p ≤ r' → r' < q →
    m.ExpiresAt requests r → m.ExpiresAt requests r' → r = r'

theorem RunsOut.of_iff {m : Machine} {requests : List Request} {p q v : Nat}
    (h : ∀ r, p ≤ r → r < q → (m.ExpiresAt requests r ↔ (m.outcome? requests r).isSome = true ∧
      m.completions requests r + 1 = m.completions requests p + v)) :
    m.RunsOut requests p q v where
  expiresAt_iff := h
  exists_expiresAt := by
    intro hv hq
    have hlt : m.completions requests p + v - 1 < m.completions requests q := by omega
    obtain ⟨r, hr, ho, hn⟩ := exists_completions_eq hlt
    have hp : p ≤ r := by
      refine Nat.not_lt.1 fun hrp => ?_
      have := completions_lt ho hrp
      omega
    exact ⟨r, hp, hr, (h r hp hr).2 ⟨ho, by omega⟩⟩
  eq_of_expiresAt := by
    intro r r' hp hq hp' hq' he he'
    obtain ⟨ho, hn⟩ := (h r hp hq).1 he
    obtain ⟨ho', hn'⟩ := (h r' hp' hq').1 he'
    exact completions_inj ho ho' (by omega)

/-- The sound timer runs out in the cycles that complete with the timer at one. -/
theorem expiresAt_iff {m : Machine} {requests : List Request} {r : Nat} :
    m.ExpiresAt requests r ↔ (m.outcome? requests r).isSome = true ∧
      (Timer.sound.loaded (m.before requests r) (m.completed? requests r)).toNat = 1 := by
  unfold ExpiresAt
  cases ho : m.outcome? requests r with
  | none =>
    constructor
    · rintro ⟨outcome, h, -⟩
      cases h
    · rintro ⟨h, -⟩
      cases h
  | some outcome =>
    obtain ⟨request, hk, -⟩ := Option.bind_eq_some_iff.1 ho
    have hstep := step_before (m := m) hk
    rw [ho] at hstep
    have hone : ∀ value : UInt8, value.toNat = 1 ↔ value = 1 := fun value =>
      ⟨fun h => UInt8.toNat_inj.1 h, fun h => congrArg UInt8.toNat h⟩
    rw [hone, ← hstep.soundExpired_iff]
    constructor
    · rintro ⟨_, ho', h⟩
      cases ho'
      exact ⟨rfl, h⟩
    · rintro ⟨-, h⟩
      exact ⟨outcome, rfl, h⟩

/-! ## Timers in a run -/

/-- No request from number `i` on and before number `k` sets the timer. -/
def Unset (m : Machine) (requests : List Request) (t : Timer) (i k : Nat) : Prop :=
  ∀ r, i ≤ r → r < k → ∀ x, m.completed? requests r ≠ some (t.setting x)

section Runs

variable {m : Machine} {requests : List Request} (hr : .restart ∉ requests)

include hr

theorem value_before_succ (t : Timer) (k : Nat) :
    t.value (m.before requests (k + 1)) =
      if (m.outcome? requests k).isSome then
        countDown (t.loaded (m.before requests k) (m.completed? requests k))
      else t.value (m.before requests k) := by
  cases hk : requests[k]? with
  | none =>
    obtain ⟨hbefore, houtcome, -⟩ := before_succ_of_none (m := m) hk
    rw [hbefore, houtcome]
    rfl
  | some request =>
    refine (step_before hk).value_eq ?_ t
    rintro rfl
    exact hr (List.mem_of_getElem? hk)

/-- A timer that is not set runs down with the cycles that complete. -/
theorem toNat_value_before {t : Timer} {i k : Nat} (hik : i ≤ k) (hu : m.Unset requests t i k) :
    (t.value (m.before requests k)).toNat =
      (t.value (m.before requests i)).toNat -
        (m.completions requests k - m.completions requests i) := by
  induction hik with
  | refl => rw [Nat.sub_self, Nat.sub_zero]
  | @step k hik ih =>
    have hk : ∀ x, m.completed? requests k ≠ some (t.setting x) :=
      hu k hik (Nat.lt_succ_self k)
    have hmono : m.completions requests i ≤ m.completions requests k := completions_mono hik
    have ih := ih fun r hir hrk => hu r hir (Nat.lt_succ_of_lt hrk)
    rw [value_before_succ hr, Timer.loaded_of_ne hk, completions_succ]
    cases (m.outcome? requests k).isSome with
    | true =>
      rw [if_pos rfl, if_pos rfl, toNat_countDown, ih]
      omega
    | false =>
      rw [if_neg Bool.false_ne_true, if_neg Bool.false_ne_true, ih]
      omega

/-- After its setting a timer has run down with the cycle that set it and with those since then. -/
theorem toNat_value_of_set {t : Timer} {p q : Nat} {x : Register} (hpq : p < q)
    (hp : m.completed? requests p = some (t.setting x)) (hu : m.Unset requests t (p + 1) q) :
    (t.value (m.before requests q)).toNat =
      ((m.before requests p).register x).toNat -
        (m.completions requests q - m.completions requests p) := by
  have ho : (m.outcome? requests p).isSome = true := isSome_outcome? hp
  have hmono : m.completions requests (p + 1) ≤ m.completions requests q := completions_mono hpq
  have hfirst := value_before_succ (m := m) hr t p
  have hnumber := completions_succ m requests p
  rw [if_pos ho] at hnumber
  rw [if_pos ho, hp, Timer.loaded_setting] at hfirst
  rw [toNat_value_before (i := p + 1) hr hpq hu, hfirst, toNat_countDown]
  omega

theorem runsOut_of_unset {p q : Nat} (hu : m.Unset requests .sound p q) :
    m.RunsOut requests p q (m.before requests p).soundTimer.toNat := by
  refine .of_iff fun r hpr hrq => ?_
  have hunset : ∀ x, m.completed? requests r ≠ some (Timer.sound.setting x) := hu r hpr hrq
  have hvalue : (m.before requests r).soundTimer.toNat = (m.before requests p).soundTimer.toNat -
      (m.completions requests r - m.completions requests p) :=
    toNat_value_before hr hpr fun i hpi hir => hu i hpi (Nat.lt_trans hir hrq)
  have hmono : m.completions requests p ≤ m.completions requests r := completions_mono hpr
  have hloaded : Timer.sound.loaded (m.before requests r) (m.completed? requests r) =
      (m.before requests r).soundTimer := Timer.loaded_of_ne hunset
  rw [expiresAt_iff, hloaded, hvalue]
  refine and_congr_right fun _ => ?_
  omega

theorem runsOut_of_set {p q : Nat} {x : Register}
    (hp : m.completed? requests p = some (.setSound x)) (hu : m.Unset requests .sound (p + 1) q) :
    m.RunsOut requests p q ((m.before requests p).register x).toNat := by
  refine .of_iff fun r hpr hrq => ?_
  rw [expiresAt_iff]
  refine and_congr_right fun _ => ?_
  rcases Nat.eq_or_lt_of_le hpr with rfl | hlt
  · have hloaded : Timer.sound.loaded (m.before requests p) (m.completed? requests p) =
        (m.before requests p).register x := by
      rw [hp]
      exact Timer.sound.loaded_setting _ x
    rw [hloaded]
    omega
  · have hvalue : (m.before requests r).soundTimer.toNat =
        ((m.before requests p).register x).toNat -
          (m.completions requests r - m.completions requests p) :=
      toNat_value_of_set hr hlt hp fun i hpi hir => hu i hpi (Nat.lt_trans hir hrq)
    have hnumber : m.completions requests p < m.completions requests r :=
      completions_lt (isSome_outcome? hp) hlt
    have hloaded : Timer.sound.loaded (m.before requests r) (m.completed? requests r) =
        (m.before requests r).soundTimer := Timer.loaded_of_ne (hu r hlt hrq)
    rw [hloaded, hvalue]
    omega

end Runs

/-- **Timers run down with the cycles that complete.** In a run without a restart, a sound timer
that is set to `v` runs out in the `v`th cycle from its setting on, this one included, unless it is
set again before, and it runs out once at most. So does the timer that the run starts with. What is
read of a delay timer that was set to `v` is `v` less the number of cycles from its setting on. -/
theorem timers_run_down {m : Machine} {requests : List Request} (hr : .restart ∉ requests) :
    (∀ p q x, m.completed? requests p = some (.setSound x) →
      m.Unset requests .sound (p + 1) q →
        m.RunsOut requests p q ((m.before requests p).register x).toNat) ∧
      (∀ q, m.Unset requests .sound 0 q → m.RunsOut requests 0 q m.soundTimer.toNat) ∧
      ∀ p q x y, p < q → m.completed? requests p = some (.setDelay x) →
        m.completed? requests q = some (.readDelay y) → m.Unset requests .delay (p + 1) q →
          ((m.before requests (q + 1)).register y).toNat =
            ((m.before requests p).register x).toNat -
              (m.completions requests q - m.completions requests p) := by
  refine ⟨fun p q x hp hu => runsOut_of_set hr hp hu, fun q hu => runsOut_of_unset hr hu, ?_⟩
  intro p q x y hpq hp hq hu
  obtain ⟨⟨randomByte, hk⟩, -⟩ := completed?_eq_some_iff.1 hq
  have hstep := step_before (m := m) hk
  rw [hq] at hstep
  rw [hstep.register_of_readDelay]
  exact toNat_value_of_set (t := .delay) hr hpq hp hu

/-- A run in which both timers are set to two, the delay timer one cycle after the sound timer, and
the delay timer is read. -/
def timedRun : List Request :=
  [.load [0x60, 0x02, 0xF0, 0x18, 0xF0, 0x15, 0xF1, 0x07, 0x12, 0x08], .cycle 0, .cycle 0,
    .setKeys (Keypad.released.press 5), .cycle 0, .cycle 0, .cycle 0]

/-- The instructions that the requests of the run find at the program counter. -/
def timedTrace : List (Option Instruction) :=
  [0x0000, 0x6002, 0xF018, 0xF015, 0xF015, 0xF107, 0x1208].map Instruction.decode

/-- The sound timer runs out in the cycle after its setting, in which the delay timer is set, and
one is left of that when it is read. -/
theorem timers_run_down_set_to_two :
    new.ExpiresAt timedRun 4 ∧ ((new.before timedRun (5 + 1)).register 1).toNat = 1 ∧
      new.RunsOut timedRun 0 2 0 := by
  have hrun : (∀ r < 7, (new.before timedRun r).instruction? = timedTrace.getD r none) ∧
      (∀ r < 7, 0 < r → (new.before timedRun r).fault? = none) ∧
      (new.completions timedRun 2 = 1 ∧ new.completions timedRun 4 = 2 ∧
        new.completions timedRun 5 = 3) ∧
      (new.before timedRun 2).register 0 = 2 ∧ (new.before timedRun 4).register 0 = 2 := by
    simp only [completions, isSome_outcome?_eq, before, performAll_eq_advanceAll]
    decide +kernel
  obtain ⟨htrace, hfault, ⟨hsecond, hfourth, hfifth⟩, hvalue, hvalue'⟩ := hrun
  have hsound : new.completed? timedRun 2 = some (.setSound 0) :=
    completed?_eq_some_iff.2 ⟨⟨0, rfl⟩, hfault 2 (by decide) (by decide), htrace 2 (by decide)⟩
  have hdelay : new.completed? timedRun 4 = some (.setDelay 0) :=
    completed?_eq_some_iff.2 ⟨⟨0, rfl⟩, hfault 4 (by decide) (by decide), htrace 4 (by decide)⟩
  have hread : new.completed? timedRun 5 = some (.readDelay 1) :=
    completed?_eq_some_iff.2 ⟨⟨0, rfl⟩, hfault 5 (by decide) (by decide), htrace 5 (by decide)⟩
  have hothers : ∀ r < 7, r ≠ 2 → ∀ x, timedTrace.getD r none ≠ some (.setSound x) := by decide
  have hunset : ∀ i k, k ≤ 7 → 2 < i ∨ k ≤ 2 → new.Unset timedRun .sound i k := by
    intro i k hk hik r hir hrk x h
    have hr : r < 7 := Nat.lt_of_lt_of_le hrk hk
    have hinstruction := (completed?_eq_some_iff.1 h).2.2
    rw [htrace r hr] at hinstruction
    exact hothers r hr (by omega) x hinstruction
  have hrestart : Request.restart ∉ timedRun := by simp [timedRun]
  obtain ⟨hset, hstart, hdown⟩ := timers_run_down (m := new) hrestart
  have hruns := hset 2 7 0 hsound (hunset 3 7 (by decide) (by decide))
  have hleft := hdown 4 5 0 1 (by decide) hdelay hread fun r hr hr' => by omega
  rw [hvalue] at hruns
  rw [hvalue', hfourth, hfifth] at hleft
  refine ⟨(hruns.expiresAt_iff 4 (by decide) (by decide)).2 ⟨isSome_outcome? hdelay, ?_⟩, hleft,
    hstart 2 (hunset 0 2 (by decide) (by decide))⟩
  rw [hsecond, hfourth]
  rfl

end Machine

end Chip8
