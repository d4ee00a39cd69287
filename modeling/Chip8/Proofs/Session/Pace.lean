import Chip8.Proofs.Session.Loop
import Mathlib.Data.Int.CardIntervalMod

/-!
# The pace of a run

A run is to have so many cycles and so many refreshes of the keys a second. The loop counts its
cycles and refreshes the keys once in a fixed number of them, which is a quotient rounded down and
clamped from below, so that it hardly ever meets the wanted rate. Here the loop does its divisions
with a check of what it divides by, and keeps an account of its cycles and refreshes (`PacedLoop`).
No division fails, and the keys are refreshed before exactly the cycles where they are due
(`KeepsPace`). Counting those in a second of cycles, wherever it begins, gives at least the wanted
number of refreshes and at most twice as many (`run_keeps_pace`).
-/

namespace Chip8

/-- The quotient of two numbers, if there is something to divide by. -/
def quotient? (a b : Nat) : Option Nat :=
  if b = 0 then none else some (a / b)

/-- The remainder of a division, if there is something to divide by. -/
def remainder? (a b : Nat) : Option Nat :=
  if b = 0 then none else some (a % b)

theorem quotient?_of_pos (a : Nat) {b : Nat} (h : 0 < b) : quotient? a b = some (a / b) :=
  if_neg (Nat.ne_of_gt h)

theorem remainder?_of_pos (a : Nat) {b : Nat} (h : 0 < b) : remainder? a b = some (a % b) :=
  if_neg (Nat.ne_of_gt h)

/-- In a range, the numbers of a window are counted by themselves. -/
theorem countP_range_window {a n m : Nat} (h : a + n ≤ m) (p : Nat → Bool) :
    (List.range m).countP (fun k => decide (a ≤ k ∧ k < a + n) && p k) =
      (List.range' a n).countP p := by
  obtain ⟨later, rfl⟩ := Nat.exists_eq_add_of_le h
  have hbefore : (List.range' 0 a).countP
      (fun k => decide (a ≤ k ∧ k < a + n) && p k) = 0 := by
    rw [List.countP_eq_zero]
    intro k hk
    have hlt := (List.mem_range'_1.1 hk).2
    rw [Bool.and_eq_true, decide_eq_true_eq]
    omega
  have hafter : (List.range' (a + n) later).countP
      (fun k => decide (a ≤ k ∧ k < a + n) && p k) = 0 := by
    rw [List.countP_eq_zero]
    intro k hk
    have hle := (List.mem_range'_1.1 hk).1
    rw [Bool.and_eq_true, decide_eq_true_eq]
    omega
  have hwithin : (List.range' a n).countP
      (fun k => decide (a ≤ k ∧ k < a + n) && p k) = (List.range' a n).countP p := by
    refine List.countP_congr fun k hk => ?_
    rw [Bool.and_eq_true, decide_eq_true_eq]
    exact and_iff_right (List.mem_range'_1.1 hk)
  rw [List.range_eq_range', ← List.range'_append_1, ← List.range'_append_1, List.countP_append,
    List.countP_append, Nat.zero_add, Nat.zero_add, hbefore, hafter, hwithin, Nat.zero_add,
    Nat.add_zero]

/-- The numbers that a run is paced by. -/
structure Pace where
  /-- The nanoseconds from one cycle to the next. -/
  interval : Nat
  /-- The number of cycles from one refresh of the keys to the next. -/
  refreshEvery : Nat
  /-- The number of cycles from one look at the clock to the next. -/
  batch : Nat

namespace Options

/-- The number of keypad refreshes per second that is aimed at. -/
def refreshRate (o : Options) : Nat :=
  max o.refreshesPerSecond 1

theorem refreshRate_pos (o : Options) : 0 < o.refreshRate := by
  unfold refreshRate
  omega

/-- The pace that the options ask for. -/
def pace? (o : Options) : Option Pace := do
  let interval ← quotient? (10 ^ 9) o.rate
  let refreshEvery ← quotient? o.rate o.refreshRate
  some ⟨interval, max refreshEvery 1, o.rate⟩

/-- The pace in terms of the rates that are aimed at. -/
def pace (o : Options) : Pace where
  interval := 10 ^ 9 / o.rate
  refreshEvery := o.refreshInterval
  batch := o.rate

/-- All options ask for a pace. -/
theorem pace?_eq (o : Options) : o.pace? = some o.pace := by
  rw [pace?, quotient?_of_pos _ o.rate_pos, Option.bind_eq_bind, Option.bind_some,
    quotient?_of_pos _ o.refreshRate_pos]
  rfl

/-! ## Counting the refreshes that are due -/

/-- How many of the `n` cycles from cycle `a` on the keys are refreshed before. -/
def duesIn (o : Options) (a n : Nat) : Nat :=
  (List.range' a n).countP o.refreshDue

/-- Counted from any cycle on, the cycles before which the keys are due have one residue. -/
theorem refreshDue_add_iff (o : Options) (a k : Nat) :
    o.refreshDue (a + k) = true ↔
      k ≡ o.refreshInterval - a % o.refreshInterval [MOD o.refreshInterval] := by
  generalize hE : o.refreshInterval = E
  have hdue : o.refreshDue (a + k) = true ↔ a + k ≡ 0 [MOD E] := by
    rw [refreshDue, hE, beq_iff_eq, Nat.modEq_zero_iff_dvd, Nat.dvd_iff_mod_eq_zero]
  -- the keys are due once more when the interval that `a` lies in is over
  have hnext : a + (E - a % E) ≡ 0 [MOD E] := by
    have hlt : a % E < E := Nat.mod_lt a (hE ▸ o.refreshInterval_pos)
    have heq : a + (E - a % E) = E * (a / E) + E := by
      have hdiv := Nat.div_add_mod a E
      omega
    rw [heq, Nat.modEq_zero_iff_dvd]
    exact ⟨a / E + 1, rfl⟩
  rw [hdue]
  constructor
  · exact fun h => Nat.ModEq.add_left_cancel' a (h.trans hnext.symm)
  · exact fun h => (h.add_left a).trans hnext

/-- Wherever the first cycle is, the keys are due once in an interval. -/
theorem duesIn_bounds (o : Options) (a n : Nat) :
    n / o.refreshInterval ≤ o.duesIn a n ∧ o.duesIn a n ≤ n / o.refreshInterval + 1 := by
  have hcount : o.duesIn a n =
      n.count (· ≡ o.refreshInterval - a % o.refreshInterval [MOD o.refreshInterval]) := by
    rw [duesIn, List.range'_eq_map_range, List.countP_map]
    refine List.countP_congr fun k _ => ?_
    rw [decide_eq_true_eq]
    exact o.refreshDue_add_iff a k
  rw [hcount, Nat.count_modEq_card n o.refreshInterval_pos]
  split <;> omega

/-- The number of intervals in a second, which is rounded down twice, is at least the wanted number
of refreshes, or that of all cycles if there are fewer, and below twice that number. -/
theorem intervals_bounds (o : Options) :
    min o.refreshRate o.rate ≤ o.rate / o.refreshInterval ∧
      o.rate / o.refreshInterval + 1 ≤ 2 * min o.refreshRate o.rate := by
  have hC := o.rate_pos
  have hH := o.refreshRate_pos
  have hinterval : o.refreshInterval = max (o.rate / o.refreshRate) 1 := rfl
  rw [hinterval]
  generalize o.refreshRate = H at *
  generalize o.rate = C at *
  rcases Nat.lt_or_ge C H with hlt | hge
  · have hmax : max (C / H) 1 = 1 := by rw [Nat.div_eq_of_lt hlt]; rfl
    rw [hmax, Nat.div_one, Nat.min_eq_right (Nat.le_of_lt hlt)]
    omega
  · have hE : 0 < C / H := Nat.div_pos hge hH
    have hmax : max (C / H) 1 = C / H := by omega
    have htwice : C < 2 * H * (C / H) := calc
      C < H * (C / H) + H := Nat.lt_mul_div_succ C hH
      _ ≤ H * (C / H) + H * (C / H) := Nat.add_le_add_left (Nat.le_mul_of_pos_right H hE) _
      _ = 2 * H * (C / H) := by ring
    rw [hmax, Nat.min_eq_left hge]
    exact ⟨(Nat.le_div_iff_mul_le hE).2 (Nat.mul_div_le C H), (Nat.div_lt_iff_lt_mul hE).2 htwice⟩

/-- In a second of cycles, the keys are due as often as wanted, and less than twice as often. -/
theorem duesIn_rate_bounds (o : Options) (a : Nat) :
    min o.refreshRate o.rate ≤ o.duesIn a o.rate ∧
      o.duesIn a o.rate ≤ 2 * min o.refreshRate o.rate := by
  obtain ⟨hlow, hhigh⟩ := o.intervals_bounds
  obtain ⟨hleast, hmost⟩ := o.duesIn_bounds a o.rate
  exact ⟨Nat.le_trans hlow hleast, Nat.le_trans hmost hhigh⟩

end Options

/-! ## A loop that keeps an account -/

/-- A loop together with an account of its cycles and refreshes. -/
structure PacedLoop where
  loop : Loop
  /-- The number of cycles executed so far, a faulting one included. -/
  executed : Nat
  /-- For every refresh of the keys, how many cycles had been executed by then. -/
  refreshed : List Nat

/-- The loop at the beginning of a run, which `Session.start` takes one step further
(`Session.start_eq_step`). -/
def Loop.begin (e : Engine) (snapshot : Snapshot) : Loop :=
  ⟨e, 0, snapshot, .refresh, []⟩

namespace PacedLoop

/-- Takes the loop from one point to the next. Before a cycle and after the last call that follows
it, the number of cycles is divided. -/
def step? (pace : Pace) (options : Options) (handle : Keypad) (randomByte : UInt8)
    (p : PacedLoop) : Option PacedLoop :=
  match p.loop.point with
  | .refresh =>
    (remainder? p.loop.cycles pace.refreshEvery).map fun past =>
      if past = 0 then
        { p with
          loop := p.loop.proceed (p.loop.engine.refresh handle) .cycle
          refreshed := p.refreshed ++ [p.executed] }
      else
        { p with loop := p.loop.proceed p.loop.engine.quiet .cycle }
  | .cycle =>
    some { p with loop := p.loop.step options handle randomByte, executed := p.executed + 1 }
  | .callSound _ =>
    (remainder? p.loop.cycles pace.batch).map fun _ =>
      { p with loop := p.loop.step options handle randomByte }
  | _ => some { p with loop := p.loop.step options handle randomByte }

/-- Works out the pace and takes one step after another from the beginning of a run. -/
def run? (options : Options) (inputs : List (Keypad × UInt8)) (e : Engine) (snapshot : Snapshot) :
    Option PacedLoop :=
  options.pace?.bind fun pace =>
    inputs.foldlM (fun p input => p.step? pace options input.1 input.2) ⟨.begin e snapshot, 0, []⟩

/-- How many refreshes were made before one of the `n` cycles from cycle `a` on. -/
def refreshesIn (p : PacedLoop) (a n : Nat) : Nat :=
  p.refreshed.countP fun k => a ≤ k ∧ k < a + n

end PacedLoop

/-! ## The refreshes of a run -/

namespace Point

/-- How many cycles the refreshes are ahead, at a point of a run in progress. -/
def lead : Point → Option Nat
  | .ended _ => none
  | .cycle => some 1
  | _ => some 0

/-- The number of refreshes, due or not, that the next step passes. -/
def passes : Point → Nat
  | .refresh => 1
  | _ => 0

/-- The number of cycles that the next step executes. -/
def executes : Point → Nat
  | .cycle => 1
  | _ => 0

end Point

namespace Loop

variable {options : Options}

/-- A call goes on to the next point or ends the run. -/
theorem lead_of_proceed {l : Loop} {called : Engine.Called} {next : Point} {lead : Nat}
    (h : (l.proceed called next).point.lead = some lead) : next.lead = some lead := by
  unfold proceed at h
  cases hc : called.crashed with
  | true => simp [hc, Point.lead] at h
  | false => simpa [hc] using h

/-- A step that does not end the run counts its cycle as completed, and the refreshes get ahead by
what it passes more than it executes. -/
theorem lead_step {l : Loop} {handle : Keypad} {randomByte : UInt8} {lead : Nat}
    (h : (l.step options handle randomByte).point.lead = some lead) :
    (l.step options handle randomByte).cycles = l.cycles + l.point.executes ∧
      ∃ before, l.point.lead = some before ∧
        before + l.point.passes = lead + l.point.executes := by
  unfold step at h ⊢
  cases hp : l.point with
  | refresh =>
    simp only [hp] at h ⊢
    obtain rfl : 1 = lead := Option.some.inj (lead_of_proceed h)
    exact ⟨rfl, 0, rfl, rfl⟩
  | cycle =>
    simp only [hp] at h ⊢
    cases hr : (l.engine.machine.cycle randomByte).result with
    | error fault => simp [hr, Point.lead] at h
    | ok outcome =>
      simp only [hr] at h ⊢
      obtain rfl : 0 = lead := Option.some.inj h
      exact ⟨rfl, 1, rfl, rfl⟩
  | publish outcome =>
    simp only [hp] at h ⊢
    obtain rfl : 0 = lead := Option.some.inj h
    exact ⟨rfl, 0, rfl, rfl⟩
  | callScreen outcome | callSound outcome =>
    simp only [hp] at h ⊢
    obtain rfl : 0 = lead := Option.some.inj (lead_of_proceed h)
    exact ⟨rfl, 0, rfl, rfl⟩
  | ended ending => simp [hp, Point.lead] at h

end Loop

namespace PacedLoop

variable {options : Options}

/-- The account of a loop that has passed the refreshes of `passed` cycles. -/
structure KeepsPace (options : Options) (passed : Nat) (p : PacedLoop) : Prop where
  /-- The keys were refreshed where they were due. -/
  refreshed_eq : p.refreshed = (List.range passed).filter options.refreshDue
  executed_le : p.executed ≤ passed
  /-- In progress, all cycles executed were completed, and the refreshes are ahead as they should
  be. -/
  of_lead : ∀ lead, p.loop.point.lead = some lead →
    p.executed = p.loop.cycles ∧ passed = p.executed + lead

theorem keepsPace_begin (options : Options) (e : Engine) (snapshot : Snapshot) :
    KeepsPace options 0 ⟨.begin e snapshot, 0, []⟩ where
  refreshed_eq := rfl
  executed_le := Nat.le_refl 0
  of_lead lead hlead := by
    obtain rfl : 0 = lead := Option.some.inj hlead
    exact ⟨rfl, rfl⟩

/-- A step gets through its divisions, and its refresh is made if it is due. -/
theorem KeepsPace.step?_eq {passed : Nat} {p : PacedLoop} (h : KeepsPace options passed p)
    (handle : Keypad) (randomByte : UInt8) :
    p.step? options.pace options handle randomByte =
      some ⟨p.loop.step options handle randomByte, p.executed + p.loop.point.executes,
        p.refreshed ++ (List.range' passed p.loop.point.passes).filter options.refreshDue⟩ := by
  cases hp : p.loop.point with
  | refresh =>
    obtain ⟨hcycles, rfl⟩ := h.of_lead 0 (by rw [hp]; rfl)
    have hone : (List.range' p.executed 1).filter options.refreshDue =
        if options.refreshDue p.loop.cycles then [p.executed] else [] := by
      rw [List.range'_one, List.filter_singleton, hcycles, Bool.cond_eq_ite]
    unfold step? Loop.step
    simp only [hp, Options.pace, remainder?_of_pos _ options.refreshInterval_pos, Option.map_some,
      Nat.add_zero, Point.passes, Point.executes, hone, Options.refreshDue, beq_iff_eq]
    split
    · rfl
    · rw [List.append_nil]
  | cycle | publish outcome | callScreen outcome | ended ending =>
    simp only [step?, hp, Point.passes, Point.executes, List.range'_zero, List.filter_nil,
      List.append_nil, Nat.add_zero]
  | callSound outcome =>
    simp only [step?, hp, Options.pace, remainder?_of_pos _ options.rate_pos, Option.map_some,
      Point.passes, Point.executes, List.range'_zero, List.filter_nil, List.append_nil,
      Nat.add_zero]

/-- A cycle is executed only after its refresh was passed. -/
theorem KeepsPace.executes_le {passed : Nat} {p : PacedLoop} (h : KeepsPace options passed p) :
    p.executed + p.loop.point.executes ≤ passed := by
  cases hp : p.loop.point with
  | cycle =>
    obtain ⟨-, hpassed⟩ := h.of_lead 1 (by rw [hp]; rfl)
    exact Nat.le_of_eq hpassed.symm
  | _ => exact h.executed_le

/-- **Every step** gets through its divisions and keeps the pace. -/
theorem KeepsPace.step {passed : Nat} {p : PacedLoop} (h : KeepsPace options passed p)
    (handle : Keypad) (randomByte : UInt8) :
    ∃ p' passed', p.step? options.pace options handle randomByte = some p' ∧
      p'.loop = p.loop.step options handle randomByte ∧ KeepsPace options passed' p' := by
  refine ⟨_, passed + p.loop.point.passes, h.step?_eq handle randomByte, rfl, ?_, ?_, ?_⟩
  · change p.refreshed ++ _ = _
    rw [h.refreshed_eq, ← List.filter_append, List.range_eq_range', List.range_eq_range',
      ← List.range'_append_1, Nat.zero_add]
  · exact Nat.le_trans h.executes_le (Nat.le_add_right _ _)
  · intro lead hlead
    obtain ⟨hcycles, before, hbefore, hahead⟩ := Loop.lead_step hlead
    obtain ⟨hexecuted, hpassed⟩ := h.of_lead before hbefore
    change p.executed + p.loop.point.executes = _ ∧ _ = p.executed + p.loop.point.executes + lead
    constructor
    · rw [hcycles, hexecuted]
    · omega

/-- **Any number of steps** get through their divisions and keep the pace. -/
theorem KeepsPace.run {passed : Nat} {p : PacedLoop} (h : KeepsPace options passed p)
    (inputs : List (Keypad × UInt8)) :
    ∃ p' passed', inputs.foldlM
        (fun p input => p.step? options.pace options input.1 input.2) p = some p' ∧
      p'.loop = p.loop.run options inputs ∧ KeepsPace options passed' p' := by
  induction inputs generalizing p passed with
  | nil => exact ⟨p, passed, rfl, rfl, h⟩
  | cons input rest ih =>
    obtain ⟨p₁, passed₁, hstep, hloop, h₁⟩ := h.step input.1 input.2
    obtain ⟨p₂, passed₂, hrun, hloop₂, h₂⟩ := ih h₁
    refine ⟨p₂, passed₂, ?_, ?_, h₂⟩
    · rw [List.foldlM_cons, hstep]
      exact hrun
    · rw [hloop₂, hloop]
      rfl

/-- The refreshes before cycles that were executed are those that were due. -/
theorem KeepsPace.refreshesIn_eq {passed : Nat} {p : PacedLoop} (h : KeepsPace options passed p)
    {a n : Nat} (hn : a + n ≤ p.executed) : p.refreshesIn a n = options.duesIn a n := by
  rw [refreshesIn, h.refreshed_eq, List.countP_filter]
  exact countP_range_window (Nat.le_trans hn h.executed_le) options.refreshDue

/-- What the account of a run shows. -/
structure MeetsRates (options : Options) (p : PacedLoop) : Prop where
  /-- The keys were refreshed before the very first cycle. -/
  first : 0 < p.executed → p.refreshed.head? = some 0
  /-- In every second of cycles, the keys were refreshed as often as wanted, or before every cycle,
  and at most twice as often. -/
  window : ∀ a, a + options.rate ≤ p.executed →
    min options.refreshRate options.rate ≤ p.refreshesIn a options.rate ∧
      p.refreshesIn a options.rate ≤ 2 * min options.refreshRate options.rate

theorem KeepsPace.meetsRates {passed : Nat} {p : PacedLoop} (h : KeepsPace options passed p) :
    MeetsRates options p where
  first hexecuted := by
    obtain ⟨later, rfl⟩ : ∃ later, passed = later + 1 :=
      Nat.exists_eq_succ_of_ne_zero (Nat.ne_of_gt (Nat.lt_of_lt_of_le hexecuted h.executed_le))
    rw [h.refreshed_eq, List.range_succ_eq_map, List.filter_cons_of_pos options.refreshDue_zero]
    rfl
  window a ha := by
    rw [h.refreshesIn_eq ha]
    exact options.duesIn_rate_bounds a

/-- **A run keeps its pace**, whatever rates are asked for: it gets through its divisions, does what
it would do without an account of it, and meets its rates all along. -/
theorem run_keeps_pace (options : Options) (e : Engine) (snapshot : Snapshot)
    (inputs : List (Keypad × UInt8)) :
    ∃ p, run? options inputs e snapshot = some p ∧
      p.loop = (Loop.begin e snapshot).run options inputs ∧ p.MeetsRates options := by
  obtain ⟨p, passed, hrun, hloop, h⟩ :=
    (keepsPace_begin options e snapshot).run inputs
  refine ⟨p, ?_, hloop, h.meetsRates⟩
  rw [run?, options.pace?_eq]
  exact hrun

/-- A program that jumps to itself, with two cycles and one refresh a second: in four cycles, the
keys are refreshed twice, and once in the second that begins with the second cycle. -/
theorem run_keeps_pace_jump :
    let options := { Options.standard with cyclesPerSecond := 2, refreshesPerSecond := 1 }
    let inputs := List.replicate 20 (Keypad.released, (0 : UInt8))
    let e := Engine.ofMachine (Session.loadedMachine [0x12, 0x00])
    ∃ p, run? options inputs e Snapshot.empty = some p ∧ p.executed = 4 ∧ p.refreshed = [0, 2] ∧
      1 ≤ p.refreshesIn 1 2 ∧ p.refreshesIn 1 2 ≤ 2 := by
  intro options inputs e
  obtain ⟨p, hrun, -, hrates⟩ := run_keeps_pace options e Snapshot.empty inputs
  have haccount : (run? options inputs e Snapshot.empty).map
      (fun p => (p.executed, p.refreshed)) = some (4, [0, 2]) := by
    decide +kernel
  rw [hrun] at haccount
  obtain ⟨hexecuted, hrefreshed⟩ := Prod.mk.inj (Option.some.inj haccount)
  exact ⟨p, hrun, hexecuted, hrefreshed, hrates.window 1 (by rw [hexecuted]; decide)⟩

end PacedLoop

end Chip8
