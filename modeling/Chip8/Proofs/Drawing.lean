import Chip8.Proofs.Run

/-!
# What is on the screen

A pixel of the screen is lit if and only if it was drawn over an odd number of times since the
screen was last wiped, by a restart or by an instruction (`screen_shows_parity`). What a sprite
covers is told by the coordinates in the registers and the bits in memory just before it is drawn
(`Covers`), without the list of cells that drawing goes through. Nothing but wiping and drawing
touches the screen.
-/

namespace Chip8.Machine

/-! ## Wiping and drawing -/

/-- The pixel at column `c` and row `r` is covered by the sprite of `rows` bytes at the index, drawn
at the coordinates in registers `x` and `y`. -/
def Covers (m : Machine) (x y : Register) (rows : Fin 16) (c r : Nat) : Prop :=
  (m.register x).toNat ≤ c ∧ c < (m.register x).toNat + 8 ∧
    (m.register y).toNat ≤ r ∧ r < (m.register y).toNat + rows.val ∧
    (m.memory.read (m.index.toNat + (r - (m.register y).toNat))).toNat.testBit
      (7 - (c - (m.register x).toNat)) = true

instance (m : Machine) (x y : Register) (rows : Fin 16) (c r : Nat) :
    Decidable (m.Covers x y rows c r) :=
  inferInstanceAs (Decidable (_ ∧ _))

/-- A pixel that the sprite covers is lit. -/
def Collides (m : Machine) (x y : Register) (rows : Fin 16) : Prop :=
  ∃ c < 64, ∃ r < 32, m.Covers x y rows c r ∧ m.screen.isLit c r = true

/-- Whether a request that carries out an instruction wipes the screen. -/
def wipes : Option Request → Option Instruction → Bool
  | some .restart, _ => true
  | _, some .clearScreen => true
  | _, _ => false

/-- Whether an instruction that is carried out draws over the pixel at column `c` and row `r`. -/
def paints (m : Machine) (c r : Nat) : Option Instruction → Bool
  | some (.draw x y rows) => decide (m.Covers x y rows c r)
  | _ => false

/-- Whether request number `k` of a run wipes the screen. -/
def wipesAt (m : Machine) (requests : List Request) (k : Nat) : Bool :=
  wipes requests[k]? (m.completed? requests k)

/-- Whether request number `k` of a run draws over the pixel at column `c` and row `r`. -/
def paintsAt (m : Machine) (requests : List Request) (c r k : Nat) : Bool :=
  (m.before requests k).paints c r (m.completed? requests k)

/-- How many of the first `k` requests of a run draw over the pixel at column `c` and row `r` and
are not followed by one that wipes the screen. -/
def coverings (m : Machine) (requests : List Request) (c r k : Nat) : Nat :=
  (List.range k).countP fun j =>
    m.paintsAt requests c r j && decide (∀ i < k, j < i → m.wipesAt requests i = false)

/-! ## One step -/

theorem covers_slice (m : Machine) (x y : Register) (rows : Fin 16) (c r : Nat) :
    Sprite.covers (m.register x).toNat (m.register y).toNat
        (m.memory.slice m.index.toNat rows.val) c r = true ↔
      m.Covers x y rows c r := by
  have hget : ∀ k < rows.val, (m.memory.slice m.index.toNat rows.val).getD k 0 =
      m.memory.read (m.index.toNat + k) := by
    intro k hk
    have hlen : k < (m.memory.slice m.index.toNat rows.val).length := by
      rw [Memory.length_slice]
      exact hk
    rw [List.getD_eq_getElem?_getD, List.getElem?_eq_getElem hlen, Option.getD_some,
      Memory.getElem_slice]
  simp only [Sprite.covers, Covers, Bool.and_eq_true, decide_eq_true_eq, Memory.length_slice]
  constructor
  · rintro ⟨⟨hleft, hright, htop, hbottom⟩, hbit⟩
    rw [hget _ (by omega)] at hbit
    exact ⟨hleft, hright, htop, hbottom, hbit⟩
  · rintro ⟨hleft, hright, htop, hbottom, hbit⟩
    rw [hget _ (by omega)]
    exact ⟨⟨hleft, hright, htop, hbottom⟩, hbit⟩

/-- **One step on one pixel**: wiping turns it dark, drawing over it inverts it. -/
theorem Step.isLit {m m' : Machine} {request : Request} {outcome : Option Outcome}
    {completed : Option Instruction} (h : m.Step request outcome completed m') {c r : Nat}
    (hc : c < m.screen.width) (hr : r < m.screen.height) :
    m'.screen.isLit c r =
      if wipes (some request) completed then false
      else (m.screen.isLit c r ^^ m.paints c r completed) := by
  cases h with
  | restart => exact Bitmap.isLit_clear _ c r
  | load program =>
    rw [load_eq]
    exact (Bool.xor_false _).symm
  | setKeys keys => exact (Bool.xor_false _).symm
  | fail randomByte hf => exact (Bool.xor_false _).symm
  | @poll randomByte x ha =>
    refine Eq.trans ?_ (Bool.xor_false _).symm
    exact congrArg (Bitmap.isLit · c r) (screen_poll m x)
  | @carryOut randomByte instruction hi hrefusal =>
    have hscreen := congrArg (Bitmap.isLit · c r) (screen_effect randomByte m instruction)
    refine hscreen.trans ?_
    cases instruction with
    | clearScreen => exact Bitmap.isLit_clear _ c r
    | draw x y rows =>
      change (m.screen.composite _ _ _).1.isLit c r =
        (m.screen.isLit c r ^^ decide (m.Covers x y rows c r))
      rw [Bitmap.isLit_composite]
      by_cases hcovers : m.Covers x y rows c r
      · have hsprite := (covers_slice m x y rows c r).2 hcovers
        rw [if_pos ⟨hsprite, hc, hr⟩, decide_eq_true hcovers, Bool.xor_true]
      · have hsprite : ¬_ := fun h => hcovers ((covers_slice m x y rows c r).1 h)
        rw [if_neg (fun e => hsprite e.1), decide_eq_false hcovers, Bool.xor_false]
    | _ => exact (Bool.xor_false _).symm

/-- Whatever neither restarts nor wipes nor draws leaves the screen alone. -/
theorem Step.screen_eq {m m' : Machine} {request : Request} {outcome : Option Outcome}
    {completed : Option Instruction} (h : m.Step request outcome completed m')
    (hrestart : request ≠ .restart) (hclear : completed ≠ some .clearScreen)
    (hdraw : ∀ x y rows, completed ≠ some (.draw x y rows)) : m'.screen = m.screen := by
  cases h with
  | restart => exact absurd rfl hrestart
  | load program => rw [load_eq]
  | setKeys keys => rfl
  | fail randomByte hf => rfl
  | @poll randomByte x ha => exact screen_poll m x
  | @carryOut randomByte instruction hi hrefusal =>
    refine (screen_effect randomByte m instruction).trans ?_
    cases instruction with
    | clearScreen => exact absurd rfl hclear
    | draw x y rows => exact absurd rfl (hdraw x y rows)
    | _ => rfl

/-- A completed cycle reports whether it wiped the screen or drew. -/
theorem Step.screenChanged_iff {m m' : Machine} {request : Request} {outcome : Outcome}
    {completed : Option Instruction} (h : m.Step request (some outcome) completed m') :
    outcome.screenChanged = true ↔
      completed = some .clearScreen ∨ ∃ x y rows, completed = some (.draw x y rows) := by
  cases h with
  | poll => simp
  | @carryOut randomByte instruction hi hrefusal =>
    cases instruction with
    | _ => simp [Instruction.changesScreen]

/-- The flag after a drawing says whether the sprite covered a lit pixel. -/
theorem flag_drawSprite {m : Machine} (hs : m.screen.IsScreen) (x y : Register) (rows : Fin 16) :
    (m.Collides x y rows → (m.drawSprite x y rows).register .flag = 1) ∧
      (¬m.Collides x y rows → (m.drawSprite x y rows).register .flag = 0) := by
  have hflag : (m.drawSprite x y rows).register .flag =
      (m.screen.composite (m.register x).toNat (m.register y).toNat
        (m.memory.slice m.index.toNat rows.val)).2.toUInt8 :=
    (register_setRegister _ _ _ _).trans (if_pos rfl)
  have hcollision : (m.screen.composite (m.register x).toNat (m.register y).toNat
      (m.memory.slice m.index.toNat rows.val)).2 = true ↔ m.Collides x y rows := by
    rw [Bitmap.snd_composite]
    simp only [covers_slice]
    constructor
    · rintro ⟨c, r, hcovers, hlit⟩
      obtain ⟨hc, hr⟩ := Bitmap.lt_of_isLit hlit
      rw [hs.width_eq] at hc
      rw [hs.height_eq] at hr
      exact ⟨c, hc, r, hr, hcovers, hlit⟩
    · rintro ⟨c, -, r, -, hcovers, hlit⟩
      exact ⟨c, r, hcovers, hlit⟩
  rw [hflag]
  constructor
  · intro h
    rw [hcollision.2 h]
    rfl
  · intro h
    rw [Bool.eq_false_iff.2 fun e => h (hcollision.1 e)]
    rfl

theorem Step.flag_eq {m m' : Machine} {request : Request} {outcome : Option Outcome}
    {x y : Register} {rows : Fin 16} (h : m.Step request outcome (some (.draw x y rows)) m') :
    m'.register .flag = (m.drawSprite x y rows).register .flag := by
  cases h with
  | carryOut => rfl

/-! ## Runs -/

section Runs

variable {m : Machine} {requests : List Request} {k : Nat}

/-- Wiping is not drawing. -/
theorem paintsAt_eq_false_of_wipesAt {c r : Nat} (h : m.wipesAt requests k = true) :
    m.paintsAt requests c r k = false := by
  unfold paintsAt
  cases hc : m.completed? requests k with
  | none => rfl
  | some instruction =>
    obtain ⟨⟨randomByte, hk⟩, -⟩ := completed?_eq_some_iff.1 hc
    rw [wipesAt, hk, hc] at h
    cases instruction with
    | draw x y rows => cases h
    | _ => rfl

theorem coverings_succ (c r : Nat) :
    m.coverings requests c r (k + 1) =
      if m.wipesAt requests k then 0
      else m.coverings requests c r k + (m.paintsAt requests c r k).toNat := by
  unfold coverings
  cases hw : m.wipesAt requests k with
  | true =>
    rw [if_pos rfl, List.countP_eq_zero]
    intro j hj hcounts
    rw [Bool.and_eq_true, decide_eq_true_eq] at hcounts
    obtain ⟨hpaints, hafter⟩ := hcounts
    -- the wipe comes after every earlier drawing, and is none itself
    rcases Nat.lt_or_ge j k with hlt | hge
    · rw [hafter k (Nat.lt_succ_self k) hlt] at hw
      cases hw
    · obtain rfl : j = k := by
        have := List.mem_range.1 hj
        omega
      rw [paintsAt_eq_false_of_wipesAt hw] at hpaints
      cases hpaints
  | false =>
    have hbefore : ∀ j < k, (∀ i < k + 1, j < i → m.wipesAt requests i = false) ↔
        ∀ i < k, j < i → m.wipesAt requests i = false := by
      intro j hj
      constructor
      · exact fun h i hi => h i (Nat.lt_succ_of_lt hi)
      · intro h i hi hji
        rcases Nat.lt_succ_iff_lt_or_eq.1 hi with hlt | rfl
        · exact h i hlt hji
        · exact hw
    have hlater : decide (∀ i < k + 1, k < i → m.wipesAt requests i = false) = true :=
      decide_eq_true fun i hi hki => by omega
    rw [List.range_succ, List.countP_append, List.countP_singleton, hlater, Bool.and_true,
      if_neg Bool.false_ne_true]
    congr 1
    · refine List.countP_congr fun j hj => ?_
      rw [Bool.and_eq_true, Bool.and_eq_true, decide_eq_true_eq, decide_eq_true_eq,
        hbefore j (List.mem_range.1 hj)]
    · cases m.paintsAt requests c r k <;> rfl

/-- What a request does to a pixel. -/
theorem isLit_before_succ (hm : m.Reachable) {c r : Nat} (hc : c < 64) (hr : r < 32) :
    (m.before requests (k + 1)).screen.isLit c r =
      if m.wipesAt requests k then false
      else ((m.before requests k).screen.isLit c r ^^ m.paintsAt requests c r k) := by
  have hs : (m.before requests k).screen.IsScreen :=
    (reachable_performAll hm (requests.take k)).sound.screen
  cases hk : requests[k]? with
  | none =>
    obtain ⟨hbefore, -, hcompleted⟩ := before_succ_of_none (m := m) hk
    rw [wipesAt, paintsAt, hbefore, hk, hcompleted]
    exact (Bool.xor_false _).symm
  | some request =>
    have hstep := (step_before (m := m) hk).isLit (hs.width_eq ▸ hc) (hs.height_eq ▸ hr)
    rw [wipesAt, paintsAt, hk]
    exact hstep

theorem isLit_before (hm : m.Reachable) (hdark : ∀ c r, m.screen.isLit c r = false) {c r : Nat}
    (hc : c < 64) (hr : r < 32) (k : Nat) :
    (m.before requests k).screen.isLit c r = decide (m.coverings requests c r k % 2 = 1) := by
  induction k with
  | zero => exact hdark c r
  | succ k ih =>
    rw [isLit_before_succ hm hc hr, coverings_succ, ih]
    cases m.wipesAt requests k with
    | true => rfl
    | false =>
      cases m.paintsAt requests c r k with
      | false => exact Bool.xor_false _
      | true =>
        rw [if_neg Bool.false_ne_true, if_neg Bool.false_ne_true, Bool.xor_true,
          ← decide_not]
        refine decide_eq_decide.2 ?_
        change _ ↔ (_ + 1) % 2 = 1
        omega

end Runs

/-- **The screen shows the parity of what was drawn.** At every point of a run from a new machine a
pixel is lit if and only if it was drawn over an odd number of times since the screen was last
wiped. A drawing sets the flag if its sprite covers a lit pixel and clears it otherwise. Completed
cycles report a change of the screen if they wipe or draw, and apart from these and restarts nothing
touches it. -/
theorem screen_shows_parity (requests : List Request) (k : Nat) :
    (∀ c < 64, ∀ r < 32, (new.before requests k).screen.isLit c r = true ↔
        new.coverings requests c r k % 2 = 1) ∧
      (∀ x y rows, new.completed? requests k = some (.draw x y rows) →
        ((new.before requests k).Collides x y rows →
          (new.before requests (k + 1)).register .flag = 1) ∧
        (¬(new.before requests k).Collides x y rows →
          (new.before requests (k + 1)).register .flag = 0)) ∧
      (∀ outcome, new.outcome? requests k = some outcome →
        (outcome.screenChanged = true ↔
          new.completed? requests k = some .clearScreen ∨
            ∃ x y rows, new.completed? requests k = some (.draw x y rows))) ∧
      (requests[k]? ≠ some .restart → new.completed? requests k ≠ some .clearScreen →
        (∀ x y rows, new.completed? requests k ≠ some (.draw x y rows)) →
          (new.before requests (k + 1)).screen = (new.before requests k).screen) := by
  have hs : (new.before requests k).screen.IsScreen :=
    (reachable_performAll .powerOn (requests.take k)).sound.screen
  have hparity : ∀ c < 64, ∀ r < 32, (new.before requests k).screen.isLit c r = true ↔
      new.coverings requests c r k % 2 = 1 := by
    intro c hc r hr
    rw [isLit_before (m := new) .powerOn (Bitmap.isLit_blank _ _) hc hr k, decide_eq_true_eq]
  cases hk : requests[k]? with
  | none =>
    obtain ⟨hbefore, houtcome, hcompleted⟩ := before_succ_of_none (m := new) hk
    rw [hbefore, houtcome, hcompleted]
    exact ⟨hparity, nofun, nofun, fun _ _ _ => rfl⟩
  | some request =>
    have hstep := step_before (m := new) hk
    refine ⟨hparity, fun x y rows hdraw => ?_, fun outcome ho => ?_, fun hr => ?_⟩
    · rw [hdraw] at hstep
      rw [hstep.flag_eq]
      exact flag_drawSprite hs x y rows
    · rw [ho] at hstep
      exact hstep.screenChanged_iff
    · exact hstep.screen_eq fun e => hr (congrArg some e)

/-- A run that draws the glyph of zero twice in the top left corner. -/
def drawnTwiceRun : List Request :=
  [.load [0xA0, 0x50, 0xD0, 0x05, 0xD0, 0x05], .cycle 0, .cycle 0, .cycle 0]

/-- The corner is lit when it has been drawn over once, and drawing over it again sets the flag. The
cycle before, which sets the index, leaves the screen alone. -/
theorem screen_shows_parity_drawn_twice :
    new.coverings drawnTwiceRun 0 0 3 % 2 = 1 ∧
      (new.before drawnTwiceRun (3 + 1)).register .flag = 1 ∧
      (∃ outcome, new.outcome? drawnTwiceRun 3 = some outcome ∧ outcome.screenChanged = true) ∧
      (new.before drawnTwiceRun (1 + 1)).screen = (new.before drawnTwiceRun 1).screen := by
  have hrun : ((new.before drawnTwiceRun 1).fault? = none ∧
        (new.before drawnTwiceRun 1).instruction? =
          some (.setIndex (Instruction.operandAddress 0xA050))) ∧
      (new.before drawnTwiceRun 3).fault? = none ∧
        (new.before drawnTwiceRun 3).instruction? = some (.draw 0 0 5) ∧
        (new.before drawnTwiceRun 3).screen.isLit 0 0 = true ∧
        (new.before drawnTwiceRun 3).Covers 0 0 5 0 0 := by
    simp only [before, performAll_eq_advanceAll]
    decide +kernel
  obtain ⟨⟨hfault, hinstruction⟩, hfault', hinstruction', hlit, hcovers⟩ := hrun
  have hset := completed?_eq_some_iff.2 ⟨⟨0, rfl⟩, hfault, hinstruction⟩
  have hdraw := completed?_eq_some_iff.2 ⟨⟨0, rfl⟩, hfault', hinstruction'⟩
  obtain ⟨outcome, ho⟩ := outcome?_of_no_fault rfl hfault'
  obtain ⟨-, -, -, hkept⟩ := screen_shows_parity drawnTwiceRun 1
  obtain ⟨hparity, hflag, hchanged, -⟩ := screen_shows_parity drawnTwiceRun 3
  refine ⟨(hparity 0 (by decide) 0 (by decide)).1 hlit, ?_, ⟨outcome, ho, ?_⟩, ?_⟩
  · exact (hflag 0 0 5 hdraw).1 ⟨0, by decide, 0, by decide, hcovers, hlit⟩
  · exact (hchanged outcome ho).2 (.inr ⟨0, 0, 5, hdraw⟩)
  · refine hkept (fun e => ?_) (fun e => ?_) fun x y rows e => ?_
    · cases e
    · rw [hset] at e
      cases e
    · rw [hset] at e
      cases e

end Chip8.Machine
