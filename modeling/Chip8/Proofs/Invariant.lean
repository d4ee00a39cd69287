import Chip8.Proofs.Bitmap.Binary
import Chip8.Proofs.Effect
import Chip8.Proofs.Reachable

/-!
# The invariant of reachable machines

What a reachable machine keeps to, whatever it was asked for: `Machine.Sound`. Its bounds feed one
another. Only an instruction fetched at an address up to `0xFFE` is carried out, so a call remembers
at most `0x1000`; a return goes back to that, a skip gets two bytes further than the next
instruction, and only a jump with an offset gets as far as `0x10FE`. A wait for a key keeps the
program counter where the waiting instruction was fetched.
-/

namespace Chip8

/-- The stack fits its slots, and every call in progress has an address behind a call to return
to. -/
structure CallStack.Sound (s : CallStack) : Prop where
  depth_le : s.depth.toNat ≤ 16
  slot_bounds : ∀ k < s.depth.toNat, 2 ≤ (s.slot k).toNat ∧ (s.slot k).toNat ≤ 0x1000

/-- The screen is 64 pixels wide and 32 high, each of them 0 or 1. -/
structure Bitmap.IsScreen (b : Bitmap) : Prop where
  width_eq : b.width = 64
  height_eq : b.height = 32
  size_eq : b.pixels.size = 2048
  binary : ∀ p ∈ b.pixels, p = 0 ∨ p = 1

/-- What every reachable machine keeps to. -/
structure Machine.Sound (m : Machine) : Prop where
  stack : m.stack.Sound
  pc_le : m.pc.toNat ≤ 0x10FE
  wait : ∀ x, m.awaiting = some x → x.val < 16 ∧ m.pc.toNat ≤ 0xFFE ∧ m.screenChanged = false
  screen : m.screen.IsScreen

/-! ## The stack -/

namespace CallStack

theorem sound_empty : empty.Sound where
  depth_le := Nat.zero_le _
  slot_bounds k hk := absurd hk (Nat.not_lt_zero k)

theorem isFull_iff {s : CallStack} : s.isFull = true ↔ 16 ≤ s.depth.toNat := by
  change decide (capacity ≤ s.depth.toNat) = true ↔ capacity ≤ s.depth.toNat
  exact decide_eq_true_iff

theorem isEmpty_iff {s : CallStack} : s.isEmpty = true ↔ s.depth.toNat = 0 := by
  simp only [isEmpty, beq_iff_eq, ← UInt8.toNat_inj, UInt8.toNat_zero]

theorem toNat_depth_push {s : CallStack} (h : s.depth.toNat < 16) (address : UInt16) :
    (s.push address).depth.toNat = s.depth.toNat + 1 := by
  have : (s.depth + 1).toNat = s.depth.toNat + 1 := by
    rw [UInt8.toNat_add, UInt8.toNat_one]
    omega
  exact this

theorem toNat_depth_pop {s : CallStack} (h : s.depth.toNat ≠ 0) :
    s.pop.depth.toNat = s.depth.toNat - 1 := by
  have : (s.depth - 1).toNat = s.depth.toNat - 1 :=
    UInt8.toNat_sub_of_le _ _ (UInt8.le_iff_toNat_le.2 (Nat.pos_of_ne_zero h))
  exact this

@[simp]
theorem slot_pop (s : CallStack) (k : Nat) : s.pop.slot k = s.slot k := rfl

/-- A call leaves the slots below its own alone. -/
theorem slot_push_of_lt {s : CallStack} {k : Nat} (h : k < s.depth.toNat) (address : UInt16) :
    (s.push address).slot k = s.slot k := by
  simp only [slot, push, Vector.getElem?_setIfInBounds_ne (Nat.ne_of_gt h)]

theorem slot_push_self {s : CallStack} (h : s.depth.toNat < 16) (address : UInt16) :
    (s.push address).slot s.depth.toNat = address := by
  simp only [slot, push, Vector.getElem?_setIfInBounds_self_of_lt h, Option.getD_some]

theorem Sound.push {s : CallStack} (hs : s.Sound) (h : s.depth.toNat < 16) {address : UInt16}
    (ha : 2 ≤ address.toNat ∧ address.toNat ≤ 0x1000) : (s.push address).Sound where
  depth_le := by
    rw [toNat_depth_push h]
    omega
  slot_bounds k hk := by
    rw [toNat_depth_push h] at hk
    by_cases he : k < s.depth.toNat
    · rw [slot_push_of_lt he]
      exact hs.slot_bounds k he
    · obtain rfl : k = s.depth.toNat := by omega
      rw [slot_push_self h]
      exact ha

theorem Sound.pop {s : CallStack} (hs : s.Sound) (h : s.depth.toNat ≠ 0) : s.pop.Sound where
  depth_le := by
    have := hs.depth_le
    rw [toNat_depth_pop h]
    omega
  slot_bounds k hk := by
    rw [toNat_depth_pop h] at hk
    exact hs.slot_bounds k (by omega)

theorem Sound.top_bounds {s : CallStack} (hs : s.Sound) (h : s.depth.toNat ≠ 0) :
    2 ≤ s.top.toNat ∧ s.top.toNat ≤ 0x1000 :=
  hs.slot_bounds _ (by omega)

end CallStack

/-! ## The screen -/

namespace Bitmap

theorem IsBinary.isScreen {b : Bitmap} (h : b.IsBinary) (hw : b.width = 64) (hh : b.height = 32) :
    b.IsScreen where
  width_eq := hw
  height_eq := hh
  size_eq := by rw [b.size_pixels, hw, hh]
  binary := h

theorem IsScreen.clear {b : Bitmap} (h : b.IsScreen) : b.clear.IsScreen :=
  (isBinary_clear b).isScreen h.width_eq h.height_eq

theorem IsScreen.composite {b : Bitmap} (h : b.IsScreen) (col row : Nat) (sprite : Bytes) :
    (b.composite col row sprite).1.IsScreen := by
  refine IsBinary.isScreen (IsBinary.composite h.binary col row sprite) ?_ ?_
  · rw [width_composite, h.width_eq]
  · rw [height_composite, h.height_eq]

end Bitmap

namespace Machine

/-! ## Carrying out an instruction -/

theorem depth_lt_of_refusal {m : Machine} {target : Address}
    (h : m.refusal (.call target) = none) : m.stack.depth.toNat < 16 := by
  by_cases hf : m.stack.isFull = true
  · simp [refusal, hf] at h
  · exact Nat.not_le.1 (fun hle => hf (CallStack.isFull_iff.2 hle))

theorem depth_ne_zero_of_refusal {m : Machine} (h : m.refusal .ret = none) :
    m.stack.depth.toNat ≠ 0 := by
  by_cases he : m.stack.isEmpty = true
  · simp [refusal, he] at h
  · exact fun hd => he (CallStack.isEmpty_iff.2 hd)

theorem Sound.stack_effect {m : Machine} (hs : m.Sound) {instruction : Instruction}
    (hp : m.pc.toNat ≤ 0xFFE) (hr : m.refusal instruction = none) (randomByte : UInt8) :
    (m.effect randomByte instruction).stack.Sound := by
  rw [Machine.stack_effect]
  cases instruction with
  | call target =>
    refine hs.stack.push (depth_lt_of_refusal hr) ?_
    rw [toNat_pc_add_two hp]
    omega
  | ret => exact hs.stack.pop (depth_ne_zero_of_refusal hr)
  | _ => exact hs.stack

theorem Sound.screen_effect {m : Machine} (hs : m.Sound) (randomByte : UInt8)
    (instruction : Instruction) : (m.effect randomByte instruction).screen.IsScreen := by
  rw [Machine.screen_effect]
  cases instruction with
  | clearScreen => exact hs.screen.clear
  | draw x y rows => exact hs.screen.composite _ _ _
  | _ => exact hs.screen

theorem toNat_target (target : Address) : (UInt16.ofNat target.val).toNat = target.val := by
  have : target.val < 4096 := target.isLt
  exact UInt16.toNat_ofNat_of_lt' (by simp only [UInt16.size]; omega)

/-- A jump with an offset never wraps around. -/
theorem toNat_target_add (target : Address) (offset : UInt8) :
    (UInt16.ofNat target.val + offset.toUInt16).toNat = target.val + offset.toNat := by
  have : target.val < 4096 := target.isLt
  have := offset.toNat_lt
  rw [UInt16.toNat_add, toNat_target, UInt8.toNat_toUInt16]
  omega

theorem Sound.successor_le {m : Machine} (hs : m.Sound) {instruction : Instruction}
    (hp : m.pc.toNat ≤ 0xFFE) (hr : m.refusal instruction = none) :
    (m.successor instruction).toNat ≤ 0x10FE := by
  have hnext : (m.pc + 2).toNat = m.pc.toNat + 2 := toNat_pc_add_two hp
  have hskip : (m.pc + 2 + 2).toNat ≤ m.pc.toNat + 4 := by
    rw [UInt16.toNat_add, hnext]
    exact Nat.mod_le _ _
  have hon : ∀ condition : Bool,
      (if condition = true then m.pc + 2 + 2 else m.pc + 2).toNat ≤ 0x10FE := by
    intro condition
    split
    · omega
    · omega
  cases instruction with
  | ret =>
    have := (hs.stack.top_bounds (depth_ne_zero_of_refusal hr)).2
    exact Nat.le_trans this (by decide)
  | jump target | call target =>
    have : target.val < 4096 := target.isLt
    simp only [successor, toNat_target]
    omega
  | jumpOffset target =>
    have : target.val < 4096 := target.isLt
    have := (m.register .offset).toNat_lt
    simp only [successor, toNat_target_add]
    omega
  | awaitKey x =>
    simp only [successor]
    split
    · omega
    · omega
  | _ => exact hon _

/-! ## Requests -/

/-- Completing a cycle leaves everything alone that the invariant speaks of, except for the note
that the screen was touched. -/
theorem sound_complete {m : Machine} {screenChanged : Bool} (stack : m.stack.Sound)
    (pc_le : m.pc.toNat ≤ 0x10FE)
    (wait : ∀ x, m.awaiting = some x → m.pc.toNat ≤ 0xFFE ∧ screenChanged = false)
    (screen : m.screen.IsScreen) (log : List LogEntry) :
    (m.complete screenChanged log).machine.Sound where
  stack := stack
  pc_le := pc_le
  wait x hx := ⟨x.isLt, wait x hx⟩
  screen := screen

theorem Sound.poll {m : Machine} (hs : m.Sound) {x : Register} (ha : m.awaiting = some x)
    (log : List LogEntry) : ((m.poll x).complete false log).machine.Sound := by
  obtain ⟨-, hp, -⟩ := hs.wait x ha
  refine sound_complete ?_ ?_ ?_ ?_ log
  · rw [stack_poll]
    exact hs.stack
  · rw [pc_poll]
    split
    · rw [toNat_pc_add_two hp]
      omega
    · exact hs.pc_le
  · intro y hy
    rw [awaiting_poll] at hy
    rw [pc_poll]
    split
    · rename_i hk
      rw [if_pos hk] at hy
      cases hy
    · exact ⟨hp, rfl⟩
  · rw [screen_poll]
    exact hs.screen

theorem Sound.effect {m : Machine} (hs : m.Sound) {instruction : Instruction}
    (ha : m.awaiting = none) (hp : m.pc.toNat ≤ 0xFFE) (hr : m.refusal instruction = none)
    (randomByte : UInt8) (log : List LogEntry) :
    ((m.effect randomByte instruction).complete instruction.changesScreen log).machine.Sound := by
  refine sound_complete (hs.stack_effect hp hr randomByte) ?_ ?_
    (hs.screen_effect randomByte instruction) log
  · rw [pc_effect]
    exact hs.successor_le hp hr
  · intro y hy
    rw [awaiting_effect] at hy
    cases instruction with
    | awaitKey x =>
      rw [pc_effect]
      simp only [successor]
      split
      · rename_i hk
        simp only [hk, if_true, reduceCtorEq] at hy
      · exact ⟨hp, rfl⟩
    | _ =>
      rw [ha] at hy
      cases hy

theorem Sound.cycle {m : Machine} (hs : m.Sound) (randomByte : UInt8) :
    (m.cycle randomByte).machine.Sound := by
  rcases cycle_cases randomByte m with ⟨x, ha, hc⟩ | ⟨fault, -, -, hc⟩ |
    ⟨word, instruction, fault, -, -, -, hc⟩ | ⟨word, instruction, ha, hf, hr, hc⟩
  · rw [hc]
    exact hs.poll ha _
  · rw [hc]
    exact hs
  · rw [hc]
    exact hs
  · rw [hc]
    exact hs.effect ha (pc_le_of_fetch hf) hr randomByte _

theorem Sound.load {m : Machine} (hs : m.Sound) (program : Bytes) :
    (m.load program).machine.Sound := by
  unfold Machine.load
  split
  · exact hs
  · split
    · exact hs
    · exact ⟨hs.stack, hs.pc_le, hs.wait, hs.screen⟩

theorem sound_of_powerOn {m : Machine} (hs : m.stack = CallStack.empty)
    (hp : m.pc = UInt16.ofNat Memory.programStart) (ha : m.awaiting = none)
    (hb : m.screen.IsScreen) : m.Sound where
  stack := by
    rw [hs]
    exact CallStack.sound_empty
  pc_le := by
    rw [hp]
    decide
  wait x hx := by
    rw [ha] at hx
    cases hx
  screen := hb

theorem sound_new : new.Sound :=
  sound_of_powerOn rfl rfl rfl ((Bitmap.isBinary_blank 64 32).isScreen rfl rfl)

theorem Sound.reset {m : Machine} (hs : m.Sound) : m.reset.Sound :=
  sound_of_powerOn rfl rfl rfl hs.screen.clear

/-- **Every reachable machine is sound.** -/
theorem Reachable.sound {m : Machine} (h : m.Reachable) : m.Sound := by
  induction h with
  | powerOn => exact sound_new
  | perform h request ih =>
    cases request with
    | restart => exact ih.reset
    | load program => exact ih.load program
    | setKeys keys => exact ⟨ih.stack, ih.pc_le, ih.wait, ih.screen⟩
    | cycle randomByte => exact ih.cycle randomByte

end Machine

end Chip8
