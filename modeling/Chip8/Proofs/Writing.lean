import Chip8.Proofs.Run

/-!
# What is in memory

Every address holds the byte last written to it since the last restart, or what the font has there
(`memory_holds_last_written`). `Writes` lists the writers: a program that is loaded, and the two
instructions that store digits and registers. Since words are fetched from this memory, whatever was
written over a program is what is executed.
-/

namespace Chip8.Machine

/-! ## Writers -/

/-- The three bytes are the decimal digits of `value`. -/
def IsDecimal (d₂ d₁ d₀ value : UInt8) : Prop :=
  d₂ ≤ 9 ∧ d₁ ≤ 9 ∧ d₀ ≤ 9 ∧ 100 * d₂.toNat + 10 * d₁.toNat + d₀.toNat = value.toNat

/-- A request that carries out an instruction, if any, writes a byte to an address. -/
inductive Writes (m : Machine) : Request → Option Instruction → Nat → UInt8 → Prop
  /-- A program that is not too large is copied. -/
  | load {program : Bytes} {completed : Option Instruction} {i : Nat} {b : UInt8}
    (hsize : program.length ≤ 3583) (hb : program[i]? = some b) :
    Writes m (.load program) completed (0x200 + i) b
  /-- The digits of a register are stored at the index. -/
  | decimal {request : Request} {x : Register} {d₂ d₁ d₀ : UInt8} {i : Nat} {b : UInt8}
    (hd : IsDecimal d₂ d₁ d₀ (m.register x)) (hb : [d₂, d₁, d₀][i]? = some b) :
    Writes m request (some (.decimal x)) (m.index.toNat + i) b
  /-- The registers up to one are stored at the index. -/
  | save {request : Request} {x k : Register} (hk : k ≤ x) :
    Writes m request (some (.saveRegisters x)) (m.index.toNat + k.val) (m.register k)

/-- Request number `k` of a run writes the byte `b` to address `a`. -/
def WritesAt (m : Machine) (requests : List Request) (k a : Nat) (b : UInt8) : Prop :=
  ∃ request, requests[k]? = some request ∧
    (m.before requests k).Writes request (m.completed? requests k) a b

/-- The byte `b` is the last one that the first `k` requests of a run write to address `a`, and
there is no restart after that. -/
def LastWritten (m : Machine) (requests : List Request) (k a : Nat) (b : UInt8) : Prop :=
  ∃ j < k, m.WritesAt requests j a b ∧
    ∀ i < k, j < i → requests[i]? ≠ some .restart ∧ ∀ b', ¬m.WritesAt requests i a b'

/-! ## What is stored -/

theorem isDecimal_decimalDigits (value : UInt8) :
    IsDecimal (value / 100) (value / 10 % 10) (value % 10) value := by
  have hlt := value.toNat_lt
  have h₂ : (value / 100).toNat = value.toNat / 100 := UInt8.toNat_div value 100
  have h₁ : (value / 10 % 10).toNat = value.toNat / 10 % 10 := UInt8.toNat_mod (value / 10) 10
  have h₀ : (value % 10).toNat = value.toNat % 10 := UInt8.toNat_mod value 10
  simp only [IsDecimal, UInt8.le_iff_toNat_le, h₂, h₁, h₀, UInt8.reduceToNat]
  omega

/-- A byte has only one row of digits. -/
theorem IsDecimal.decimalDigits_eq {d₂ d₁ d₀ value : UInt8} (h : IsDecimal d₂ d₁ d₀ value) :
    decimalDigits value = [d₂, d₁, d₀] := by
  obtain ⟨h₂, h₁, h₀, hsum⟩ := h
  obtain ⟨h₂', h₁', h₀', hsum'⟩ := isDecimal_decimalDigits value
  simp only [UInt8.le_iff_toNat_le, UInt8.reduceToNat] at h₂ h₁ h₀ h₂' h₁' h₀'
  have e₂ : value / 100 = d₂ := UInt8.toNat_inj.1 (by omega)
  have e₁ : value / 10 % 10 = d₁ := UInt8.toNat_inj.1 (by omega)
  have e₀ : value % 10 = d₀ := UInt8.toNat_inj.1 (by omega)
  rw [decimalDigits, e₂, e₁, e₀]

theorem getElem?_take_registers {m : Machine} {x : Register} {i : Nat} {b : UInt8} :
    (m.registers.toList.take (x.val + 1))[i]? = some b ↔
      ∃ k : Register, k ≤ x ∧ k.val = i ∧ m.register k = b := by
  rw [List.getElem?_take]
  split
  · rename_i hi
    have hlt : i < 16 := by omega
    rw [Vector.getElem?_toList, Vector.getElem?_eq_getElem hlt, Option.some.injEq]
    constructor
    · intro h
      exact ⟨⟨i, hlt⟩, Fin.le_def.2 (Nat.le_of_lt_succ hi), rfl, h⟩
    · rintro ⟨k, -, rfl, h⟩
      exact h
  · rename_i hi
    constructor
    · intro h
      cases h
    · rintro ⟨k, hk, rfl, -⟩
      exact absurd (Nat.lt_succ_of_le hk) hi

/-- A program of a size that is accepted is copied; any other one changes nothing. -/
theorem load_cases (program : Bytes) (m : Machine) :
    (program.length = 0 ∧ m.load program = ⟨m, .error .emptyProgram, []⟩) ∨
      (3583 < program.length ∧
        m.load program = ⟨m, .error (.programTooLarge program.length), []⟩) ∨
      (1 ≤ program.length ∧ program.length ≤ 3583 ∧
        (m.load program).result = .ok program.length ∧
        (m.load program).machine = { m with memory := m.memory.store 0x200 program }) := by
  have hlimit : Memory.programLimit = 3583 := rfl
  unfold load
  split
  · rename_i hempty
    exact .inl ⟨List.length_eq_zero_iff.2 (List.isEmpty_iff.1 hempty), rfl⟩
  · rename_i hempty
    have hpos : program.length ≠ 0 := fun e =>
      hempty (List.isEmpty_iff.2 (List.length_eq_zero_iff.1 e))
    split
    · rename_i hlarge
      exact .inr (.inl ⟨hlarge, rfl⟩)
    · rename_i hfits
      exact .inr (.inr ⟨Nat.pos_of_ne_zero hpos, Nat.not_lt.1 hfits, rfl, rfl⟩)

/-! ## One step -/

/-- **What is written is read back.** -/
theorem Step.read_of_writes {m m' : Machine} {request : Request} {outcome : Option Outcome}
    {completed : Option Instruction} (h : m.Step request outcome completed m') {a : Nat}
    (ha : a < 4096) {b : UInt8} (hw : m.Writes request completed a b) :
    m'.memory.read a = b := by
  cases hw with
  | @load program _ i _ hsize hb =>
    cases h with
    | load =>
      obtain ⟨hlt, -⟩ := List.getElem?_eq_some_iff.1 hb
      rcases load_cases program m with ⟨hnil, -⟩ | ⟨hlarge, -⟩ | ⟨-, -, -, hload⟩
      · omega
      · omega
      · rw [hload]
        exact Memory.read_store_of_getElem? m.memory hb ha
  | @decimal _ x _ _ _ i _ hd hb =>
    cases h with
    | carryOut randomByte hi hr =>
      have hmemory := memory_effect randomByte m (.decimal x)
      refine (congrArg (Memory.read · _) hmemory).trans ?_
      dsimp only
      rw [hd.decimalDigits_eq]
      exact Memory.read_store_of_getElem? m.memory hb ha
  | @save _ x k hk =>
    cases h with
    | carryOut randomByte hi hr =>
      have hmemory := memory_effect randomByte m (.saveRegisters x)
      refine (congrArg (Memory.read · _) hmemory).trans ?_
      exact Memory.read_store_of_getElem? m.memory
        (getElem?_take_registers.2 ⟨k, hk, rfl, rfl⟩) ha

/-- **Nothing else is written.** -/
theorem Step.read_of_not_writes {m m' : Machine} {request : Request} {outcome : Option Outcome}
    {completed : Option Instruction} (h : m.Step request outcome completed m')
    (hrestart : request ≠ .restart) {a : Nat} (ha : a < 4096)
    (hw : ∀ b, ¬m.Writes request completed a b) : m'.memory.read a = m.memory.read a := by
  cases h with
  | restart => exact absurd rfl hrestart
  | load program =>
    rcases load_cases program m with ⟨-, hload⟩ | ⟨-, hload⟩ | ⟨-, hsize, -, hload⟩
    · rw [hload]
    · rw [hload]
    · rw [hload]
      refine Memory.read_store_of_ne m.memory ha fun i b hb hi => ?_
      subst hi
      exact hw b (.load hsize hb)
  | setKeys keys => rfl
  | fail randomByte hf => rfl
  | @poll randomByte x hx => exact congrArg (Memory.read · a) (memory_poll m x)
  | @carryOut randomByte instruction hi hr =>
    have hmemory := memory_effect randomByte m instruction
    refine (congrArg (Memory.read · a) hmemory).trans ?_
    cases instruction with
    | decimal x =>
      refine Memory.read_store_of_ne m.memory ha fun i b hb hi => ?_
      subst hi
      exact hw b (.decimal (isDecimal_decimalDigits (m.register x)) hb)
    | saveRegisters x =>
      refine Memory.read_store_of_ne m.memory ha fun i b hb hi => ?_
      obtain ⟨k, hk, rfl, rfl⟩ := getElem?_take_registers.1 hb
      subst hi
      exact hw _ (.save hk)
    | _ => rfl

/-! ## Runs -/

theorem writesAt_decimal {m : Machine} {requests : List Request} {k : Nat} {x : Register}
    (h : m.completed? requests k = some (.decimal x)) :
    ∃ d₂ d₁ d₀, IsDecimal d₂ d₁ d₀ ((m.before requests k).register x) ∧
      m.WritesAt requests k (m.before requests k).index.toNat d₂ ∧
      m.WritesAt requests k ((m.before requests k).index.toNat + 1) d₁ ∧
      m.WritesAt requests k ((m.before requests k).index.toNat + 2) d₀ := by
  obtain ⟨⟨randomByte, hk⟩, -⟩ := completed?_eq_some_iff.1 h
  have hd := isDecimal_decimalDigits ((m.before requests k).register x)
  have hwrites : ∀ i b, (decimalDigits ((m.before requests k).register x))[i]? = some b →
      m.WritesAt requests k ((m.before requests k).index.toNat + i) b := by
    intro i b hb
    refine ⟨_, hk, ?_⟩
    rw [h]
    exact .decimal hd hb
  exact ⟨_, _, _, hd, hwrites 0 _ rfl, hwrites 1 _ rfl, hwrites 2 _ rfl⟩

theorem writesAt_saveRegisters {m : Machine} {requests : List Request} {k : Nat} {x : Register}
    (h : m.completed? requests k = some (.saveRegisters x)) {i : Register} (hi : i ≤ x) :
    m.WritesAt requests k ((m.before requests k).index.toNat + i.val)
      ((m.before requests k).register i) := by
  obtain ⟨⟨randomByte, hk⟩, -⟩ := completed?_eq_some_iff.1 h
  refine ⟨_, hk, ?_⟩
  rw [h]
  exact .save hi

theorem lastWritten_of_writesAt {m : Machine} {requests : List Request} {k a : Nat} {b : UInt8}
    (hw : m.WritesAt requests k a b) : m.LastWritten requests (k + 1) a b :=
  ⟨k, Nat.lt_succ_self k, hw, fun i hi hki => by omega⟩

theorem LastWritten.succ {m : Machine} {requests : List Request} {k a : Nat} {b : UInt8}
    (h : m.LastWritten requests k a b) (hrestart : requests[k]? ≠ some .restart)
    (hw : ∀ b', ¬m.WritesAt requests k a b') : m.LastWritten requests (k + 1) a b := by
  obtain ⟨j, hj, hb, hlater⟩ := h
  refine ⟨j, Nat.lt_succ_of_lt hj, hb, fun i hi hji => ?_⟩
  rcases Nat.lt_succ_iff_lt_or_eq.1 hi with hlt | rfl
  · exact hlater i hlt hji
  · exact ⟨hrestart, hw⟩

section Runs

variable {m : Machine} {requests : List Request} {a : Nat} (ha : a < 4096)

include ha

theorem read_before_succ_of_writesAt {k : Nat} {b : UInt8} (hw : m.WritesAt requests k a b) :
    (m.before requests (k + 1)).memory.read a = b := by
  obtain ⟨request, hk, hw⟩ := hw
  exact (step_before hk).read_of_writes ha hw

theorem read_before_succ_of_not_writesAt {k : Nat} (hrestart : requests[k]? ≠ some .restart)
    (hw : ∀ b, ¬m.WritesAt requests k a b) :
    (m.before requests (k + 1)).memory.read a = (m.before requests k).memory.read a := by
  cases hk : requests[k]? with
  | none => rw [(before_succ_of_none hk).1]
  | some request =>
    refine (step_before hk).read_of_not_writes ?_ ha fun b hb => hw b ⟨request, hk, hb⟩
    rintro rfl
    exact hrestart hk

theorem read_before_of_lastWritten {k : Nat} {b : UInt8} (h : m.LastWritten requests k a b) :
    (m.before requests k).memory.read a = b := by
  obtain ⟨j, hj, hw, hlater⟩ := h
  induction k with
  | zero => cases hj
  | succ k ih =>
    rcases Nat.lt_succ_iff_lt_or_eq.1 hj with hlt | rfl
    · obtain ⟨hrestart, hnone⟩ := hlater k (Nat.lt_succ_self k) hlt
      rw [read_before_succ_of_not_writesAt ha hrestart hnone]
      exact ih hlt fun i hi => hlater i (Nat.lt_succ_of_lt hi)
    · exact read_before_succ_of_writesAt ha hw

theorem read_before_of_not_lastWritten (hm : m.memory = Font.memory) {k : Nat}
    (h : ∀ b, ¬m.LastWritten requests k a b) :
    (m.before requests k).memory.read a = Font.memory.read a := by
  induction k with
  | zero => exact congrArg (Memory.read · a) hm
  | succ k ih =>
    by_cases hrestart : requests[k]? = some .restart
    · rw [before_succ, hrestart]
      rfl
    · have hw : ∀ b, ¬m.WritesAt requests k a b := fun b hb => h b (lastWritten_of_writesAt hb)
      rw [read_before_succ_of_not_writesAt ha hrestart hw]
      exact ih fun b hb => h b (hb.succ hrestart hw)

end Runs

/-! ## What is loaded and what is fetched -/

/-- Loading says what it did: it copies a program of an accepted size to memory and changes nothing
else, and leaves the machine as it was if it refuses a program. -/
theorem load_spec (program : Bytes) (m : Machine) :
    (∀ n, (m.load program).result = .ok n ↔
        n = program.length ∧ 1 ≤ program.length ∧ program.length ≤ 3583) ∧
      (program.length = 0 → (m.load program).result = .error .emptyProgram) ∧
      (3583 < program.length →
        (m.load program).result = .error (.programTooLarge program.length)) ∧
      (∀ cause, (m.load program).result = .error cause → (m.load program).machine = m) ∧
      (m.load program).machine = { m with memory := (m.load program).machine.memory } := by
  have heq := load_eq program m
  rcases load_cases program m with ⟨hnil, hload⟩ | ⟨hlarge, hload⟩ | ⟨hpos, hsize, hresult, -⟩
  · rw [hload] at heq ⊢
    refine ⟨fun n => ?_, fun _ => rfl, fun h => ?_, fun _ _ => rfl, heq⟩
    · constructor
      · exact nofun
      · omega
    · omega
  · rw [hload] at heq ⊢
    refine ⟨fun n => ?_, fun h => ?_, fun _ => rfl, fun _ _ => rfl, heq⟩
    · constructor
      · exact nofun
      · omega
    · omega
  · refine ⟨fun n => ?_, fun h => ?_, fun h => ?_, fun cause h => ?_, heq⟩
    · rw [hresult, Except.ok.injEq]
      exact ⟨fun h => ⟨h.symm, hpos, hsize⟩, fun h => h.1.symm⟩
    · omega
    · omega
    · rw [hresult] at h
      cases h

/-- A cycle that does not wait goes by the word whose bytes are at the program counter. -/
theorem exists_word {m : Machine} (ha : m.awaiting = none) (hp : m.pc.toNat ≤ 0xFFE) :
    ∃ word : UInt16,
      word.toNat =
        256 * (m.memory.read m.pc.toNat).toNat + (m.memory.read (m.pc.toNat + 1)).toNat ∧
      m.instruction? = Instruction.decode word ∧
      (Instruction.decode word = none → m.fault? = some (.unknownInstruction word m.pc)) := by
  have hhigh := (m.memory.read m.pc.toNat).toNat_lt
  have hlow := (m.memory.read (m.pc.toNat + 1)).toNat_lt
  have hin : m.pc.toNat + 1 < Memory.size := Nat.succ_lt_succ (Nat.lt_succ_of_le hp)
  have hword : 256 * (m.memory.read m.pc.toNat).toNat +
      (m.memory.read (m.pc.toNat + 1)).toNat < 65536 := by omega
  refine ⟨_, UInt16.toNat_ofNat_of_lt' hword, ?_, fun hd => ?_⟩
  · simp only [instruction?, ha, Memory.word?, if_pos hin, Option.bind_some]
  · simp only [fault?, ha, Memory.word?, if_pos hin, hd]

/-- **Memory holds what was last written.** At every point of a run from a new machine an address
holds the byte last written to it since the last restart, or else what the font has there. Digits
and registers are stored by successful instructions alone and programs only if their size is
accepted; loading touches nothing but memory. A cycle goes by the word that memory holds at the
program counter then. -/
theorem memory_holds_last_written (requests : List Request) (k : Nat) :
    (∀ a < 4096,
      (∀ b, new.LastWritten requests k a b → (new.before requests k).memory.read a = b) ∧
      ((∀ b, ¬new.LastWritten requests k a b) →
        (new.before requests k).memory.read a =
          if 0x50 ≤ a ∧ a < 0xA0 then Font.rows.getD (a - 0x50) 0 else 0)) ∧
    (∀ x, new.completed? requests k = some (.decimal x) →
      ∃ d₂ d₁ d₀, IsDecimal d₂ d₁ d₀ ((new.before requests k).register x) ∧
        new.WritesAt requests k (new.before requests k).index.toNat d₂ ∧
        new.WritesAt requests k ((new.before requests k).index.toNat + 1) d₁ ∧
        new.WritesAt requests k ((new.before requests k).index.toNat + 2) d₀) ∧
    (∀ x, new.completed? requests k = some (.saveRegisters x) → ∀ i ≤ x,
      new.WritesAt requests k ((new.before requests k).index.toNat + i.val)
        ((new.before requests k).register i)) ∧
    (∀ (m : Machine) (program : Bytes),
      (∀ n, (m.load program).result = .ok n ↔
        n = program.length ∧ 1 ≤ program.length ∧ program.length ≤ 3583) ∧
      (program.length = 0 → (m.load program).result = .error .emptyProgram) ∧
      (3583 < program.length →
        (m.load program).result = .error (.programTooLarge program.length)) ∧
      (∀ cause, (m.load program).result = .error cause → (m.load program).machine = m) ∧
      (m.load program).machine = { m with memory := (m.load program).machine.memory }) ∧
    ∀ randomByte, requests[k]? = some (.cycle randomByte) →
      (new.before requests k).awaiting = none → (new.before requests k).pc.toNat ≤ 0xFFE →
      ∃ word : UInt16,
        word.toNat =
          256 * ((new.before requests k).memory.read (new.before requests k).pc.toNat).toNat +
            ((new.before requests k).memory.read ((new.before requests k).pc.toNat + 1)).toNat ∧
        new.executed? requests k = Instruction.decode word ∧
        (Instruction.decode word = none →
          ((new.before requests k).cycle randomByte).result =
            .error (.unknownInstruction word (new.before requests k).pc)) := by
  refine ⟨fun a ha => ⟨fun b hb => read_before_of_lastWritten ha hb, fun h => ?_⟩,
    fun x hx => writesAt_decimal hx, fun x hx i hi => writesAt_saveRegisters hx hi,
    fun m program => load_spec program m, fun randomByte hk hwait hp => ?_⟩
  · rw [read_before_of_not_lastWritten ha rfl h]
    exact Font.read_memory ha
  · obtain ⟨word, hword, hi, hnone⟩ := exists_word hwait hp
    refine ⟨word, hword, ?_, fun hd => result_of_fault (hnone hd) randomByte⟩
    rw [executed?, hk]
    exact hi

/-- A run in which digits and a register are stored over the last instruction of the program, a jump
to itself, so that it becomes `00E0`. -/
def rewritingRun : List Request :=
  [.load [0xA2, 0x0A, 0xF0, 0x33, 0xA2, 0x0B, 0x60, 0xE0, 0xF0, 0x55, 0x12, 0x0A],
    .cycle 0, .cycle 0, .cycle 0, .cycle 0, .cycle 0, .cycle 0]

/-- The first row of the font is in memory at first. The digit and the register that are stored are
read back, and the word they make up is executed. -/
theorem memory_holds_last_written_rewritten :
    (new.before rewritingRun 0).memory.read 0x50 = 0xF0 ∧
      (∃ d, new.LastWritten rewritingRun (2 + 1) 0x20A d ∧
        (new.before rewritingRun (2 + 1)).memory.read 0x20A = d) ∧
      (new.before rewritingRun (5 + 1)).memory.read 0x20B = 0xE0 ∧
      new.executed? rewritingRun 6 = some .clearScreen ∧
      (new.load (List.replicate 3584 0)).result = .error (.programTooLarge 3584) := by
  have hrun : (((new.before rewritingRun 2).fault? = none ∧
        (new.before rewritingRun 2).instruction? = some (.decimal 0) ∧
        (new.before rewritingRun 2).index.toNat = 0x20A) ∧
      (new.before rewritingRun 5).fault? = none ∧
        (new.before rewritingRun 5).instruction? = some (.saveRegisters 0) ∧
        (new.before rewritingRun 5).index.toNat = 0x20B ∧
        (new.before rewritingRun 5).register 0 = 0xE0) ∧
      (new.before rewritingRun (5 + 1)).awaiting = none ∧
        (new.before rewritingRun (5 + 1)).pc.toNat ≤ 0xFFE ∧
        256 * ((new.before rewritingRun (5 + 1)).memory.read
            (new.before rewritingRun (5 + 1)).pc.toNat).toNat +
          ((new.before rewritingRun (5 + 1)).memory.read
            ((new.before rewritingRun (5 + 1)).pc.toNat + 1)).toNat = 0x00E0 := by
    simp only [before, performAll_eq_advanceAll]
    decide +kernel
  obtain ⟨⟨⟨hfault, hinstruction, hindex⟩, hfault', hinstruction', hindex', hregister⟩, hwait, hpc,
    hbytes⟩ := hrun
  have hdecimal := completed?_eq_some_iff.2 ⟨⟨0, rfl⟩, hfault, hinstruction⟩
  have hsave := completed?_eq_some_iff.2 ⟨⟨0, rfl⟩, hfault', hinstruction'⟩
  obtain ⟨hfirst, -⟩ := memory_holds_last_written rewritingRun 0
  obtain ⟨-, hdigits, -⟩ := memory_holds_last_written rewritingRun 2
  obtain ⟨-, -, hregisters, -⟩ := memory_holds_last_written rewritingRun 5
  obtain ⟨hthird, -⟩ := memory_holds_last_written rewritingRun (2 + 1)
  obtain ⟨hsixth, -, -, hload, hfetch⟩ := memory_holds_last_written rewritingRun (5 + 1)
  refine ⟨?_, ?_, ?_, ?_, ?_⟩
  · exact (hfirst 0x50 (by decide)).2 fun b ⟨j, hj, _⟩ => absurd hj (Nat.not_lt_zero j)
  · obtain ⟨d, -, -, -, hd, -⟩ := hdigits 0 hdecimal
    rw [hindex] at hd
    have hlast := lastWritten_of_writesAt hd
    exact ⟨d, hlast, (hthird 0x20A (by decide)).1 d hlast⟩
  · have hsaved := hregisters 0 hsave 0 (Fin.le_refl 0)
    rw [hindex', hregister] at hsaved
    exact (hsixth 0x20B (by decide)).1 0xE0 (lastWritten_of_writesAt hsaved)
  · obtain ⟨word, hword, hexecuted, -⟩ := hfetch 0 rfl hwait hpc
    have hword : word = 0x00E0 := UInt16.toNat_inj.1 (hword.trans hbytes)
    rw [hexecuted, hword]
    decide
  · have hlength : (List.replicate 3584 (0 : UInt8)).length = 3584 := List.length_replicate
    have hlarge := (hload new (List.replicate 3584 0)).2.2.1
    rw [hlength] at hlarge
    exact hlarge (by decide)

end Chip8.Machine
