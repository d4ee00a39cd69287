import Chip8.Proofs.Registers
import Chip8.Proofs.Writing

/-!
# Registers saved and restored

Saving writes registers 0 to `x` to memory at the index and restoring reads them from there, each
byte to its own place (`read_save`, `register_restore`). So registers that were saved come back for
as long as their bytes stay, also a part of them from further on, and saving what was just restored
leaves memory as it was (`saved_registers_come_back`). The index stays where it is.
-/

namespace Chip8.Machine

/-- The machine after saving registers 0 to `x`. -/
def save (x : Register) (m : Machine) : Machine :=
  m.storeAtIndex (m.registers.toList.take (x.val + 1))

@[simp]
theorem index_save (x : Register) (m : Machine) : (m.save x).index = m.index := rfl

@[simp]
theorem memory_save (x : Register) (m : Machine) :
    (m.save x).memory =
      m.memory.store m.index.toNat (m.registers.toList.take (x.val + 1)) := rfl

@[simp]
theorem index_restore (x : Register) (m : Machine) : (m.restore x).index = m.index := by
  dsimp only [restore, next]

@[simp]
theorem memory_restore (x : Register) (m : Machine) : (m.restore x).memory = m.memory := by
  dsimp only [restore, next]

/-! ## Saving and restoring without faults -/

section Fits

variable {m : Machine} {x : Register} (hfits : m.index.toNat + x.val + 1 ≤ 4096)

include hfits

theorem accessRefusal_eq_none : m.accessRefusal (x.val + 1) = none :=
  if_pos hfits

theorem execute_saveRegisters (randomByte : UInt8) :
    execute randomByte (.saveRegisters x) m = .ok () (m.save x) := by
  have hr : m.refusal (.saveRegisters x) = none := accessRefusal_eq_none hfits
  rw [execute_eq, hr]
  rfl

theorem execute_restoreRegisters (randomByte : UInt8) :
    execute randomByte (.restoreRegisters x) m = .ok () (m.restore x) := by
  have hr : m.refusal (.restoreRegisters x) = none := accessRefusal_eq_none hfits
  rw [execute_eq, hr]
  rfl

/-- A saved register is where the index says. -/
theorem read_save {k : Register} (hk : k ≤ x) :
    (m.save x).memory.read (m.index.toNat + k.val) = m.register k := by
  have hlt : m.index.toNat + k.val < Memory.size := by
    have hle : k.val ≤ x.val := hk
    simp only [Memory.size]
    omega
  exact Memory.read_store_of_getElem? m.memory (getElem?_take_registers.2 ⟨k, hk, rfl, rfl⟩) hlt

/-- Saving what was restored writes the bytes that are there. -/
theorem memory_save_restore : ((m.restore x).save x).memory = m.memory := by
  refine Memory.ext fun a ha => ?_
  by_cases hin : m.index.toNat ≤ a ∧ a ≤ m.index.toNat + x.val
  · obtain ⟨k, rfl⟩ := Nat.exists_eq_add_of_le hin.1
    have hle : k ≤ x.val := Nat.le_of_add_le_add_left hin.2
    have hk : (⟨k, Nat.lt_of_le_of_lt hle x.isLt⟩ : Register) ≤ x := hle
    have hfits' : (m.restore x).index.toNat + x.val + 1 ≤ 4096 := by rwa [index_restore]
    have hread := read_save hfits' hk
    rw [index_restore, register_restore, if_pos hk] at hread
    exact hread
  · rw [memory_save, memory_restore, index_restore]
    refine Memory.read_store_of_ne m.memory ha fun k b hb hka => hin ?_
    obtain ⟨j, hj, rfl, -⟩ := getElem?_take_registers.1 hb
    have hle : j.val ≤ x.val := hj
    omega

end Fits

/-- In `later` the index is `d` addresses further than in `saved`, and the bytes of registers 0 to
`x` that were saved at the index of `saved` are still there. -/
structure KeepsSaved (saved later : Machine) (x : Register) (d : Nat) : Prop where
  index_eq : later.index.toNat = saved.index.toNat + d
  read_eq : ∀ a, saved.index.toNat ≤ a → a ≤ saved.index.toNat + x.val →
    later.memory.read a = saved.memory.read a

/-- **Saved registers come back.** If registers 0 to `x` fit in memory at the index, they can be
saved and restored there. Restoring registers 0 to `y` later, from `d` addresses further on but still
within what was saved, gives register `k` what register `k + d` held when it was saved, whatever has
become of the machine apart from the saved bytes; the registers after `y` keep what they hold by
then. Saving what was just restored leaves all of memory as it was. Neither moves the index. -/
theorem saved_registers_come_back {m : Machine} {x : Register}
    (hfits : m.index.toNat + x.val + 1 ≤ 4096) (randomByte : UInt8) :
    (∃ saved, execute randomByte (.saveRegisters x) m = .ok () saved ∧ saved.index = m.index ∧
      ∀ (later : Machine) (y : Register) (d : Nat), KeepsSaved saved later x d →
        d + y.val ≤ x.val → ∀ nextByte,
          ∃ loaded, execute nextByte (.restoreRegisters y) later = .ok () loaded ∧
            loaded.index = later.index ∧
            (∀ k j : Register, k ≤ y → j.val = k.val + d → loaded.register k = m.register j) ∧
            ∀ k, y < k → loaded.register k = later.register k) ∧
    ∃ loaded, execute randomByte (.restoreRegisters x) m = .ok () loaded ∧
      loaded.index = m.index ∧
      ∀ nextByte, ∃ saved, execute nextByte (.saveRegisters x) loaded = .ok () saved ∧
        saved.index = m.index ∧ saved.memory = m.memory := by
  constructor
  · refine ⟨m.save x, execute_saveRegisters hfits randomByte, index_save x m, ?_⟩
    intro later y d hkept hd nextByte
    have hindex : later.index.toNat = m.index.toNat + d := hkept.index_eq
    have hfits' : later.index.toNat + y.val + 1 ≤ 4096 := by omega
    refine ⟨later.restore y, execute_restoreRegisters hfits' nextByte, index_restore y later, ?_,
      fun k hk => ?_⟩
    · intro k j hk hj
      have hky : k.val ≤ y.val := hk
      have hjx : j ≤ x := Fin.le_def.2 (by omega)
      have haddress : later.index.toNat + k.val = m.index.toNat + j.val := by omega
      calc (later.restore y).register k
          = later.memory.read (m.index.toNat + j.val) := by
            rw [register_restore, if_pos hk, haddress]
        _ = (m.save x).memory.read (m.index.toNat + j.val) :=
            hkept.read_eq _ (Nat.le_add_right _ _) (Nat.add_le_add_left hjx _)
        _ = m.register j := read_save hfits hjx
    · rw [register_restore, if_neg (Fin.not_le.2 hk)]
  · have hfits' : (m.restore x).index.toNat + x.val + 1 ≤ 4096 := by rwa [index_restore]
    refine ⟨m.restore x, execute_restoreRegisters hfits randomByte, index_restore x m, ?_⟩
    intro nextByte
    refine ⟨(m.restore x).save x, execute_saveRegisters hfits' nextByte, ?_,
      memory_save_restore hfits⟩
    rw [index_save, index_restore]

/-- All registers fit right below the end of memory. When they have been wiped and two bytes are
skipped, what register 3 held comes back in register 1. -/
theorem saved_registers_come_back_shifted :
    let m := { new with index := 0xFF0 }.setRegister 3 7
    m.index.toNat + (15 : Register).val + 1 ≤ 4096 ∧
      ∃ saved loaded, execute 0 (.saveRegisters 15) m = .ok () saved ∧
        execute 0 (.restoreRegisters 2)
          { saved with registers := Vector.replicate 16 0, index := 0xFF2 } = .ok () loaded ∧
        loaded.register 1 = 7 := by
  intro m
  have hfits : m.index.toNat + (15 : Register).val + 1 ≤ 4096 := Nat.le_refl 4096
  obtain ⟨⟨saved, hsave, hindex, hlater⟩, -⟩ := saved_registers_come_back hfits 0
  have hkept : KeepsSaved saved
      { saved with registers := Vector.replicate 16 0, index := 0xFF2 } 15 2 :=
    { index_eq := by
        rw [hindex]
        rfl
      read_eq := fun _ _ _ => rfl }
  obtain ⟨loaded, hload, -, hregisters, -⟩ := hlater _ 2 2 hkept (by decide) 0
  have hshifted : loaded.register 1 = m.register 3 := hregisters 1 3 (by decide) rfl
  refine ⟨hfits, saved, loaded, hsave, hload, hshifted.trans ?_⟩
  exact (register_setRegister _ _ _ _).trans (if_pos rfl)

end Chip8.Machine
