/-!
# Main memory

4096 bytes, read at an address (`read`), as a run of bytes (`slice`) or as a big-endian word
(`word?`), and written byte by byte (`write`) or as a run of bytes (`store`). `read_store` is the
law of a store: the run holds the bytes stored and every other address keeps its byte.
-/

namespace Chip8

/-- A run of bytes: a program, a sprite, a piece of memory. -/
abbrev Bytes := List UInt8

namespace Memory

/-- The number of addressable bytes. -/
def size : Nat := 4096

/-- The address at which programs are loaded and start to run. -/
def programStart : Nat := 0x200

/-- The longest program that is accepted; it leaves the last byte of memory alone. -/
def programLimit : Nat := 0xFFF - programStart

end Memory

/-- The content of main memory. -/
structure Memory where
  cells : Vector UInt8 Memory.size
  deriving DecidableEq

namespace Memory

/-- Memory that holds zeros only. -/
def zeroed : Memory :=
  ⟨Vector.replicate size 0⟩

/-- The byte at address `a`; there is nothing but zeros past the end. -/
def read (mem : Memory) (a : Nat) : UInt8 :=
  mem.cells[a]?.getD 0

/-- The `len` bytes from address `a` on. -/
def slice (mem : Memory) (a len : Nat) : Bytes :=
  (List.range len).map fun k => mem.read (a + k)

/-- The word whose high byte is at `a` and whose low byte is at `a + 1`, if both exist. -/
def word? (mem : Memory) (a : Nat) : Option UInt16 :=
  if a + 1 < size then
    some (UInt16.ofNat (256 * (mem.read a).toNat + (mem.read (a + 1)).toNat))
  else
    none

/-- Whether the `len` bytes from address `a` on all exist. -/
def Fits (a len : Nat) : Prop :=
  a + len ≤ size

instance (a len : Nat) : Decidable (Fits a len) :=
  inferInstanceAs (Decidable (a + len ≤ size))

/-- Writes a byte to address `a`, if that exists. -/
def write (mem : Memory) (a : Nat) (b : UInt8) : Memory :=
  if h : a < size then ⟨mem.cells.set a b⟩ else mem

/-- Writes `bytes` to address `a` and the addresses after it; what does not fit is dropped. -/
def store (mem : Memory) (a : Nat) : Bytes → Memory
  | [] => mem
  | b :: rest => (mem.write a b).store (a + 1) rest

/-! ## What a read sees -/

@[ext]
theorem ext {m n : Memory} (h : ∀ a, a < size → m.read a = n.read a) : m = n := by
  obtain ⟨m⟩ := m
  obtain ⟨n⟩ := n
  congr 1
  apply Vector.ext
  intro i hi
  simpa [read, hi] using h i hi

@[simp]
theorem read_zeroed (a : Nat) : zeroed.read a = 0 := by
  simp only [read, zeroed, Vector.getElem?_replicate]
  split <;> rfl

theorem read_of_size_le (mem : Memory) {a : Nat} (h : size ≤ a) : mem.read a = 0 := by
  simp [read, Vector.getElem?_eq_none h]

theorem read_write (mem : Memory) (a : Nat) (b : UInt8) (i : Nat) :
    (mem.write a b).read i = if i = a ∧ a < size then b else mem.read i := by
  unfold write
  split
  · rename_i h
    by_cases hi : i < size
    · simp only [read, Vector.getElem?_eq_getElem hi, Vector.getElem_set, Option.getD_some]
      by_cases he : a = i
      · simp [he, hi]
      · simp [he, Ne.symm he]
    · rw [read_of_size_le _ (Nat.not_lt.1 hi), read_of_size_le _ (Nat.not_lt.1 hi),
        if_neg (by omega)]
  · rename_i h
    rw [if_neg (fun e => h e.2)]

/-- **A store changes exactly its run**: address `i` holds byte `i - a` of the bytes stored at `a`
if there is one, and what it held before otherwise. -/
theorem read_store (mem : Memory) (a : Nat) (bytes : Bytes) {i : Nat} (hi : i < size) :
    (mem.store a bytes).read i =
      if a ≤ i ∧ i < a + bytes.length then bytes.getD (i - a) 0 else mem.read i := by
  induction bytes generalizing mem a with
  | nil => simp only [store, List.length_nil]; rw [if_neg (by omega)]
  | cons b rest ih =>
    rw [store, ih, read_write, List.length_cons]
    by_cases h : i = a
    · subst h
      rw [if_neg (by omega), if_pos ⟨rfl, hi⟩, if_pos (by omega), Nat.sub_self]
      rfl
    · rw [if_neg (c := i = a ∧ a < size) (fun e => h e.1)]
      by_cases hr : a + 1 ≤ i ∧ i < a + 1 + rest.length
      · rw [if_pos hr, if_pos (by omega), show i - a = (i - (a + 1)) + 1 by omega]
        rfl
      · rw [if_neg hr, if_neg (by omega)]

/-- A byte that was stored is read back. -/
theorem read_store_of_getElem? (mem : Memory) {a i : Nat} {bytes : Bytes} {b : UInt8}
    (h : bytes[i]? = some b) (hi : a + i < size) : (mem.store a bytes).read (a + i) = b := by
  obtain ⟨hlt, -⟩ := List.getElem?_eq_some_iff.1 h
  rw [read_store mem a bytes hi, if_pos ⟨Nat.le_add_right a i, Nat.add_lt_add_left hlt a⟩,
    Nat.add_sub_cancel_left, List.getD_eq_getElem?_getD, h, Option.getD_some]

/-- An address at which no byte is stored keeps its byte. -/
theorem read_store_of_ne (mem : Memory) {a i : Nat} {bytes : Bytes} (hi : i < size)
    (h : ∀ k b, bytes[k]? = some b → a + k ≠ i) : (mem.store a bytes).read i = mem.read i := by
  rw [read_store mem a bytes hi, if_neg]
  rintro ⟨hle, hlt⟩
  have hk : i - a < bytes.length := by omega
  exact h (i - a) bytes[i - a] (List.getElem?_eq_getElem hk) (by omega)

@[simp]
theorem length_slice (mem : Memory) (a len : Nat) : (mem.slice a len).length = len := by
  simp [slice]

theorem getElem_slice (mem : Memory) (a len k : Nat) (h : k < (mem.slice a len).length) :
    (mem.slice a len)[k] = mem.read (a + k) := by
  simp [slice]

end Memory

end Chip8
