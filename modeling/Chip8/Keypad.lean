/-!
# The hexadecimal keypad

Sixteen keys, each up or down. A keypad is read key by key (`isDown`), as the ascending list of the
keys that are down (`pressed`), or through its lowest key that is down (`lowest?`).
-/

namespace Chip8

/-- A key of the hexadecimal keypad. -/
abbrev Key := Fin 16

/-- The key that a byte names: only its lower four bits count. -/
def Key.ofByte (b : UInt8) : Key :=
  ⟨b.toNat % 16, Nat.mod_lt _ (by decide)⟩

/-- A key is the one that its own number names. -/
theorem Key.ofByte_ofNat_val (key : Key) : Key.ofByte (UInt8.ofNat key.val) = key := by
  have : ∀ key : Key, Key.ofByte (UInt8.ofNat key.val) = key := by decide
  exact this key

/-- The state of all keys. -/
structure Keypad where
  down : Vector Bool 16
  deriving DecidableEq

namespace Keypad

/-- The keypad with every key up. -/
def released : Keypad :=
  ⟨Vector.replicate 16 false⟩

/-- Whether `key` is down. -/
def isDown (pad : Keypad) (key : Key) : Bool :=
  pad.down[key]

/-- Puts one key down or up. -/
def setKey (pad : Keypad) (key : Key) (down : Bool) : Keypad :=
  ⟨pad.down.set key down⟩

/-- Puts the key named by a byte down. -/
def press (pad : Keypad) (b : UInt8) : Keypad :=
  pad.setKey (Key.ofByte b) true

/-- Lets the key named by a byte go. -/
def release (pad : Keypad) (b : UInt8) : Keypad :=
  pad.setKey (Key.ofByte b) false

/-- The keypad on which exactly the listed keys are down. -/
def ofPressed (keys : List Key) : Keypad :=
  ⟨Vector.ofFn fun key => keys.contains key⟩

/-- The keys that are down, in ascending order. -/
def pressed (pad : Keypad) : List Key :=
  (List.finRange 16).filter pad.isDown

/-- The lowest key that is down. -/
def lowest? (pad : Keypad) : Option Key :=
  (List.finRange 16).find? pad.isDown

/-! ## What the operations do to a key -/

@[ext]
theorem ext {p q : Keypad} (h : ∀ key, p.isDown key = q.isDown key) : p = q := by
  obtain ⟨p⟩ := p
  obtain ⟨q⟩ := q
  congr 1
  apply Vector.ext
  intro i hi
  exact h ⟨i, hi⟩

@[simp]
theorem isDown_released (key : Key) : released.isDown key = false := by
  simp [released, isDown]

@[simp]
theorem isDown_setKey (pad : Keypad) (key other : Key) (down : Bool) :
    (pad.setKey key down).isDown other = if other = key then down else pad.isDown other := by
  simp only [isDown, setKey, Fin.getElem_fin, Vector.getElem_set]
  by_cases h : other = key
  · simp [h]
  · have : ¬ key.val = other.val := fun e => h (Fin.ext e.symm)
    simp [h, this]

@[simp]
theorem isDown_ofPressed (keys : List Key) (key : Key) :
    (ofPressed keys).isDown key = keys.contains key := by
  simp [ofPressed, isDown]

theorem mem_pressed {pad : Keypad} {key : Key} : key ∈ pad.pressed ↔ pad.isDown key = true := by
  simp [pressed]

/-- The lowest key that is down is the first of the pressed keys. -/
theorem lowest?_eq_head?_pressed (pad : Keypad) : pad.lowest? = pad.pressed.head? := by
  simp [lowest?, pressed]

theorem lowest?_eq_none_iff {pad : Keypad} :
    pad.lowest? = none ↔ ∀ key, pad.isDown key = false := by
  simp [lowest?, List.find?_eq_none]

/-- The lowest key that is down is down, and the keys below it are up. -/
theorem lowest?_eq_some_iff {pad : Keypad} {key : Key} :
    pad.lowest? = some key ↔
      pad.isDown key = true ∧ ∀ other < key, pad.isDown other = false := by
  rw [lowest?, List.find?_eq_some_iff_getElem]
  refine and_congr_right fun _ => ?_
  constructor
  · rintro ⟨i, hi, hkey, hbefore⟩ other hlt
    obtain rfl : i = key.val := by simpa using congrArg Fin.val hkey
    simpa using hbefore other.val hlt
  · intro hbefore
    refine ⟨key.val, by simp, by simp, fun j hj => ?_⟩
    simpa using hbefore ⟨j, Nat.lt_trans hj key.isLt⟩ hj

end Keypad

end Chip8
