/-!
# Random bytes

An endless sequence of bytes for every seed. Byte `k` mixes the bits of a 64-bit counter that starts
at the seed and grows by an odd constant, so the counters of the first 2^64 bytes are all different
and every byte value comes up again and again, whichever of the bytes a program happens to see.
-/

namespace Chip8.Random

/-- Spreads every bit of a word over the whole word. -/
def mix (z : UInt64) : UInt64 :=
  let z := (z ^^^ (z >>> 30)) * 0xBF58476D1CE4E5B9
  let z := (z ^^^ (z >>> 27)) * 0x94D049BB133111EB
  z ^^^ (z >>> 31)

/-- Byte `k` of the sequence that belongs to a seed. -/
def byte (seed : UInt64) (k : Nat) : UInt8 :=
  (mix (seed + UInt64.ofNat (k + 1) * 0x9E3779B97F4A7C15) >>> 56).toUInt8

end Chip8.Random
