/-!
# Byte strings

`Bytes` is a finite string of bytes, first byte first. `Bytes.resized` gives a string a chosen
length, `Bytes.digest` is the 64-bit FNV-1a digest that stands for a long string in a listing, and
`Bytes.pattern` is a reproducible sequence for filling memory.
-/

namespace NorFlash

/-- A finite string of bytes, first byte first. -/
abbrev Bytes := List UInt8

namespace Bytes

/-- The value of an erased byte: every bit set. -/
def erased : UInt8 := 0xFF

/-- The string cut to `length` bytes, or filled up to `length` with zeros. -/
def resized (bytes : Bytes) (length : Nat) : Bytes :=
  bytes.take length ++ List.replicate (length - bytes.length) 0

/-- Resizing gives just the length asked for. -/
theorem length_resized (bytes : Bytes) (length : Nat) :
    (bytes.resized length).length = length := by
  simp only [resized, List.length_append, List.length_take, List.length_replicate]
  omega

/-- One round of the digest: the byte is mixed into the low bits, then spread by the prime. -/
def digestStep (state : UInt64) (byte : UInt8) : UInt64 :=
  (state ^^^ byte.toUInt64) * 0x100000001B3

/-- The 64-bit FNV-1a digest. -/
def digest (bytes : Bytes) : UInt64 :=
  bytes.foldl digestStep 0xCBF29CE484222325

/-- One step of the 32-bit xorshift generator with shifts 13, 17 and 5. -/
def patternStep (state : UInt32) : UInt32 :=
  let state := state ^^^ (state <<< 13)
  let state := state ^^^ (state >>> 17)
  state ^^^ (state <<< 5)

/-- Appends to `reversed` the low bytes of the next `length` states, last byte first. -/
def patternFrom : (length : Nat) → (state : UInt32) → (reversed : Bytes) → Bytes
  | 0, _, reversed => reversed
  | length + 1, state, reversed =>
      patternFrom length (patternStep state) ((patternStep state).toUInt8 :: reversed)

/-- A pseudo-random string of `length` bytes that depends on `seed` alone. The generator starts
from an odd multiple of the seed, so it never starts from the fixed point zero. -/
def pattern (seed : UInt32) (length : Nat) : Bytes :=
  (patternFrom length ((seed * 0x9E3779B9) ||| 1) []).reverse

/-- Every round of the generator adds one byte. -/
theorem length_patternFrom (length : Nat) (state : UInt32) (reversed : Bytes) :
    (patternFrom length state reversed).length = length + reversed.length := by
  induction length generalizing state reversed with
  | zero => simp [patternFrom]
  | succ length ih => simp [patternFrom, ih]; omega

/-- A pattern has the length asked for. -/
theorem length_pattern (seed : UInt32) (length : Nat) : (pattern seed length).length = length := by
  simp [pattern, length_patternFrom]

end Bytes

end NorFlash
