import NorFlash.Address
import NorFlash.Bytes.Basic

/-!
# Memory regions

A region is an aligned block of `addressable bits` bytes, held as a tree that halves the block at
each level. A block whose bytes are all equal needs no tree below it, so erasing a unit is replacing
one subtree.

A position is read by its low `bits` bits. `byteAt_set` and `byteAt_fillUnit` give the view of each
operation: a write shows at its position and nowhere else, and a fill shows in its unit and nowhere
else.
-/

namespace NorFlash

/-- The contents of an aligned block. -/
inductive Region where
  | uniform (value : UInt8)
  | halves (low high : Region)
  deriving DecidableEq

namespace Region

/-- The half of a block with the smaller addresses. -/
def low : Region → Region
  | uniform value => uniform value
  | halves low _ => low

/-- The half of a block with the larger addresses. -/
def high : Region → Region
  | uniform value => uniform value
  | halves _ high => high

/-- The byte at a position of a block of `addressable bits` bytes. -/
def byteAt : (bits : Nat) → Region → (position : Nat) → UInt8
  | _, uniform value, _ => value
  | 0, halves _ _, _ => Bytes.erased
  | bits + 1, halves low high, position =>
      if position.testBit bits then byteAt bits high position else byteAt bits low position

/-- Writes one byte. -/
def set : (bits : Nat) → Region → (position : Nat) → (value : UInt8) → Region
  | 0, _, _, value => uniform value
  | bits + 1, region, position, value =>
      if position.testBit bits then
        halves region.low (set bits region.high position value)
      else
        halves (set bits region.low position value) region.high

/-- Gives every byte of the aligned unit of `addressable unitBits` bytes around a position one
value. A unit at least as large as the block is the whole block. -/
def fillUnit (unitBits : Nat) (value : UInt8) : (bits : Nat) → Region → (position : Nat) → Region
  | 0, _, _ => uniform value
  | bits + 1, region, position =>
      if bits + 1 ≤ unitBits then uniform value
      else if position.testBit bits then
        halves region.low (fillUnit unitBits value bits region.high position)
      else
        halves (fillUnit unitBits value bits region.low position) region.high

/-- A uniform region has its one value everywhere. -/
theorem byteAt_uniform (bits : Nat) (value : UInt8) (position : Nat) :
    byteAt bits (uniform value) position = value := by
  cases bits <;> rfl

/-- The leading bit of a position says which half it is in. -/
theorem byteAt_halves (bits : Nat) (low high : Region) (position : Nat) :
    byteAt (bits + 1) (halves low high) position =
      if position.testBit bits then byteAt bits high position else byteAt bits low position :=
  rfl

/-- Any region of more than one byte may be read by halves. -/
theorem byteAt_succ (bits : Nat) (region : Region) (position : Nat) :
    byteAt (bits + 1) region position =
      if position.testBit bits then byteAt bits region.high position
      else byteAt bits region.low position := by
  cases region with
  | uniform value => simp [low, high, byteAt_uniform]
  | halves low high => rfl

/-- Only the low bits of a position matter. -/
theorem byteAt_congr {bits : Nat} {i j : Nat} (region : Region)
    (h : i % addressable bits = j % addressable bits) :
    byteAt bits region i = byteAt bits region j := by
  induction bits generalizing region with
  | zero => cases region <;> rfl
  | succ bits ih =>
      obtain ⟨hbit, hlow⟩ := (mod_addressable_succ_eq_iff bits i j).mp h
      simp only [byteAt_succ, hbit, ih region.high hlow, ih region.low hlow]

/-- A write shows at its position and nowhere else. -/
theorem byteAt_set (bits : Nat) (region : Region) (position other : Nat) (value : UInt8) :
    byteAt bits (set bits region position value) other =
      if other % addressable bits = position % addressable bits then value
      else byteAt bits region other := by
  induction bits generalizing region with
  | zero => simp [set, byteAt_uniform, addressable, Nat.mod_one]
  | succ bits ih =>
      rw [byteAt_succ bits region, set]
      cases hposition : position.testBit bits <;> cases hother : other.testBit bits <;>
        simp [byteAt_halves, hother, ih, mod_addressable_succ_eq_iff, hposition]

/-- A fill shows in its unit and nowhere else. -/
theorem byteAt_fillUnit (unitBits : Nat) (value : UInt8) (bits : Nat) (region : Region)
    (position other : Nat) :
    byteAt bits (fillUnit unitBits value bits region position) other =
      if other % addressable bits / addressable unitBits =
          position % addressable bits / addressable unitBits then value
      else byteAt bits region other := by
  induction bits generalizing region with
  | zero => simp [fillUnit, byteAt_uniform, addressable, Nat.mod_one]
  | succ bits ih =>
      have hp := Nat.mod_lt position (addressable_pos (bits + 1))
      have ho := Nat.mod_lt other (addressable_pos (bits + 1))
      rw [fillUnit]
      by_cases hunit : bits + 1 ≤ unitBits
      · have hle := addressable_le hunit
        simp [hunit, byteAt_uniform, Nat.div_eq_of_lt (Nat.lt_of_lt_of_le hp hle),
          Nat.div_eq_of_lt (Nat.lt_of_lt_of_le ho hle)]
      · obtain ⟨gap, hgap⟩ : ∃ gap, bits = unitBits + gap :=
          ⟨bits - unitBits, by omega⟩
        have hsplit (n : Nat) :
            n % addressable (bits + 1) / addressable unitBits =
              addressable gap * (n.testBit bits).toNat +
                n % addressable bits / addressable unitBits := by
          rw [mod_addressable_succ, hgap, addressable_add, Nat.mul_assoc,
            Nat.mul_add_div (addressable_pos unitBits)]
        have hbound (n : Nat) : n % addressable bits / addressable unitBits < addressable gap := by
          rw [Nat.div_lt_iff_lt_mul (addressable_pos unitBits), Nat.mul_comm, ← addressable_add,
            ← hgap]
          exact Nat.mod_lt n (addressable_pos bits)
        have hbp := hbound position
        have hbo := hbound other
        rw [byteAt_succ bits region]
        simp only [hunit, if_false]
        simp only [hsplit position, hsplit other]
        cases hposition : position.testBit bits <;> cases hother : other.testBit bits <;>
          simp [byteAt_halves, hother, ih] <;>
          (generalize other % addressable bits / addressable unitBits = o at *
           generalize position % addressable bits / addressable unitBits = p at *
           intro
           omega)

end Region

end NorFlash
