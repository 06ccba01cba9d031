/-!
# Addresses

How many bytes a number of address bits tells apart, the aligned blocks that addresses fall into,
and the largest address a caller can name.
-/

namespace NorFlash

/-- The number of bytes that so many address bits tell apart: two to that power. -/
def addressable (bits : Nat) : Nat :=
  Nat.pow 2 bits

/-- However few bits an address has, something can be addressed. -/
theorem addressable_pos (bits : Nat) : 0 < addressable bits :=
  Nat.two_pow_pos bits

/-- Bits in front of an address multiply what can be addressed. -/
theorem addressable_add (first second : Nat) :
    addressable (first + second) = addressable first * addressable second :=
  Nat.pow_add 2 first second

/-- More bits address no less. -/
theorem addressable_le {first second : Nat} (h : first ≤ second) :
    addressable first ≤ addressable second :=
  Nat.pow_le_pow_right (by decide) h

/-- What fewer bits address divides what more bits do. -/
theorem addressable_dvd {first second : Nat} (h : first ≤ second) :
    addressable first ∣ addressable second :=
  Nat.pow_dvd_pow 2 h

/-- The lesser of two addressable sizes is that of the fewer bits. -/
theorem addressable_min (first second : Nat) :
    min (addressable first) (addressable second) = addressable (min first second) := by
  rcases Nat.le_total first second with h | h
  · rw [Nat.min_eq_left h, Nat.min_eq_left (addressable_le h)]
  · rw [Nat.min_eq_right h, Nat.min_eq_right (addressable_le h)]

/-- The greater of two addressable sizes is that of the more bits. -/
theorem addressable_max (first second : Nat) :
    max (addressable first) (addressable second) = addressable (max first second) := by
  rcases Nat.le_total first second with h | h
  · rw [Nat.max_eq_right h, Nat.max_eq_right (addressable_le h)]
  · rw [Nat.max_eq_left h, Nat.max_eq_left (addressable_le h)]

/-- A place lies in the aligned block around another exactly if it lies between the block's ends. -/
theorem div_eq_div_iff_between {size : Nat} (hsize : 0 < size) (place other : Nat) :
    place / size = other / size ↔
      other / size * size ≤ place ∧ place < other / size * size + size := by
  rw [Nat.div_eq_iff hsize]
  omega

/-- Where whole blocks end at a limit, the block around a place below it ends there or before. -/
theorem block_end_le {size limit place : Nat} (hdvd : size ∣ limit) (h : place < limit) :
    place / size * size + size ≤ limit := by
  obtain ⟨blocks, rfl⟩ := hdvd
  have hblock : place / size < blocks := Nat.div_lt_of_lt_mul h
  have hlast := Nat.mul_le_mul_left size (Nat.succ_le_of_lt hblock)
  rwa [Nat.mul_succ, Nat.mul_comm size (place / size)] at hlast

/-- The low bits of a number, one more of them. -/
theorem mod_addressable_succ (n bits : Nat) :
    n % addressable (bits + 1) =
      addressable bits * (n.testBit bits).toNat + n % addressable bits := by
  rw [Nat.toNat_testBit]
  exact Nat.mod_pow_succ.trans (Nat.add_comm ..)

/-- Two numbers have equal low bits when the next bit and the bits below it agree. -/
theorem mod_addressable_succ_eq_iff (bits i j : Nat) :
    i % addressable (bits + 1) = j % addressable (bits + 1) ↔
      i.testBit bits = j.testBit bits ∧ i % addressable bits = j % addressable bits := by
  have hi := Nat.mod_lt i (addressable_pos bits)
  have hj := Nat.mod_lt j (addressable_pos bits)
  rw [mod_addressable_succ, mod_addressable_succ]
  cases i.testBit bits <;> cases j.testBit bits <;> simp <;> omega

/-- The largest address. -/
def lastAddress : Nat :=
  UInt32.size - 1

end NorFlash
