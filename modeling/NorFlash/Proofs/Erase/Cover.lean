import NorFlash.Proofs.Catalog
import NorFlash.Erase.Plan

/-!
# What an erase plan clears

The units of a plan are aligned. Together they clear the whole range the plan is for, and they lie
inside any device that holds the range and consists of whole units: `clears_covering` and
`fits_covering`. `covering_induction` is the induction along a plan from which both follow: the
first erase is of the chosen unit, and the rest is the plan for what that unit leaves.
-/

namespace NorFlash

namespace EraseUnit

variable (unit : EraseUnit) {position stop capacity : Nat}

/-- A unit begins no later than the position it is around. -/
theorem baseOf_le (position : Nat) : unit.baseOf position ≤ position :=
  Nat.sub_le ..

/-- A unit begins at a multiple of its size. -/
theorem size_dvd_baseOf (position : Nat) : unit.size ∣ unit.baseOf position :=
  Nat.dvd_sub_mod position

/-- A unit begins at any position that is a multiple of its size. -/
theorem baseOf_of_dvd (h : unit.size ∣ position) : unit.baseOf position = position := by
  rw [baseOf, Nat.mod_eq_zero_of_dvd h, Nat.sub_zero]

/-- A unit begins at as many sizes as fit before the position. -/
theorem baseOf_eq_mul (position : Nat) :
    unit.baseOf position = unit.size * (position / unit.size) := by
  have hdiv := Nat.div_add_mod position unit.size
  unfold baseOf
  omega

/-- Two addresses are in one unit if they agree on its number. -/
theorem mem_unit_iff (position place : Nat) :
    unit.baseOf position ≤ place ∧ place < unit.limitOf position ↔
      place / unit.size = position / unit.size := by
  rw [limitOf, baseOf_eq_mul, Nat.mul_comm]
  exact (div_eq_div_iff_between unit.size_pos place position).symm

/-- A device that consists of whole units holds the unit around each of its addresses. -/
theorem limitOf_le (hdvd : unit.size ∣ capacity) (h : position < capacity) :
    unit.limitOf position ≤ capacity := by
  rw [limitOf, baseOf_eq_mul, Nat.mul_comm]
  exact block_end_le hdvd h

/-- The first byte of a unit has an address word, if the position has one. -/
theorem toNat_baseOf (h : position < UInt32.size) :
    (UInt32.ofNat (unit.baseOf position)).toNat = unit.baseOf position :=
  UInt32.toNat_ofNat_of_lt' (Nat.lt_of_le_of_lt (unit.baseOf_le position) h)

/-- The unit around a position clears the range as far as its gain. -/
theorem lt_limitOf_of_lt_gain {place : Nat} (h : place < position + unit.gain position stop) :
    place < unit.limitOf position := by
  unfold gain at h
  have := unit.lt_limitOf position
  omega

/-- A device of at least a block consists of whole units of every size. -/
theorem size_dvd {bits : Nat} (h : 16 ≤ bits) : unit.size ∣ addressable bits :=
  addressable_dvd (Nat.le_trans (by cases unit <;> decide) h)

end EraseUnit

namespace PlannedErase

/-- The erase clears the byte at an address. -/
def Clears (planned : PlannedErase) (place : Nat) : Prop :=
  planned.base.toNat ≤ place ∧ place < planned.base.toNat + planned.unit.size

/-- The erase is of a whole aligned unit inside the device. -/
structure Fits (capacity : Nat) (planned : PlannedErase) : Prop where
  aligned : planned.unit.size ∣ planned.base.toNat
  inside : planned.base.toNat + planned.unit.size ≤ capacity

end PlannedErase

namespace ErasePlan

variable {units : List EraseUnit} {position stop capacity : Nat}

/-- Some erase of the plan clears the byte at an address. -/
def Clears (plan : ErasePlan) (place : Nat) : Prop :=
  ∃ planned ∈ plan, planned.Clears place

/-- A plan clears what its first erase or the rest of it clears. -/
theorem clears_cons (planned : PlannedErase) (rest : ErasePlan) (place : Nat) :
    Clears (planned :: rest) place ↔ planned.Clears place ∨ rest.Clears place := by
  simp [Clears]

/-- A choice that was made is not lost by looking at more units. -/
theorem isSome_foldl_better (units : List EraseUnit) (unit : EraseUnit) (position stop : Nat) :
    (units.foldl (better position stop) (some unit)).isSome = true := by
  induction units generalizing unit with
  | nil => rfl
  | cons other rest ih =>
      simp only [List.foldl_cons, better]
      split
      · exact ih other
      · exact ih unit

/-- If there are units at all, one is chosen. -/
theorem choose_of_ne_nil (h : units ≠ []) (position stop : Nat) :
    ∃ unit, choose units position stop = some unit := by
  cases units with
  | nil => exact absurd rfl h
  | cons unit rest =>
      exact Option.isSome_iff_exists.mp (isSome_foldl_better rest unit position stop)

/-- Induction along a plan. -/
theorem covering_induction {motive : Nat → ErasePlan → Prop} (hunits : units ≠ [])
    (hdone : ∀ position, stop ≤ position → motive position [])
    (hstep : ∀ position unit rest, position < stop → choose units position stop = some unit →
      motive (position + unit.gain position stop) rest →
        motive position (⟨unit, UInt32.ofNat (unit.baseOf position)⟩ :: rest))
    (position : Nat) : motive position (covering units position stop) := by
  -- On what is left of the range, which every erase makes less.
  induction hleft : stop - position using Nat.strongRecOn generalizing position with
  | ind left ih =>
      by_cases h : position < stop
      · obtain ⟨unit, hchoose⟩ := choose_of_ne_nil hunits position stop
        have hgain := unit.gain_pos h
        rw [covering_of_lt h hchoose]
        exact hstep position unit _ h hchoose (ih _ (by omega) _ rfl)
      · rw [covering_of_le units (Nat.le_of_not_lt h)]
        exact hdone position (Nat.le_of_not_lt h)

section Addresses

variable (hunits : units ≠ []) (hstop : stop ≤ UInt32.size)

include hunits hstop

/-- Every erase of a plan fits a device that holds the range and consists of whole units. -/
theorem fits_covering (hcapacity : stop ≤ capacity)
    (hdvd : ∀ unit : EraseUnit, unit.size ∣ capacity) (position : Nat) :
    ∀ planned ∈ covering units position stop, planned.Fits capacity := by
  refine covering_induction (motive := fun _ plan => ∀ planned ∈ plan, planned.Fits capacity) hunits
    (fun _ _ planned hplanned => absurd hplanned List.not_mem_nil)
    (fun position unit rest h _ ih planned hplanned => ?_) position
  rcases List.mem_cons.mp hplanned with rfl | hrest
  · have hbase := unit.toNat_baseOf (Nat.lt_of_lt_of_le h hstop)
    refine ⟨?_, ?_⟩
    · dsimp only
      rw [hbase]
      exact unit.size_dvd_baseOf position
    · dsimp only
      rw [hbase]
      exact unit.limitOf_le (hdvd unit) (Nat.lt_of_lt_of_le h hcapacity)
  · exact ih planned hrest

/-- A plan clears all of its range. -/
theorem clears_covering {place : Nat} (position : Nat) (hstart : position ≤ place)
    (hplace : place < stop) : (covering units position stop).Clears place := by
  revert hstart
  refine covering_induction (motive := fun position plan => position ≤ place → plan.Clears place)
    hunits (fun position hdone hstart => by omega) (fun position unit rest h _ ih => ?_) position
  intro hstart
  rw [clears_cons]
  by_cases hgain : place < position + unit.gain position stop
  · have hbase := unit.toNat_baseOf (Nat.lt_of_lt_of_le h hstop)
    refine .inl ⟨?_, ?_⟩
    · dsimp only
      rw [hbase]
      exact Nat.le_trans (unit.baseOf_le position) hstart
    · dsimp only
      rw [hbase]
      exact unit.lt_limitOf_of_lt_gain hgain
  · exact .inr (ih (by omega))

end Addresses

end ErasePlan

end NorFlash
