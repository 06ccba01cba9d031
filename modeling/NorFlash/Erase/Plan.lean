import NorFlash.Erase.Unit

/-!
# Erase plans

An erase plan covers a range of addresses by aligned erase units. From each position it takes the
unit that clears most of what is left of the range, and the smallest of those, so units adjoin and
none clears more outside the range than it has to. `ErasePlan.covering_of_lt` is the step of that
rule.
-/

namespace NorFlash

/-- One erase of a plan: a unit, and the address of its first byte. -/
structure PlannedErase where
  unit : EraseUnit
  base : UInt32
  deriving DecidableEq

/-- The erases of a plan in the order they are made. -/
abbrev ErasePlan := List PlannedErase

namespace EraseUnit

/-- The first byte of the unit around `position`. -/
def baseOf (unit : EraseUnit) (position : Nat) : Nat :=
  position - position % unit.size

/-- The first byte after the unit around `position`. -/
def limitOf (unit : EraseUnit) (position : Nat) : Nat :=
  unit.baseOf position + unit.size

/-- The bytes between `position` and `stop` that the unit around `position` clears. -/
def gain (unit : EraseUnit) (position stop : Nat) : Nat :=
  min (unit.limitOf position) stop - position

/-- The unit around a position ends after it. -/
theorem lt_limitOf (unit : EraseUnit) (position : Nat) : position < unit.limitOf position := by
  have := Nat.mod_lt position unit.size_pos
  have := Nat.mod_le position unit.size
  unfold limitOf baseOf
  omega

/-- A unit erases something of what is left to erase. -/
theorem gain_pos (unit : EraseUnit) {position stop : Nat} (h : position < stop) :
    0 < unit.gain position stop := by
  have := unit.lt_limitOf position
  unfold gain
  omega

end EraseUnit

namespace ErasePlan

/-- The better choice at a position: more of the range cleared, or as much by a smaller unit. -/
def isBetter (position stop : Nat) (unit than : EraseUnit) : Bool :=
  unit.gain position stop > than.gain position stop ||
    (unit.gain position stop == than.gain position stop && unit.size < than.size)

/-- The best choice seen so far, after looking at one more unit. -/
def better (position stop : Nat) (best : Option EraseUnit) (unit : EraseUnit) : Option EraseUnit :=
  match best with
  | none => some unit
  | some other => if isBetter position stop unit other then some unit else best

/-- The unit to erase at a position, or `none` if there are no units to choose from. -/
def choose (units : List EraseUnit) (position stop : Nat) : Option EraseUnit :=
  units.foldl (better position stop) none

/-- Extends a plan, given last erase first, from `position` to `stop`. -/
def extend (units : List EraseUnit) (position stop : Nat) (reversed : ErasePlan) : ErasePlan :=
  if _h : position < stop then
    match choose units position stop with
    | none => reversed.reverse
    | some unit =>
        extend units (position + unit.gain position stop) stop
          (⟨unit, UInt32.ofNat (unit.baseOf position)⟩ :: reversed)
  else
    reversed.reverse
termination_by stop - position
decreasing_by
  have := unit.gain_pos _h
  omega

/-- The plan that covers the addresses from `position` up to `stop`, `stop` excluded. -/
def covering (units : List EraseUnit) (position stop : Nat) : ErasePlan :=
  extend units position stop []

/-- The plan that covers `length` bytes from `start`. -/
def ofRange (units : List EraseUnit) (start length : Nat) : ErasePlan :=
  covering units start (start + length)

/-- The bytes the plan clears. -/
def totalSize (plan : ErasePlan) : Nat :=
  plan.foldl (fun total erase => total + erase.unit.size) 0

/-- Adding up the sizes of a plan from some number on adds its total to that number. -/
theorem foldl_size (plan : ErasePlan) (start : Nat) :
    plan.foldl (fun total erase => total + erase.unit.size) start = start + plan.totalSize := by
  unfold totalSize
  induction plan generalizing start with
  | nil => rfl
  | cons erase rest ih =>
      rw [List.foldl_cons, List.foldl_cons, ih, ih (0 + erase.unit.size)]
      omega

/-- The total of a plan is that of its first erase and of the rest. -/
theorem totalSize_cons (erase : PlannedErase) (rest : ErasePlan) :
    totalSize (erase :: rest) = erase.unit.size + totalSize rest := by
  rw [totalSize, List.foldl_cons, foldl_size, Nat.zero_add]

/-- What has been planned already stands in front of what is planned next. -/
theorem extend_append (units : List EraseUnit) (position stop : Nat) (first last : ErasePlan) :
    extend units position stop (last ++ first) =
      first.reverse ++ extend units position stop last := by
  fun_induction extend units position stop last with
  | case1 position last h hnone => rw [extend]; simp [h, hnone]
  | case2 position last h unit hunit ih => rw [extend]; simpa [h, hunit] using ih
  | case3 position last h => rw [extend]; simp [h]

/-- Nothing is planned once the range is covered. -/
theorem covering_of_le (units : List EraseUnit) {position stop : Nat} (h : stop ≤ position) :
    covering units position stop = [] := by
  rw [covering, extend]
  simp [Nat.not_lt.mpr h]

/-- The first erase is of the chosen unit, and the rest covers what that unit does not clear. -/
theorem covering_of_lt {units : List EraseUnit} {position stop : Nat} {unit : EraseUnit}
    (h : position < stop) (hchoose : choose units position stop = some unit) :
    covering units position stop =
      ⟨unit, UInt32.ofNat (unit.baseOf position)⟩ ::
        covering units (position + unit.gain position stop) stop := by
  rw [covering, extend]
  simpa [h, hchoose, covering] using
    extend_append units (position + unit.gain position stop) stop
      [⟨unit, UInt32.ofNat (unit.baseOf position)⟩] []

end ErasePlan

end NorFlash
