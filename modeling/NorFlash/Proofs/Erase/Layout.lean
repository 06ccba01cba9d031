import Mathlib.Data.List.Chain
import NorFlash.Proofs.Erase.Cover

/-!
# The layout of an erase plan

The units of a plan adjoin. The base of a unit may lie below the position it is chosen for, so this
is not clear from the rule alone. But the unit chosen at a position is the `Best` one there, and
when it ends before the range does, no unit around the position reaches further. A larger one then
ends at the same address, and a smaller one divides it: the plan goes on at an address that is
aligned for every unit it may take (`Best.aligned`). `layout_induction` is the induction along a
plan that this gives.

A best unit is best whatever the order in which the units are looked at, so a plan depends on
nothing but which units are on offer.
-/

namespace NorFlash

namespace EraseUnit

/-- Of two units one consists of whole ones of the other. -/
theorem dvd_or_dvd (unit other : EraseUnit) : unit.size ∣ other.size ∨ other.size ∣ unit.size :=
  (Nat.le_total unit.bits other.bits).imp addressable_dvd addressable_dvd

/-- Units of the same size are the same. -/
theorem size_injective {unit other : EraseUnit} (h : unit.size = other.size) : unit = other := by
  cases unit <;> cases other <;> first | rfl | exact absurd h (by decide)

/-- A unit ends at a multiple of its size. -/
theorem size_dvd_limitOf (unit : EraseUnit) (position : Nat) : unit.size ∣ unit.limitOf position :=
  Nat.dvd_add (unit.size_dvd_baseOf position) (Nat.dvd_refl _)

/-- The erase of the unit around a position. -/
def around (unit : EraseUnit) (position : Nat) : PlannedErase :=
  ⟨unit, UInt32.ofNat (unit.baseOf position)⟩

section Around

variable (unit : EraseUnit) {position : Nat} (h : position < UInt32.size)

include h

/-- The base of a unit fits into an address. -/
theorem toNat_base_around : (unit.around position).base.toNat = unit.baseOf position :=
  unit.toNat_baseOf h

/-- The erase of a unit clears the unit. -/
theorem clears_around {place : Nat} :
    (unit.around position).Clears place ↔
      unit.baseOf position ≤ place ∧ place < unit.limitOf position := by
  rw [PlannedErase.Clears, unit.toNat_base_around h]
  rfl

end Around

end EraseUnit

/-- The only byte of an aligned unit that is aligned itself is the first one. -/
theorem PlannedErase.Clears.base_eq {planned : PlannedErase} {place : Nat}
    (hclears : planned.Clears place) (hbase : planned.unit.size ∣ planned.base.toNat)
    (hplace : planned.unit.size ∣ place) : planned.base.toNat = place := by
  obtain ⟨hlow, hhigh⟩ := hclears
  have hoffset := Nat.eq_zero_of_dvd_of_lt (Nat.dvd_sub hplace hbase) (by omega)
  omega

namespace ErasePlan

variable {units others : List EraseUnit} {unit other : EraseUnit} {position start stop : Nat}

/-- A unit is better if it gains more, or as much with a smaller size. -/
theorem isBetter_iff :
    isBetter position stop unit other = true ↔
      other.gain position stop < unit.gain position stop ∨
        unit.gain position stop = other.gain position stop ∧ unit.size < other.size := by
  simp [isBetter]

/-- No unit on offer is a better choice at a position. -/
structure Best (units : List EraseUnit) (position stop : Nat) (unit : EraseUnit) : Prop where
  offered : unit ∈ units
  unbeaten : ∀ other ∈ units, ¬ isBetter position stop other unit

/-- Of two units at least one is better, unless they are the same. -/
theorem Best.unique (h : Best units position stop unit) (hother : Best units position stop other) :
    unit = other := by
  have hleft := h.unbeaten other hother.offered
  have hright := hother.unbeaten unit h.offered
  rw [isBetter_iff] at hleft hright
  exact EraseUnit.size_injective (by omega)

/-- The best of the better one of two units and of a list is the best of them all. -/
theorem Best.cons_cons {first second : EraseUnit}
    (h : Best ((if isBetter position stop second first then second else first) :: units)
      position stop unit) :
    Best (first :: second :: units) position stop unit := by
  have hoffered := h.offered
  have hwinner := h.unbeaten _ List.mem_cons_self
  refine ⟨?_, fun other hother => ?_⟩
  · split at hoffered <;> simp only [List.mem_cons] at hoffered ⊢ <;> tauto
  · -- The loser is no better than the winner, and the winner no better than the best.
    have hpair : other = first ∨ other = second → ¬ isBetter position stop other unit := by
      rintro (rfl | rfl) <;> split at hwinner <;> rw [isBetter_iff] at * <;> omega
    rw [List.mem_cons, List.mem_cons, ← or_assoc] at hother
    exact hother.elim hpair fun hrest => h.unbeaten other (List.mem_cons_of_mem _ hrest)

/-- Looking at the units in turn finds the best. -/
theorem best_of_foldl (seed : EraseUnit)
    (h : units.foldl (better position stop) (some seed) = some unit) :
    Best (seed :: units) position stop unit := by
  induction units generalizing seed with
  | nil =>
      obtain rfl : seed = unit := Option.some.inj h
      exact ⟨List.mem_cons_self, by simp [isBetter]⟩
  | cons other rest ih =>
      refine Best.cons_cons (ih _ ?_)
      rw [← h, List.foldl_cons, better]
      split <;> rfl

/-- The unit chosen is the best one. -/
theorem choose_eq_some_iff :
    choose units position stop = some unit ↔ Best units position stop unit := by
  have hbest : ∀ unit, choose units position stop = some unit → Best units position stop unit := by
    intro unit h
    cases units with
    | nil => simp [choose] at h
    | cons seed rest => exact best_of_foldl seed h
  refine ⟨hbest unit, fun h => ?_⟩
  obtain ⟨other, hchoose⟩ := choose_of_ne_nil (List.ne_nil_of_mem h.offered) position stop
  rw [hchoose, h.unique (hbest other hchoose)]

section Congruence

variable (hunits : ∀ unit, unit ∈ units ↔ unit ∈ others)

include hunits

/-- The choice depends only on which units are on offer. -/
theorem choose_congr : choose units position stop = choose others position stop :=
  Option.ext fun unit => by
    rw [choose_eq_some_iff, choose_eq_some_iff]
    constructor
    · exact fun h => ⟨(hunits unit).mp h.offered, fun other hother =>
        h.unbeaten other ((hunits other).mpr hother)⟩
    · exact fun h => ⟨(hunits unit).mpr h.offered, fun other hother =>
        h.unbeaten other ((hunits other).mp hother)⟩

/-- A plan depends on which units are on offer, not on their order or on how often each is given. In
particular it makes no difference whether they are sorted by size first. -/
theorem extend_congr (position stop : Nat) (reversed : ErasePlan) :
    extend units position stop reversed = extend others position stop reversed := by
  fun_induction extend units position stop reversed with
  | case1 position reversed h hnone =>
      rw [choose_congr hunits] at hnone
      rw [extend]
      simp [h, hnone]
  | case2 position reversed h unit hunit ih =>
      rw [choose_congr hunits] at hunit
      rw [ih, extend.eq_def others position]
      simp [h, hunit]
  | case3 position reversed h =>
      rw [extend]
      simp [h]

end Congruence

/-- Where the best unit ends within the range, every unit on offer may begin. -/
theorem Best.aligned (h : Best units position stop unit) (hends : unit.limitOf position < stop)
    (hother : other ∈ units) : other.size ∣ unit.limitOf position := by
  rcases unit.dvd_or_dvd other with hlarger | hsmaller
  · -- The larger unit reaches as far, and no further, for then it would be better.
    have hreach : unit.limitOf position ≤ other.limitOf position :=
      unit.limitOf_le (Nat.dvd_trans hlarger (other.size_dvd_limitOf position))
        (other.lt_limitOf position)
    have hunbeaten := h.unbeaten other hother
    rw [isBetter_iff, EraseUnit.gain, EraseUnit.gain] at hunbeaten
    have hafter := unit.lt_limitOf position
    rw [show unit.limitOf position = other.limitOf position by omega]
    exact other.size_dvd_limitOf position
  · exact Nat.dvd_trans hsmaller (unit.size_dvd_limitOf position)

/-- Induction along a plan that clears something: its only erase reaches the end of the range, or
the plan goes on where the first erase ends. Each erase is of the best unit at its position. -/
theorem layout_induction {motive : Nat → ErasePlan → Prop} (hunits : units ≠ [])
    (hlast : ∀ position unit, position < stop → Best units position stop unit →
      stop ≤ unit.limitOf position → motive position [unit.around position])
    (hnext : ∀ position unit rest, Best units position stop unit → unit.limitOf position < stop →
      motive (unit.limitOf position) rest → motive position (unit.around position :: rest))
    (h : position < stop) : motive position (covering units position stop) := by
  refine covering_induction
    (motive := fun position plan => (stop ≤ position → plan = []) ∧
      (position < stop → motive position plan)) hunits
    (fun position hdone => ⟨fun _ => rfl, fun h => by omega⟩)
    (fun position unit rest h hchoose ih => ⟨fun hdone => by omega, fun _ => ?_⟩) position |>.2 h
  have hbest := choose_eq_some_iff.mp hchoose
  have hafter := unit.lt_limitOf position
  rw [EraseUnit.gain] at ih
  rcases Nat.lt_or_ge (unit.limitOf position) stop with hends | hreaches
  · rw [show position + (min (unit.limitOf position) stop - position) = unit.limitOf position by
      omega] at ih
    exact hnext position unit rest hbest hends (ih.2 hends)
  · rw [ih.1 (by omega)]
    exact hlast position unit h hbest hreaches

/-- How the erases of a plan lie over the addresses from `start` up to `stop`. -/
structure Layout (units : List EraseUnit) (start stop : Nat) (plan : ErasePlan) : Prop where
  offered : ∀ planned ∈ plan, planned.unit ∈ units
  aligned : ∀ planned ∈ plan, planned.unit.size ∣ planned.base.toNat
  /-- Every erase clears a byte of the range. -/
  needed : ∀ planned ∈ plan, ∃ place, start ≤ place ∧ place < stop ∧ planned.Clears place
  /-- Every unit begins where the one before it ends. -/
  adjoining : plan.IsChain fun planned next =>
    next.base.toNat = planned.base.toNat + planned.unit.size
  /-- The plan begins with the unit around the first byte of the range, it ends with the one around
  the last byte, and its size is the distance from its first base to its end. -/
  ends : ∃ first last, plan.head? = some first ∧ plan.getLast? = some last ∧
    first.Clears start ∧ last.Clears (stop - 1) ∧
    last.base.toNat + last.unit.size = first.base.toNat + plan.totalSize

/-- One unit that reaches the end of the range is laid out over it. -/
theorem layout_singleton (hstart : start < UInt32.size) (h : start < stop) (hunit : unit ∈ units)
    (hreaches : stop ≤ unit.limitOf start) : Layout units start stop [unit.around start] := by
  have hbase := unit.baseOf_le start
  have hlimit := unit.lt_limitOf start
  have hclears : ∀ place, start ≤ place → place < stop → (unit.around start).Clears place :=
    fun place hlow hhigh => (unit.clears_around hstart).mpr (by omega)
  constructor
  · simpa [EraseUnit.around] using hunit
  · refine List.forall_mem_singleton.mpr ?_
    rw [unit.toNat_base_around hstart]
    exact unit.size_dvd_baseOf start
  · simpa using ⟨start, Nat.le_refl _, h, hclears start (Nat.le_refl _) h⟩
  · exact List.isChain_singleton _
  · refine ⟨_, _, rfl, rfl, hclears _ (Nat.le_refl _) h, hclears _ (by omega) (by omega), ?_⟩
    simp [totalSize]

/-- A layout is extended by the unit in front of it. -/
theorem Layout.cons {rest : ErasePlan} (h : Layout units (unit.limitOf start) stop rest)
    (hstart : start < UInt32.size) (hunit : unit ∈ units) (hends : unit.limitOf start < stop)
    (haligned : ∀ other ∈ units, other.size ∣ unit.limitOf start) :
    Layout units start stop (unit.around start :: rest) := by
  have hbase := unit.baseOf_le start
  have hlimit := unit.lt_limitOf start
  have hclears : (unit.around start).Clears start := (unit.clears_around hstart).mpr (by omega)
  obtain ⟨second, last, hhead, hlast, hsecond, hlastClears, hextent⟩ := h.ends
  have hmem := List.mem_of_mem_head? hhead
  have hbegins : second.base.toNat = unit.limitOf start :=
    hsecond.base_eq (h.aligned second hmem) (haligned _ (h.offered second hmem))
  have hadjoins : second.base.toNat =
      (unit.around start).base.toNat + (unit.around start).unit.size := by
    rw [hbegins, unit.toNat_base_around hstart]
    rfl
  constructor
  · exact List.forall_mem_cons.mpr ⟨hunit, h.offered⟩
  · refine List.forall_mem_cons.mpr ⟨?_, h.aligned⟩
    rw [unit.toNat_base_around hstart]
    exact unit.size_dvd_baseOf start
  · refine List.forall_mem_cons.mpr ⟨⟨start, Nat.le_refl _, by omega, hclears⟩, ?_⟩
    intro planned hplanned
    obtain ⟨place, hlow, hhigh, hplace⟩ := h.needed planned hplanned
    exact ⟨place, by omega, hhigh, hplace⟩
  · refine List.isChain_cons.mpr ⟨fun next hnext => ?_, h.adjoining⟩
    obtain rfl := Option.some.inj (hhead.symm.trans hnext)
    exact hadjoins
  · refine ⟨_, last, rfl, ?_, hclears, hlastClears, ?_⟩
    · rw [List.getLast?_cons, hlast]
      rfl
    · rw [totalSize_cons, hextent, hadjoins]
      omega

/-- The plan for a range is laid out over it. -/
theorem layout_covering (hunits : units ≠ []) (hstop : stop ≤ UInt32.size) (h : start < stop) :
    Layout units start stop (covering units start stop) := by
  refine layout_induction (motive := fun start plan => Layout units start stop plan) hunits
    (fun start unit h hbest hreaches => ?_) (fun start unit rest hbest hends ih => ?_) h
  · exact layout_singleton (by omega) h hbest.offered hreaches
  · have := unit.lt_limitOf start
    exact ih.cons (by omega) hbest.offered hends fun _ => hbest.aligned hends

/-- A plan has no more erases than its range has bytes. -/
theorem length_covering_le (hunits : units ≠ []) (position : Nat) :
    (covering units position stop).length ≤ stop - position := by
  refine covering_induction (motive := fun position plan => plan.length ≤ stop - position) hunits
    (fun _ _ => Nat.zero_le _) (fun position unit rest h _ ih => ?_) position
  have hgain := unit.gain_pos h
  rw [List.length_cons]
  omega

/-- Only an empty range needs no erase. -/
theorem covering_eq_nil_iff (hunits : units ≠ []) :
    covering units position stop = [] ↔ stop ≤ position := by
  refine ⟨fun h => ?_, covering_of_le units⟩
  by_contra hposition
  obtain ⟨unit, hchoose⟩ := choose_of_ne_nil hunits position stop
  rw [covering_of_lt (by omega) hchoose] at h
  exact List.cons_ne_nil _ _ h

/-- Planning ends after at most one erase for each byte of the range, with a plan whose aligned
units lie over the range without a gap or an overlap. Which plan that is depends on the set of the
units on offer only. -/
theorem ofRange_adjoins {length : Nat} (hunits : units ≠ [])
    (hend : start + length ≤ UInt32.size) :
    (ofRange units start length).length ≤ length ∧
      (ofRange units start length = [] ↔ length = 0) ∧
      (length ≠ 0 → Layout units start (start + length) (ofRange units start length)) ∧
      ∀ others, (∀ unit, unit ∈ units ↔ unit ∈ others) →
        ofRange others start length = ofRange units start length := by
  refine ⟨?_, ?_, fun hlength => ?_, fun others hothers => ?_⟩
  · have hlength : (ofRange units start length).length ≤ start + length - start :=
      length_covering_le hunits start
    rwa [Nat.add_sub_cancel_left] at hlength
  · rw [ofRange, covering_eq_nil_iff hunits]
    omega
  · exact layout_covering hunits hend (by omega)
  · exact (extend_congr hothers start (start + length) []).symm

/-- The last 68 KiB of all addresses, with the units in no order and one of them twice. -/
theorem ofRange_adjoins_at_end_of_addresses :
    let units : List EraseUnit := [.block64K, .sector, .block32K, .sector]
    ofRange units 0xFFFEF000 0x11000 = [⟨.sector, 0xFFFEF000⟩, ⟨.block64K, 0xFFFF0000⟩] ∧
      Layout units 0xFFFEF000 0x100000000 (ofRange units 0xFFFEF000 0x11000) ∧
      ofRange EraseUnit.all 0xFFFEF000 0x11000 = ofRange units 0xFFFEF000 0x11000 := by
  intro units
  obtain ⟨-, -, hlayout, hsame⟩ :=
    @ofRange_adjoins units 0xFFFEF000 0x11000 (by decide) (by decide)
  exact ⟨by decide +kernel, hlayout (by decide), hsame EraseUnit.all fun unit => by
    cases unit <;> decide⟩

end ErasePlan

end NorFlash
