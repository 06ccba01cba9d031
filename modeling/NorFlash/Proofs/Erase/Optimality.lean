import NorFlash.Proofs.Erase.Layout

/-!
# No cover is better than an erase plan

A range can be covered by aligned units in many ways. A plan takes one with the fewest erases, and
of those the one that clears least, which is the statement of `ofRange_optimal`.

Units nest. So the unit of a cover around the first byte of a range ends no later than the one the
plan begins with, and what is left of the cover without it still covers what the plan goes on with.
If it ends earlier, then a second unit of the cover lies before that place and can be spared as
well: the cover has an erase too many (`Covers.exchange`). If it ends there too, it is at least as
large, because the plan takes the smallest unit of those that reach as far.
-/

namespace NorFlash

namespace EraseUnit

/-- Of two units around a position, the larger one contains the smaller one. -/
theorem clears_around_mono {unit other : EraseUnit} {position place : Nat}
    (hposition : position < UInt32.size) (hsize : unit.size ≤ other.size)
    (hclears : (unit.around position).Clears place) : (other.around position).Clears place := by
  have hdvd : unit.size ∣ other.size := by
    rcases unit.dvd_or_dvd other with hdvd | hdvd
    · exact hdvd
    · have heq := Nat.le_antisymm hsize (Nat.le_of_dvd unit.size_pos hdvd)
      exact heq ▸ Nat.dvd_refl unit.size
  rw [unit.clears_around hposition, mem_unit_iff] at hclears
  rw [other.clears_around hposition, mem_unit_iff]
  obtain ⟨count, hcount⟩ := hdvd
  rw [hcount, ← Nat.div_div_eq_div_mul, ← Nat.div_div_eq_div_mul, hclears]

end EraseUnit

/-- The aligned unit that clears a byte is the one around it. -/
theorem PlannedErase.Clears.eq_around {planned : PlannedErase} {place : Nat}
    (hclears : planned.Clears place) (haligned : planned.unit.size ∣ planned.base.toNat) :
    planned = planned.unit.around place := by
  have hown : planned.unit.baseOf planned.base.toNat = planned.base.toNat :=
    planned.unit.baseOf_of_dvd haligned
  have hsame : place / planned.unit.size = planned.base.toNat / planned.unit.size := by
    rw [← EraseUnit.mem_unit_iff, EraseUnit.limitOf, hown]
    exact hclears
  have hbase : planned.unit.baseOf place = planned.base.toNat := by
    rw [EraseUnit.baseOf_eq_mul, hsame, ← EraseUnit.baseOf_eq_mul, hown]
  rw [EraseUnit.around, hbase, UInt32.ofNat_toNat]

namespace ErasePlan

variable {units : List EraseUnit} {unit other : EraseUnit} {planned : PlannedErase}
  {cover rest : ErasePlan} {start middle stop : Nat}

/-- An erase taken out of a cover makes it smaller by its unit. -/
theorem totalSize_erase (h : planned ∈ cover) :
    cover.totalSize = planned.unit.size + totalSize (cover.erase planned) := by
  induction cover with
  | nil => exact absurd h List.not_mem_nil
  | cons first others ih =>
      by_cases hfirst : first = planned
      · rw [hfirst, List.erase_cons_head, totalSize_cons]
      · have hrest : planned ∈ others := List.mem_of_ne_of_mem (Ne.symm hfirst) h
        rw [List.erase_cons_tail (by simpa using hfirst), totalSize_cons, totalSize_cons, ih hrest]
        omega

/-! ## Covers -/

/-- Aligned units on offer that together clear the addresses from `start` up to `stop`, in any
order, with any overlaps and with any other bytes. -/
structure Covers (units : List EraseUnit) (start stop : Nat) (cover : ErasePlan) : Prop where
  offered : ∀ planned ∈ cover, planned.unit ∈ units
  aligned : ∀ planned ∈ cover, planned.unit.size ∣ planned.base.toNat
  clears : ∀ place, start ≤ place → place < stop → cover.Clears place

/-- An empty range needs no cover. -/
theorem covers_nil (h : stop ≤ start) : Covers units start stop [] where
  offered _ hplanned := absurd hplanned List.not_mem_nil
  aligned _ hplanned := absurd hplanned List.not_mem_nil
  clears place hlow hhigh := by omega

/-- A cover has a unit around each byte of its range. -/
theorem Covers.exists_around (h : Covers units start stop cover) {place : Nat}
    (hlow : start ≤ place) (hhigh : place < stop) :
    ∃ unit ∈ units, unit.around place ∈ cover := by
  obtain ⟨planned, hplanned, hclears⟩ := h.clears place hlow hhigh
  have haround := hclears.eq_around (h.aligned planned hplanned)
  exact ⟨planned.unit, h.offered planned hplanned, haround ▸ hplanned⟩

/-- A cover is extended by the unit in front of it. -/
theorem Covers.cons (h : Covers units (unit.limitOf start) stop rest)
    (hstart : start < UInt32.size) (hunit : unit ∈ units) :
    Covers units start stop (unit.around start :: rest) where
  offered := List.forall_mem_cons.mpr ⟨hunit, h.offered⟩
  aligned := by
    refine List.forall_mem_cons.mpr ⟨?_, h.aligned⟩
    rw [unit.toNat_base_around hstart]
    exact unit.size_dvd_baseOf start
  clears place hlow hhigh := by
    rw [clears_cons]
    have hbase := unit.baseOf_le start
    rcases Nat.lt_or_ge place (unit.limitOf start) with hinside | hafter
    · exact .inl ((unit.clears_around hstart).mpr (by omega))
    · exact .inr (h.clears place hafter hhigh)

/-- A cover can spare a unit that ends where its range begins. -/
theorem Covers.drop (h : Covers units start stop cover) (unit : EraseUnit) {place : Nat}
    (hplace : place < UInt32.size) (hmiddle : start ≤ middle)
    (hends : unit.limitOf place ≤ middle) :
    Covers units middle stop (cover.erase (unit.around place)) where
  offered planned hplanned := h.offered planned (List.mem_of_mem_erase hplanned)
  aligned planned hplanned := h.aligned planned (List.mem_of_mem_erase hplanned)
  clears other hlow hhigh := by
    obtain ⟨planned, hplanned, hclears⟩ := h.clears other (by omega) hhigh
    have hne : planned ≠ unit.around place := by
      intro heq
      rw [heq, unit.clears_around hplace] at hclears
      omega
    exact ⟨planned, (List.mem_erase_of_ne hne).mpr hplanned, hclears⟩

/-! ## Plans against covers -/

/-- A unit on offer that reaches as far as the best one is at least as large. -/
theorem Best.size_le (h : Best units start stop unit) (hother : other ∈ units)
    (hreaches : min (unit.limitOf start) stop ≤ other.limitOf start) : unit.size ≤ other.size := by
  have hunbeaten := h.unbeaten other hother
  have hafter := unit.lt_limitOf start
  rw [isBetter_iff, EraseUnit.gain, EraseUnit.gain] at hunbeaten
  omega

/-- Where the best unit ends within the range, no unit on offer reaches further. -/
theorem Best.limitOf_le (h : Best units start stop unit) (hends : unit.limitOf start < stop)
    (hother : other ∈ units) : other.limitOf start ≤ unit.limitOf start := by
  have hunbeaten := h.unbeaten other hother
  have hafter := unit.lt_limitOf start
  rw [isBetter_iff, EraseUnit.gain, EraseUnit.gain] at hunbeaten
  omega

/-- A cover can spare a unit for the best one, which is no larger, or else it can spare two. -/
theorem Covers.exchange (h : Covers units start stop cover) (hbest : Best units start stop unit)
    (hends : unit.limitOf start < stop) (hstop : stop ≤ UInt32.size) :
    ∃ other : EraseUnit, other.around start ∈ cover ∧
      Covers units (unit.limitOf start) stop (cover.erase (other.around start)) ∧
      (unit.size ≤ other.size ∨ ∃ second ∈ cover.erase (other.around start),
        Covers units (unit.limitOf start) stop
          ((cover.erase (other.around start)).erase second)) := by
  have hafter := unit.lt_limitOf start
  obtain ⟨other, hother, hmem⟩ := h.exists_around (Nat.le_refl start) (by omega)
  have hreach := hbest.limitOf_le hends hother
  have hleft := h.drop other (by omega) (Nat.le_of_lt hafter) hreach
  refine ⟨other, hmem, hleft, ?_⟩
  rcases Nat.lt_or_ge (other.limitOf start) (unit.limitOf start) with hshort | hfar
  · -- The byte after the shorter unit is in another one, which ends no later than the best one.
    have hpast := other.lt_limitOf start
    have hrest := h.drop other (by omega) (Nat.le_of_lt hpast) (Nat.le_refl _)
    obtain ⟨second, hsecond, hmemSecond⟩ := hrest.exists_around (Nat.le_refl _) (by omega)
    have hinside := second.limitOf_le (hbest.aligned hends hsecond) hshort
    exact .inr ⟨_, hmemSecond, hrest.drop second (by omega) (Nat.le_of_lt hshort) hinside⟩
  · exact .inl (hbest.size_le hother (by omega))

/-- No cover of the addresses from `start` up to `stop` has fewer erases than the plan. One with as
few clears all that the plan clears, by units that together are at least as large. -/
structure Optimal (units : List EraseUnit) (start stop : Nat) (plan : ErasePlan) : Prop where
  covers : Covers units start stop plan
  fewest : ∀ cover, Covers units start stop cover → plan.length ≤ cover.length
  smallest : ∀ cover, Covers units start stop cover → cover.length ≤ plan.length →
    plan.totalSize ≤ cover.totalSize
  within : ∀ cover, Covers units start stop cover → cover.length ≤ plan.length →
    ∀ place, plan.Clears place → cover.Clears place

/-- No erase is the best cover of an empty range. -/
theorem optimal_nil (h : stop ≤ start) : Optimal units start stop [] where
  covers := covers_nil h
  fewest _ _ := Nat.zero_le _
  smallest _ _ _ := Nat.zero_le _
  within _ _ _ place hclears := by simp [Clears] at hclears

/-- The best unit alone is the best cover of a range that it reaches the end of. -/
theorem optimal_singleton (hstop : stop ≤ UInt32.size) (hstart : start < stop)
    (hbest : Best units start stop unit) (hreaches : stop ≤ unit.limitOf start) :
    Optimal units start stop [unit.around start] := by
  have hsingle : ∀ cover, Covers units start stop cover → cover.length ≤ 1 →
      ∃ other : EraseUnit, cover = [other.around start] ∧ unit.size ≤ other.size := by
    intro cover hcover hlength
    obtain ⟨other, hother, hmem⟩ := hcover.exists_around (Nat.le_refl start) hstart
    have hone : cover.length = 1 := Nat.le_antisymm hlength (List.length_pos_of_mem hmem)
    obtain ⟨planned, rfl⟩ := List.length_eq_one_iff.mp hone
    obtain rfl := List.mem_singleton.mp hmem
    refine ⟨other, rfl, hbest.size_le hother ?_⟩
    -- The only unit of the cover has the last byte of the range too.
    obtain ⟨planned, hplanned, hlast⟩ := hcover.clears (stop - 1) (by omega) (by omega)
    obtain rfl := List.mem_singleton.mp hplanned
    rw [other.clears_around (by omega)] at hlast
    omega
  constructor
  · exact (covers_nil hreaches).cons (by omega) hbest.offered
  · intro cover hcover
    obtain ⟨other, -, hmem⟩ := hcover.exists_around (Nat.le_refl start) hstart
    exact List.length_pos_of_mem hmem
  · intro cover hcover hlength
    obtain ⟨other, rfl, hsize⟩ := hsingle cover hcover hlength
    rw [totalSize_cons, totalSize_cons]
    exact Nat.add_le_add_right hsize _
  · intro cover hcover hlength place hclears
    obtain ⟨other, rfl, hsize⟩ := hsingle cover hcover hlength
    rw [clears_cons] at hclears ⊢
    exact hclears.imp_left (EraseUnit.clears_around_mono (by omega) hsize)

/-- An optimal plan is extended by the best unit in front of it. -/
theorem Optimal.cons (h : Optimal units (unit.limitOf start) stop rest)
    (hstop : stop ≤ UInt32.size) (hbest : Best units start stop unit)
    (hends : unit.limitOf start < stop) :
    Optimal units start stop (unit.around start :: rest) := by
  have hstart : start < UInt32.size := by
    have hafter := unit.lt_limitOf start
    omega
  -- In a cover with as few erases, no second unit can be spared.
  have hspared : ∀ cover, Covers units start stop cover → cover.length ≤ rest.length + 1 →
      ∃ other : EraseUnit, other.around start ∈ cover ∧ unit.size ≤ other.size ∧
        Covers units (unit.limitOf start) stop (cover.erase (other.around start)) ∧
        (cover.erase (other.around start)).length ≤ rest.length := by
    intro cover hcover hlength
    obtain ⟨other, hmem, hleft, hsize | ⟨second, hsecond, hless⟩⟩ :=
      hcover.exchange hbest hends hstop
    · refine ⟨other, hmem, hsize, hleft, ?_⟩
      rw [List.length_erase_of_mem hmem]
      omega
    · have hfewest := h.fewest _ hless
      have hpositive := List.length_pos_of_mem hsecond
      rw [List.length_erase_of_mem hsecond] at hfewest
      rw [List.length_erase_of_mem hmem] at hfewest hpositive
      omega
  constructor
  · exact h.covers.cons hstart hbest.offered
  · intro cover hcover
    obtain ⟨other, hmem, hleft, -⟩ := hcover.exchange hbest hends hstop
    have hfewest := h.fewest _ hleft
    have hpositive := List.length_pos_of_mem hmem
    rw [List.length_erase_of_mem hmem] at hfewest
    rw [List.length_cons]
    omega
  · intro cover hcover hlength
    obtain ⟨other, hmem, hsize, hleft, hcount⟩ := hspared cover hcover hlength
    rw [totalSize_cons, totalSize_erase hmem]
    exact Nat.add_le_add hsize (h.smallest _ hleft hcount)
  · intro cover hcover hlength place hclears
    obtain ⟨other, hmem, hsize, hleft, hcount⟩ := hspared cover hcover hlength
    rw [clears_cons] at hclears
    rcases hclears with hfirst | hrest
    · exact ⟨_, hmem, EraseUnit.clears_around_mono hstart hsize hfirst⟩
    · obtain ⟨planned, hplanned, hplace⟩ := h.within _ hleft hcount place hrest
      exact ⟨planned, List.mem_of_mem_erase hplanned, hplace⟩

/-- Whichever units are on offer, a plan covers its range with the fewest erases there can be. Of
the covers with as few, none has a smaller size, and none leaves alone a byte that the plan
clears. -/
theorem ofRange_optimal {length : Nat} (hunits : units ≠ [])
    (hend : start + length ≤ UInt32.size) :
    Optimal units start (start + length) (ofRange units start length) := by
  rcases Nat.eq_zero_or_pos length with rfl | hlength
  · rw [ofRange, Nat.add_zero, covering_of_le units (Nat.le_refl start)]
    exact optimal_nil (Nat.le_refl _)
  · refine layout_induction
      (motive := fun position plan => Optimal units position (start + length) plan) hunits
      (fun position unit hposition hbest hreaches => ?_)
      (fun position unit rest hbest hends ih => ?_) (Nat.lt_add_of_pos_right hlength)
    · exact optimal_singleton hend hposition hbest hreaches
    · exact ih.cons hend hbest hends

/-- Without blocks of 32 KiB, the 64 KiB that lie across two blocks cost a sector and a block, and
no two other units cover them. -/
theorem ofRange_optimal_across_blocks :
    let units : List EraseUnit := [.block64K, .sector]
    ofRange units 0xF800 0x10000 = [⟨.sector, 0xF000⟩, ⟨.block64K, 0x10000⟩] ∧
      Optimal units 0xF800 0x1F800 (ofRange units 0xF800 0x10000) := by
  intro units
  exact ⟨by decide +kernel, @ofRange_optimal units 0xF800 0x10000 (by decide) (by decide)⟩

end ErasePlan

end NorFlash
