import NorFlash.Proofs.Engine.Storing
import NorFlash.Proofs.Erase.Cover

/-!
# An erase that succeeds has cleared its units

`erase_takes_effect` says that an erase which succeeds was heard, whatever state the chip was in,
and cleared the unit around its address, or the whole chip, or the units of the plan for its range.
Those units lie inside the device and clear the range as a whole. No erase changes a byte outside
them.
-/

namespace NorFlash

namespace EraseKind

/-- The erase at an address clears the byte at a place. -/
def Clears (kind : EraseKind) (address place : Nat) : Prop :=
  match kind with
  | .unit area => area.baseOf address ≤ place ∧ place < area.limitOf address
  | .chip => True

/-- An erase clears what it is to clear. -/
theorem cleared_clear (kind : EraseKind) {address : Nat} {memory : Memory}
    (h : kind ≠ .chip → address < memory.size) :
    Memory.Cleared (kind.Clears address) memory (kind.clear address memory) := by
  cases kind with
  | unit area =>
      have haddress := h (by simp)
      have hbyte : ∀ place, place < memory.size →
          ((EraseKind.unit area).clear address memory).byteAt place =
            if area.baseOf address ≤ place ∧ place < area.limitOf address then Bytes.erased
            else memory.byteAt place := by
        intro place hplace
        have hunit : addressable area.bits = area.size := rfl
        rw [clear, Memory.byteAt_eraseUnit, Memory.index_of_lt hplace,
          Memory.index_of_lt haddress, hunit]
        simp only [area.mem_unit_iff]
      refine ⟨⟨rfl, fun place hplace hspared => ?_⟩, fun place hplace hcleared => ?_⟩
      · exact (hbyte place hplace).trans (if_neg hspared)
      · exact (hbyte place hplace).trans (if_pos hcleared)
  | chip =>
      refine ⟨⟨rfl, fun _ _ hspared => absurd trivial hspared⟩, fun place hplace _ => ?_⟩
      have hindex : ∀ address, memory.index address / addressable memory.bits = 0 :=
        fun address => Nat.div_eq_of_lt (memory.index_lt address)
      rw [clear, Memory.byteAt_eraseUnit, hindex, hindex, if_pos rfl]

/-- The erase of an aligned unit clears what is planned. -/
theorem clears_planned {planned : PlannedErase} (h : planned.unit.size ∣ planned.base.toNat) :
    (EraseKind.unit planned.unit).Clears planned.base.toNat = planned.Clears := by
  funext place
  simp only [Clears, EraseUnit.limitOf, planned.unit.baseOf_of_dvd h, PlannedErase.Clears]

end EraseKind

namespace Operation

/-- The address and the length of an erase of a range, whichever way it reports progress. -/
def erasedRange? : Operation → Option (UInt32 × Nat)
  | eraseRange address length | eraseRangeReporting address length
  | eraseRangeMetered address length => some (address, length)
  | _ => none

end Operation

namespace Engine

variable {engine : Engine} {identity : Identity} {id : JedecId} {bench after : Bench}
  {width : BusWidth}

/-- An engine goes on serving a chip that keeps its mode and size. -/
theorem Serving.kept (h : engine.Serving id identity width bench)
    (hfree : after.Free (· = width)) (hmode : after.chip.mode = bench.chip.mode)
    (hbits : after.chip.memory.bits = bench.chip.memory.bits) :
    engine.Serving id identity width after :=
  ⟨⟨h.attuned.identity, hfree, h.attuned.hears.of_mode hmode⟩, h.knows, hbits.trans h.bits⟩

/-- An erase that is heard clears what its kind says, or it fails. -/
theorem ends_erase (h : engine.Serving id identity width bench) (address : UInt32)
    (kind : EraseKind) :
    (engine.erase address kind).Ends Bench.environment
      (fun _ after => engine.Serving id identity width after ∧
        Memory.Cleared (kind.Clears address.toNat) bench.chip.memory after.chip.memory ∧
        (kind ≠ .chip → address.toNat < bench.chip.memory.size))
      (fun _ after =>
        Memory.Spared (kind.Clears address.toNat) bench.chip.memory after.chip.memory) bench := by
  have hcleared : ∀ after, Erased identity address kind bench after →
      Memory.Cleared (kind.Clears address.toNat) bench.chip.memory after.chip.memory ∧
        (kind ≠ .chip → address.toNat < bench.chip.memory.size) := by
    intro after hafter
    have hwithin : kind ≠ .chip → address.toNat < bench.chip.memory.size := by
      rw [h.size_eq]
      exact hafter.within
    exact ⟨hafter.memory ▸ kind.cleared_clear hwithin, hwithin⟩
  refine ((ends_erase_memory h.attuned address kind).and_run (ends_kept h.attuned
    (engine.orderly_erase address kind) (kind.keepsMode))).mono ?_ ?_
  · rintro _ after ⟨hafter, hfree, hmode⟩
    obtain ⟨hmemory, hwithin⟩ := hcleared after hafter
    exact ⟨h.kept hfree hmode hmemory.bits, hmemory, hwithin⟩
  · rintro fault after ⟨hmemory | hafter, -, -⟩
    · exact .of_eq hmemory
    · exact (hcleared after hafter).1.toSpared

/-- The erases of a plan clear its units one after the other. -/
theorem ends_erasePlanned (h : engine.Serving id identity width bench) (plan : ErasePlan)
    (total : Nat) (hfits : ∀ planned ∈ plan, planned.Fits bench.chip.memory.size) :
    (engine.erasePlanned plan total).Ends Bench.environment
      (fun _ after => Memory.Cleared plan.Clears bench.chip.memory after.chip.memory)
      (fun _ after => Memory.Spared plan.Clears bench.chip.memory after.chip.memory) bench := by
  induction plan generalizing bench total with
  | nil => exact Memory.cleared_nothing _ fun place hplace => by simp [ErasePlan.Clears] at hplace
  | cons planned rest ih =>
      have hunit := EraseKind.clears_planned (hfits planned List.mem_cons_self).aligned
      have hplan := ErasePlan.clears_cons planned rest
      unfold erasePlanned
      rw [Action.ends_bind]
      refine (ends_erase h planned.base (.unit planned.unit)).mono ?_ ?_
      · rintro _ middle ⟨hserving, hcleared, -⟩
        rw [hunit] at hcleared
        rw [Action.ends_bind, Action.ends_report]
        have hreported : engine.Serving id identity width (middle.withReports
            (middle.reports.push (total + planned.unit.size))) :=
          hserving.kept hserving.attuned.bus rfl rfl
        refine (ih hreported _ fun next hnext => ?_).mono ?_ ?_
        · have hsize : middle.chip.memory.size = bench.chip.memory.size := hcleared.size
          exact hsize.symm ▸ hfits next (List.mem_cons_of_mem _ hnext)
        · exact fun _ after hafter => hcleared.trans hafter hplan
        · exact fun fault after hafter =>
            hcleared.toSpared.trans hafter fun place => (hplan place).mpr
      · intro fault after hspared
        rw [hunit] at hspared
        exact hspared.mono fun place hplace => (hplan place).mpr (.inl hplace)

/-- An erase took effect: its unit lies inside the device, and was cleared. -/
structure Cleared (address : Nat) (kind : EraseKind) (bench after : Bench) : Prop where
  inside : ∀ area, kind = .unit area → area.limitOf address ≤ bench.chip.memory.size
  cleared : Memory.Cleared (kind.Clears address) bench.chip.memory after.chip.memory

/-- An erase of a range took effect: its units clear the range, lie inside the device, and were
cleared. -/
structure ClearedRange (address : UInt32) (length : Nat) (bench after : Bench) : Prop where
  covers : ∀ place, address.toNat ≤ place → place < address.toNat + length →
    (erasePlan address length).Clears place
  inside : ∀ place, (erasePlan address length).Clears place → place < bench.chip.memory.size
  cleared : Memory.Cleared (erasePlan address length).Clears bench.chip.memory after.chip.memory

section Identified

variable (h : engine.Identified identity bench) (htruthful : bench.Truthful)

include h

/-- The device consists of whole units. -/
theorem Identified.size_dvd (unit : EraseUnit) : unit.size ∣ bench.chip.memory.size := by
  have hbits := h.knows.capacityBits_le
  rw [← h.bits] at hbits
  exact unit.size_dvd hbits

/-- The memory of an identified device takes at most 24 bits to address. -/
theorem Identified.size_le : bench.chip.memory.size ≤ addressable 24 :=
  h.size_eq ▸ h.knows.capacity_le

/-- The memory of an identified device can be addressed by words. -/
theorem Identified.size_le_addresses : bench.chip.memory.size ≤ UInt32.size :=
  Nat.le_trans h.size_le (by decide)

include htruthful

/-- An erase clears its unit, or spares everything outside it. -/
theorem ends_erase_identified (address : UInt32) (kind : EraseKind) :
    (engine.erase address kind).Ends Bench.environment
      (fun _ after => Cleared address.toNat kind bench after)
      (fun _ after =>
        Memory.Spared (kind.Clears address.toNat) bench.chip.memory after.chip.memory) bench := by
  by_cases hreaches : bench.Reaches
  · obtain ⟨bus, hbus, hhears⟩ := hreaches
    refine (ends_erase (h.serving hbus hhears) address kind).mono ?_ fun _ _ hafter => hafter
    rintro _ after ⟨-, hcleared, hwithin⟩
    refine ⟨?_, hcleared⟩
    rintro area rfl
    exact area.limitOf_le (h.size_dvd area) (hwithin (by simp))
  · refine (ends_erase_unheard hreaches htruthful address kind).mono ?_ ?_
    · exact fun _ _ hnever => absurd hnever id
    · exact fun fault after hafter => .of_eq hafter

/-- An erase of a range that reports clears the range, or spares everything outside its plan. -/
theorem ends_eraseRangeReporting_identified (address : UInt32) (length : Nat) :
    (engine.eraseRangeReporting address length).Ends Bench.environment
      (fun _ after => ClearedRange address length bench after)
      (fun _ after => Memory.Spared (erasePlan address length).Clears bench.chip.memory
        after.chip.memory) bench := by
  unfold eraseRangeReporting
  rw [requireDevice_of_identity h.identity_eq, Action.ends_bind, Action.ends_discard,
    Action.ends_ofExcept]
  show Action.Ends _ (if _ then _ else _) _ _ _
  split
  · rename_i hempty
    subst hempty
    have hnothing : ∀ place, ¬(erasePlan address 0).Clears place := by
      intro place
      simp [erasePlan, ErasePlan.ofRange, ErasePlan.covering_of_le, ErasePlan.Clears]
    exact ⟨fun place hstart hplace => by omega,
      fun place hplace => absurd hplace (hnothing place), Memory.cleared_nothing _ hnothing⟩
  · rename_i hlength
    rw [Action.ends_bind, Action.ends_ofExcept]
    obtain ⟨hrange, hcheck⟩ | ⟨-, fault, hcheck⟩ :=
      checkRange_of_identity h.identity_eq address length
    · rw [← h.size_eq] at hrange
      rw [hcheck]
      show Action.Ends _ (_ >>= _) _ _ _
      rw [Action.ends_bind, Action.ends_report]
      have hunits : EraseUnit.all ≠ [] := by simp [EraseUnit.all]
      have hstop := Nat.le_trans hrange h.size_le_addresses
      have hfits : ∀ planned ∈ erasePlan address length, planned.Fits bench.chip.memory.size :=
        ErasePlan.fits_covering hunits hstop hrange h.size_dvd address.toNat
      have hcovers : ∀ place, address.toNat ≤ place → place < address.toNat + length →
          (erasePlan address length).Clears place :=
        fun place => ErasePlan.clears_covering hunits hstop address.toNat
      have hinside : ∀ place, (erasePlan address length).Clears place →
          place < bench.chip.memory.size := by
        rintro place ⟨planned, hplanned, -, hplace⟩
        exact Nat.lt_of_lt_of_le hplace (hfits planned hplanned).inside
      by_cases hreaches : bench.Reaches
      · obtain ⟨bus, hbus, hhears⟩ := hreaches
        have hserving := h.serving hbus hhears
        have hreported : engine.Serving bench.chip.id identity bus.width
            (bench.withReports (bench.reports.push 0)) :=
          hserving.kept hserving.attuned.bus rfl rfl
        refine (ends_erasePlanned hreported (erasePlan address length) 0 hfits).mono ?_ ?_
        · exact fun _ after hcleared => ⟨hcovers, hinside, hcleared⟩
        · exact fun fault after hspared => hspared
      · have hunreached : ¬(bench.withReports (bench.reports.push 0)).Reaches := hreaches
        cases hplan : erasePlan address length with
        | nil =>
            obtain ⟨planned, hplanned, -⟩ := hcovers address.toNat (by omega) (by omega)
            simp [hplan] at hplanned
        | cons planned rest =>
            -- The first unit already fails, so nothing is erased.
            unfold erasePlanned
            rw [Action.ends_bind]
            refine (ends_erase_unheard hunreached (htruthful.congr rfl rfl rfl) _ _).mono ?_ ?_
            · exact fun _ _ hnever => absurd hnever id
            · exact fun fault after hafter => .of_eq hafter
    · rw [hcheck]
      exact .of_eq rfl

/-- An erase of a range clears it, or spares everything outside its plan. -/
theorem ends_eraseRange_identified (address : UInt32) (length : Nat) :
    (engine.eraseRange address length).Ends Bench.environment
      (fun _ after => ClearedRange address length bench after)
      (fun _ after => Memory.Spared (erasePlan address length).Clears bench.chip.memory
        after.chip.memory) bench := by
  refine Action.ends_silenced
    ((ends_eraseRangeReporting_identified h htruthful address length).mono ?_ ?_)
  · exact fun _ after hafter => ⟨hafter.covers, hafter.inside, hafter.cleared⟩
  · exact fun fault after hafter => hafter

/-- A metered erase of a range clears it, or spares everything outside its plan. -/
theorem ends_eraseRangeMetered_identified (address : UInt32) (length : Nat) :
    (engine.eraseRangeMetered address length).Ends Bench.environment
      (fun _ after => ClearedRange address length bench after)
      (fun _ after => Memory.Spared (erasePlan address length).Clears bench.chip.memory
        after.chip.memory) bench := by
  unfold eraseRangeMetered
  rw [Action.ends_bind, Action.ends_discard, Action.ends_ofExcept]
  cases engine.requireDevice with
  | error fault => exact .of_eq rfl
  | ok device =>
      show Action.Ends _ (_ >>= _) _ _ _
      rw [Action.ends_bind, Action.ends_ofExcept]
      cases engine.checkRange address length with
      | error fault => exact .of_eq rfl
      | ok _ => exact ends_eraseRange_identified h htruthful address length

/-- An erase that succeeds has cleared what it was for, and no erase changes anything else. -/
theorem erase_takes_effect :
    (∀ address kind, (engine.perform (.erase address kind)).Ends Bench.environment
      (fun outcome after =>
        (outcome.result.isOk → Cleared address.toNat kind bench after) ∧
        Memory.Spared (kind.Clears address.toNat) bench.chip.memory after.chip.memory) bench) ∧
    ∀ operation address length, operation.erasedRange? = some (address, length) →
      (engine.perform operation).Ends Bench.environment
        (fun outcome after =>
          (outcome.result.isOk → ClearedRange address length bench after) ∧
          Memory.Spared (erasePlan address length).Clears bench.chip.memory after.chip.memory)
        bench := by
  refine ⟨fun address kind => ?_, fun operation address length hoperation => ?_⟩
  · exact Action.ends_outcome (ends_erase_identified h htruthful address kind)
      fun after hafter => hafter.cleared.toSpared
  · have hspared : ∀ after, ClearedRange address length bench after →
        Memory.Spared (erasePlan address length).Clears bench.chip.memory after.chip.memory :=
      fun after hafter => hafter.cleared.toSpared
    cases operation with
    | eraseRange =>
        obtain ⟨rfl, rfl⟩ := Prod.mk.inj (Option.some.inj hoperation)
        exact Action.ends_outcome (ends_eraseRange_identified h htruthful _ _) hspared
    | eraseRangeReporting =>
        obtain ⟨rfl, rfl⟩ := Prod.mk.inj (Option.some.inj hoperation)
        exact Action.ends_outcome (ends_eraseRangeReporting_identified h htruthful _ _) hspared
    | eraseRangeMetered =>
        obtain ⟨rfl, rfl⟩ := Prod.mk.inj (Option.some.inj hoperation)
        exact Action.ends_outcome (ends_eraseRangeMetered_identified h htruthful _ _) hspared
    | _ => simp [Operation.erasedRange?] at hoperation

end Identified

/-- A range across two units, around bytes that are not erased, on a chip in quad protocol. -/
theorem erase_takes_effect_across_units :
    let identity : Identity :=
      ⟨Catalog.winbond, ⟨0x4015, "W25Q16DV", 4096, false, 8, some .quad⟩⟩
    let chip := { (Chip.fresh ⟨0xEF, 0x4015⟩).overwrite 0x7FFF [0x11, 0x22] with
      quad := true, completion := .delayed 3 }
    let bench := { Bench.ofChip chip with bus := some ⟨.quad, false⟩, deliveries := [⟨⟨0⟩, 5⟩] }
    let ended := ((Engine.mk .standard (some identity)).perform (.eraseRange 0x8000 0x9000)).run
      Bench.environment bench
    ended.1.result.isOk = true ∧ ended.2.chip.memory.byteAt 0x7FFF = 0x11 ∧
      ended.2.chip.memory.byteAt 0x8000 = Bytes.erased := by
  intro identity chip bench ended
  have hidentified : (Engine.mk .standard (some identity)).Identified identity bench :=
    ⟨rfl, rfl, rfl⟩
  have htruthful : bench.Truthful :=
    ⟨⟨rfl, by decide⟩, ⟨rfl, by decide⟩⟩
  have h := (erase_takes_effect hidentified htruthful).2 (.eraseRange 0x8000 0x9000) _ _ rfl
  have hok : ended.1.result.isOk = true := by decide +kernel
  obtain ⟨heffect, -⟩ := h
  obtain ⟨hcovers, -, hcleared⟩ := heffect hok
  have hplan : erasePlan 0x8000 0x9000 = [⟨.block32K, 0x8000⟩, ⟨.sector, 0x10000⟩] := by
    decide +kernel
  have hspared : ¬(erasePlan 0x8000 0x9000).Clears 0x7FFF := by
    rw [hplan]
    simp [ErasePlan.Clears, PlannedErase.Clears]
  exact ⟨hok, (hcleared.byteAt 0x7FFF (by decide) hspared).trans (by decide),
    hcleared.erased 0x8000 (by decide) (hcovers _ (by decide) (by decide))⟩

end Engine

end NorFlash
