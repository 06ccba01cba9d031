import NorFlash.Bench.Basic
import NorFlash.BlockDevice
import NorFlash.Proofs.Engine.Checks
import NorFlash.Proofs.Page

/-!
# A block device checks first

A block device checks the blocks it is asked for before it asks anything of its engine, and what it
then asks of the engine passes the engine's checks: `checked_serve`. `rejection_is_exact` puts
together what that means for a caller. A range is rejected exactly if it ends beyond the capacity,
and whatever was rejected, nothing was said to the surroundings and nothing changed.
-/

namespace NorFlash

variable {σ : Type}

namespace BlockDevice

open Engine

variable {device : BlockDevice} {found : Descriptor} {block : UInt32} {count : Nat}
  {bytes : Bytes}

/-- The blocks of a device lie within its capacity. -/
theorem blockCount_mul_blockSize_le (device : BlockDevice) :
    device.blockCount * device.blockSize ≤ device.engine.capacity := by
  unfold blockCount blockSize sectorCount sectorSize capacity
  cases device.engine.device? with
  | none => exact Nat.le_refl _
  | some found => exact Nat.div_mul_le_self ..

/-- The blocks asked for pass the check if the device has them. -/
theorem checkBlocks_eq_ok_iff :
    device.checkBlocks block count = .ok () ↔ block.toNat + count ≤ device.blockCount := by
  unfold checkBlocks
  dsimp only
  split <;> simp [*]

/-- A length that was computed is that of the blocks of a device that has some. -/
theorem of_blocksLength {length : Nat} (h : device.blocksLength count = .ok length) :
    device.blockSize ≠ 0 ∧ length = count * device.blockSize := by
  unfold blocksLength at h
  split at h
  · cases h
  · rename_i hsize
    split at h
    · exact ⟨hsize, (Except.ok.inj h).symm⟩
    · cases h

/-- Only an identified device has blocks. -/
theorem requireDevice_of_blockSize (h : device.blockSize ≠ 0) :
    ∃ found, device.engine.requireDevice = .ok found := by
  unfold blockSize sectorSize at h
  unfold requireDevice
  cases hdevice : device.engine.device? with
  | none => simp [hdevice] at h
  | some found => exact ⟨found, rfl⟩

/-- The blocks of an identified device are its sectors. -/
theorem blockSize_of_requireDevice (hfound : device.engine.requireDevice = .ok found) :
    device.blockSize = found.sectorSize.toNat := by
  unfold requireDevice at hfound
  unfold blockSize sectorSize
  cases hdevice : device.engine.device? with
  | none => simp [hdevice] at hfound
  | some other =>
      rw [hdevice] at hfound
      rw [Except.ok.inj hfound]

/-- Blocks that were checked end within the capacity. -/
theorem stop_le_of_checkBlocks (hblocks : device.checkBlocks block count = .ok ()) :
    block.toNat * device.blockSize + count * device.blockSize ≤ device.engine.capacity := by
  rw [← Nat.add_mul]
  exact Nat.le_trans (Nat.mul_le_mul_right _ (checkBlocks_eq_ok_iff.mp hblocks))
    device.blockCount_mul_blockSize_le

/-- What is to be stored of a page that changes is a piece of the data. -/
theorem new_mem_of_mem_pageChanges {address : Nat} {old : Bytes} {change : PageChange}
    (h : change ∈ pageChanges address bytes old) : change.new ∈ Page.cut address bytes := by
  unfold pageChanges at h
  rw [← List.map_uncurry_zip_eq_zipWith] at h
  obtain ⟨⟨new, previous⟩, hzip, rfl⟩ := List.mem_map.mp h
  exact (List.of_mem_zip hzip).1

section Proceeding

variable (hfound : device.engine.requireDevice = .ok found)

include hfound

/-- Every sector of blocks that were checked passes the checks of an erase. -/
theorem proceeds_eraseBlocks (hcatalogued : device.engine.Catalogued)
    (hsize : device.blockSize ≠ 0) (hblocks : device.checkBlocks block count = .ok ()) :
    (device.eraseBlocks block count).Proceeds .away := by
  refine Action.proceeds_forM fun offset hoffset => ?_
  have hlt := List.mem_range.mp hoffset
  have hstop := stop_le_of_checkBlocks hblocks
  have hsector := toNat_ofNat_le (block.toNat + offset)
  have hmul : (UInt32.ofNat (block.toNat + offset)).toNat * device.blockSize + device.blockSize ≤
      block.toNat * device.blockSize + count * device.blockSize := by
    rw [← Nat.succ_mul, ← Nat.add_mul]
    exact Nat.mul_le_mul_right _ (by omega)
  have hlast : addressable 24 ≤ lastAddress := by decide
  have hcapacity := hcatalogued.capacity_le
  have haddress := toNat_ofNat_le
    ((UInt32.ofNat (block.toNat + offset)).toNat * device.blockSize)
  unfold eraseSector
  rw [sectorAddress_of_le hfound, ← blockSize_of_requireDevice hfound]
  · exact (ranges_erase hfound _ .sector).proceeds (checkRange_eq_ok_iff.mpr (by omega))
  · rw [← blockSize_of_requireDevice hfound]
    omega

/-- A write within the capacity passes the engine's check. -/
theorem proceeds_write {address : UInt32}
    (hrange : bytes ≠ [] → address.toNat + bytes.length ≤ device.engine.capacity) :
    (device.engine.write address bytes).Proceeds .away := by
  refine Program.Proceeds.silenced ?_
  by_cases hbytes : bytes = []
  · rw [hbytes, writeReporting_nil hfound]
    exact Action.proceeds_pure ()
  · exact (ranges_writeReporting hfound address hbytes).proceeds
      (checkRange_eq_ok_iff.mpr (hrange hbytes))

/-- The pages that change lie within the blocks. -/
theorem proceeds_storeBlocks (hcatalogued : device.engine.Catalogued)
    (hsize : device.blockSize ≠ 0) (hblocks : device.checkBlocks block count = .ok ())
    (hbytes : bytes.length = count * device.blockSize) :
    (device.storeBlocks block count bytes).Proceeds .away := by
  have hstop := stop_le_of_checkBlocks hblocks
  have haddress := toNat_ofNat_le (block.toNat * device.blockSize)
  have hread := (ranges_read hfound (UInt32.ofNat (block.toNat * device.blockSize))
    bytes.length).proceeds (checkRange_eq_ok_iff.mpr (by omega))
  refine Action.Proceeds.bind hread fun stored => ?_
  dsimp only
  split
  · refine (proceeds_eraseBlocks hfound hcatalogued hsize hblocks).bind fun _ => ?_
    exact (proceeds_write hfound fun _ => by omega).bind fun _ => Action.proceeds_pure _
  · refine (Action.proceeds_forM fun change hchange => ?_).bind fun _ => Action.proceeds_pure _
    have hpiece := (Page.within_of_mem_cut _ (new_mem_of_mem_pageChanges
      (List.mem_filter.mp hchange).1)).last
    have hplace := toNat_ofNat_le change.new.address
    exact proceeds_write hfound fun _ => by omega

end Proceeding

variable (device)

/-- A block read says nothing to the surroundings before its checks are passed. -/
theorem checked_readBlocks (block : UInt32) (count : Nat) :
    (device.readBlocks block count).Checked :=
  Action.checked_ofExcept_bind fun length _ => checked_readSector device.engine block length

variable {device}

/-- A block write says nothing to the surroundings before its checks are passed. -/
theorem checked_writeBlocks (hcatalogued : device.engine.Catalogued) (block : UInt32)
    (count : Nat) (bytes : Bytes) : (device.writeBlocks block count bytes).Checked := by
  refine Action.checked_ofExcept_bind fun length hlength => ?_
  obtain ⟨hsize, rfl⟩ := of_blocksLength hlength
  obtain ⟨found, hfound⟩ := requireDevice_of_blockSize hsize
  split
  · exact .inl ⟨_, rfl⟩
  · rename_i hbytes
    refine Action.checked_ofExcept_bind fun _ hblocks => ?_
    split
    · exact .inl ⟨_, rfl⟩
    · refine .inr ?_
      split
      · exact (proceeds_eraseBlocks hfound hcatalogued hsize hblocks).bind fun _ =>
          Action.proceeds_pure _
      · exact proceeds_storeBlocks hfound hcatalogued hsize hblocks (Decidable.not_not.mp hbytes)

/-- An operation that is rejected has said nothing to the surroundings. -/
theorem checked_perform (hcatalogued : device.engine.Catalogued) (operation : BlockOperation) :
    (device.perform operation).Checked Outcome.Rejected := by
  cases operation with
  | sync => exact .inl ⟨_, rfl⟩
  | readBlocks block count => exact (device.checked_readBlocks block count).ofValue _
  | writeBlocks block count bytes =>
      exact (checked_writeBlocks hcatalogued block count bytes).ofValue _
  | engine operation => exact device.engine.checked_perform operation

/-- To open a device is not rejected once anything is said. -/
theorem checked_bringUp : device.bringUp.Checked fun ended => Rejected ended.1 := by
  unfold bringUp
  split
  · exact .inl ⟨_, rfl⟩
  · exact .inr (Program.Proceeds.bind device.engine.proceeds_bringUp fun _ hended =>
      Program.proceeds_pure hended)

/-- To close a device is not rejected once anything is said. -/
theorem checked_shutDown : device.shutDown.Checked fun ended => Rejected ended.1 := by
  unfold shutDown
  split
  · exact .inr (Program.Proceeds.bind device.engine.proceeds_shutDown fun _ hended =>
      Program.proceeds_pure hended)
  · exact .inl ⟨_, rfl⟩

/-- Every request to a block device is checked. -/
theorem checked_serve (hcatalogued : device.engine.Catalogued) (request : BlockRequest) :
    (device.serve request).Checked fun ended => ended.1.Rejected := by
  cases request with
  | bringUp => exact Program.Checked.map checked_bringUp fun _ => Outcome.rejected_ofUnit
  | shutDown => exact Program.Checked.map checked_shutDown fun _ => Outcome.rejected_ofUnit
  | operation operation =>
      exact Program.Checked.map (checked_perform hcatalogued operation) fun _ h => h

/-- Whatever the surroundings answer, the engine below a device stays one whose device is in the
catalog. -/
theorem ends_serve_catalogued {environment : Environment σ} {state : σ}
    (h : device.engine.Catalogued) (request : BlockRequest) :
    (device.serve request).Ends environment (fun ended _ => ended.2.engine.Catalogued) state := by
  cases request with
  | bringUp =>
      refine (Program.ends_bind ..).mpr ?_
      unfold bringUp
      split
      · exact h
      · exact (Program.ends_bind ..).mpr ends_bringUp_catalogued
  | shutDown =>
      refine (Program.ends_bind ..).mpr ?_
      unfold shutDown
      split
      · exact (Program.ends_bind ..).mpr ends_shutDown_catalogued
      · exact h
  | operation operation =>
      exact (Program.ends_bind ..).mpr (Program.ends_of_forall _ fun _ _ => h)

end BlockDevice

/-- In any surroundings, an operation on a range that is not empty is rejected for its address
exactly if the range ends beyond the capacity, and the fault carries the last address of the range,
or the largest address if that is beyond it. Whatever request to an engine or to a block device is
rejected, it has asked nothing of the surroundings and has left them as they were. -/
theorem rejection_is_exact (environment : Environment σ) (state : σ) (engine : Engine)
    (device : BlockDevice) (hcatalogued : device.engine.Catalogued) :
    (∀ operation identity address length last, engine.identity = some identity →
      operation.range? = some (address, length) → length ≠ 0 →
      (((engine.perform operation).run environment state).1.result =
          .error (.addressOutOfRange last) ↔
        identity.device.capacity < address.toNat + length ∧
          last = UInt32.ofNat (min (address.toNat + length - 1) lastAddress))) ∧
    (∀ request, ((engine.serve request).run environment state).1.1.Rejected →
      (engine.serve request).dialogue environment state = [] ∧
        ((engine.serve request).run environment state).2 = state) ∧
    ∀ request, ((device.serve request).run environment state).1.1.Rejected →
      (device.serve request).dialogue environment state = [] ∧
        ((device.serve request).run environment state).2 = state :=
  ⟨fun _ _ _ _ last hidentity hrange hlength =>
      engine.perform_outOfRange_iff hidentity hrange hlength environment state last,
    fun request => (engine.checked_serve request).untouched,
    fun request => (device.checked_serve hcatalogued request).untouched⟩

/-- A write of two bytes to the last address is rejected for the address after it, before anything
is asked of the bench. -/
theorem rejection_is_exact_past_end :
    let identity : Identity :=
      ⟨Catalog.winbond, ⟨0x4015, "W25Q16DV", 4096, false, 8, some .quad⟩⟩
    let device := BlockDevice.closed ⟨.standard, some identity⟩
    let bench := Bench.ofChip (Chip.fresh ⟨0xEF, 0x4015⟩)
    let operation := Operation.write 0x1FFFFF [0, 0]
    device.engine.Catalogued ∧
      ((device.engine.perform operation).run Bench.environment bench).1.result =
        .error (.addressOutOfRange 0x200000) ∧
      (device.serve (.operation (.engine operation))).dialogue Bench.environment bench = [] := by
  intro identity device bench operation
  have hknows : Catalog.Knows ⟨0xEF, 0x4015⟩ identity := rfl
  have hcatalogued : device.engine.Catalogued :=
    fun _ h => ⟨⟨0xEF, 0x4015⟩, Option.some.inj h ▸ hknows⟩
  obtain ⟨hrange, -, hdevice⟩ :=
    rejection_is_exact Bench.environment bench device.engine device hcatalogued
  have hresult : ((device.engine.perform operation).run Bench.environment bench).1.result =
      .error (.addressOutOfRange 0x200000) :=
    (hrange _ _ _ _ _ rfl rfl (by decide)).mpr (by decide)
  have hserve : device.serve (.operation (.engine operation)) =
      device.engine.perform operation >>= fun outcome => pure (outcome, device) := rfl
  refine ⟨hcatalogued, hresult, (hdevice _ ⟨.addressOutOfRange 0x200000, ?_, rfl⟩).1⟩
  rw [hserve, Program.run_bind]
  exact hresult

end NorFlash
