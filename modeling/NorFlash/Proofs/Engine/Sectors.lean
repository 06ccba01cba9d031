import NorFlash.Proofs.Engine.Addresses

/-!
# Operations on sectors

An operation on a sector is an operation on bytes at the sector's first address. That address is a
product, and it is checked in two steps: the product has to fit an address, and the range that
begins there has to lie within the device. `sectorwise_eq_bytewise` says that the two steps come to
one check of the range at the product itself, whatever the sector's number is. A number whose
product is beyond the largest address is refused like any other, and reaches no other sector.
-/

namespace NorFlash

namespace Operation

/-- The stretch of bytes that an operation on a sector names begins with the sector. -/
theorem start_of_extent? {operation : Operation} {sector : UInt32} {bytewise : UInt32 → Operation}
    {sectorSize start length : Nat} (hsector : operation.sector? = some (sector, bytewise))
    (hextent : operation.extent? sectorSize = some (start, length)) :
    start = sector.toNat * sectorSize := by
  cases operation with
  | readSector | writeSector | eraseSector =>
      cases hsector
      cases hextent
      rfl
  | _ => cases hsector

end Operation

namespace Engine

variable {σ : Type} {engine : Engine} {identity : Identity} {operation : Operation}
  {sector : UInt32} {bytewise : UInt32 → Operation} {start length : Nat}

/-- A stretch within the device begins at an address, which is the one its sector has. -/
theorem perform_sector_of_le {device : Descriptor} (hdevice : engine.requireDevice = .ok device)
    (hcatalogued : engine.Catalogued) (hsector : operation.sector? = some (sector, bytewise))
    (hwithin : sector.toNat * engine.sectorSize ≤ engine.capacity) :
    ∃ address : UInt32, address.toNat = sector.toNat * engine.sectorSize ∧
      engine.perform operation = engine.perform (bytewise address) := by
  rw [perform_sector hsector]
  obtain ⟨address, haddress, hstart⟩ | ⟨hlast, -⟩ := sectorAddress_cases hdevice sector
  · rw [haddress]
    exact ⟨address, hstart, rfl⟩
  · have hcapacity := hcatalogued.capacity_le
    have haddressable : addressable 24 ≤ lastAddress := by decide
    omega

/-- Whatever the surroundings answer, an operation on a sector that asks for something ends as the
operation on bytes at the sector's number times the sector's size does, with the same dialogue, if
the stretch of bytes that begins there is within the device. Otherwise it is refused without a word,
with the last address of that stretch, or the largest address if that is beyond it. -/
theorem sectorwise_eq_bytewise (hidentity : engine.identity = some identity)
    (hcatalogued : engine.Catalogued) (operation : Operation)
    (hsector : operation.sector? = some (sector, bytewise))
    (hextent : operation.extent? identity.device.sectorSize.toNat = some (start, length))
    (hlength : length ≠ 0) (environment : Environment σ) (state : σ) :
    start = sector.toNat * identity.device.sectorSize.toNat ∧
    (start + length ≤ identity.device.capacity →
      ∃ address : UInt32, address.toNat = start ∧
        (engine.perform operation).run environment state =
          (engine.perform (bytewise address)).run environment state ∧
        (engine.perform operation).dialogue environment state =
          (engine.perform (bytewise address)).dialogue environment state) ∧
    (identity.device.capacity < start + length →
      (engine.perform operation).run environment state =
          (⟨.error (.addressOutOfRange (UInt32.ofNat (min (start + length - 1) lastAddress))),
            none⟩, state) ∧
        (engine.perform operation).dialogue environment state = []) := by
  have hdevice := requireDevice_of_identity hidentity
  have hstart := Operation.start_of_extent? hsector hextent
  rw [← capacity_of_identity hidentity]
  rw [← sectorSize_of_requireDevice hdevice] at hstart hextent ⊢
  refine ⟨hstart, fun hwithin => ?_, fun hbeyond => ?_⟩
  · obtain ⟨address, haddress, hperform⟩ :=
      perform_sector_of_le hdevice hcatalogued hsector (by omega)
    refine ⟨address, haddress.trans hstart.symm, ?_⟩
    rw [hperform]
    exact ⟨rfl, rfl⟩
  · have hbuffer : operation.buffer? = none := by
      cases operation <;> first | rfl | cases hsector
    rw [perform_denied hdevice hextent hlength hbeyond, hbuffer]
    exact ⟨rfl, rfl⟩

/-- The last sector of a device is erased at its own address. The sector whose product is the first
number that does not fit an address is refused, and sector 0 keeps what it holds. -/
theorem sectorwise_eq_bytewise_around_end :
    let engine : Engine := ⟨.standard, some ⟨Catalog.winbond,
      ⟨0x4015, "W25Q16DV", 4096, false, 8, some .quad⟩⟩⟩
    let bench := Bench.ofChip (Chip.fresh ⟨0xEF, 0x4015⟩)
    (engine.perform (.eraseSector 511)).run Bench.environment bench =
        (engine.perform (.erase 0x1FF000 (.unit .sector))).run Bench.environment bench ∧
      (engine.perform (.eraseSector 0x100000)).run Bench.environment bench =
        (⟨.error (.addressOutOfRange 0xFFFFFFFF), none⟩, bench) := by
  intro engine bench
  have hcatalogued : engine.Catalogued := by
    intro identity hidentity
    cases hidentity
    exact ⟨⟨0xEF, 0x4015⟩, rfl⟩
  constructor
  · obtain ⟨-, hwithin, -⟩ := sectorwise_eq_bytewise rfl hcatalogued (.eraseSector 511) rfl rfl
      Nat.one_ne_zero Bench.environment bench
    obtain ⟨address, haddress, hrun, -⟩ := hwithin (by decide)
    have haddress : address = 0x1FF000 := UInt32.toNat_inj.mp haddress
    rw [hrun, haddress]
  · obtain ⟨-, -, hbeyond⟩ := sectorwise_eq_bytewise rfl hcatalogued (.eraseSector 0x100000) rfl
      rfl Nat.one_ne_zero Bench.environment bench
    exact (hbeyond (by decide)).1

end Engine

end NorFlash
