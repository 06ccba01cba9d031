import NorFlash.Chip.Basic
import NorFlash.Engine.Basic

/-!
# What the catalog promises

Every supported device erases sectors of 4096 bytes, reads with eight cycles between address and
data, and holds as many bytes as its capacity code says; its manufacturer's quad entry sequence is
the one for the register set of its chips. `Catalog.Knows` is the catalog's answer to an
identification, and the statements about it are what the engine relies on once it has identified a
device.
-/

namespace NorFlash

namespace JedecId

/-- An identification survives being sent byte by byte. -/
theorem ofBytes_toBytes (id : JedecId) :
    ofBytes id.manufacturer id.memoryType id.capacityCode = id := by
  obtain ⟨manufacturer, device⟩ := id
  have hdevice := device.toNat_lt
  have hhigh : device.toNat >>> 8 = device.toNat / 256 := Nat.shiftRight_eq_div_pow ..
  have hjoin : (device.toNat / 256) <<< 8 ||| device.toNat % 256 = device.toNat := by
    rw [← Nat.shiftLeft_add_eq_or_of_lt (show device.toNat % 256 < 2 ^ 8 by omega),
      Nat.shiftLeft_eq]
    omega
  have hbound : (device.toNat / 256) <<< 8 < 65536 := by
    rw [Nat.shiftLeft_eq]
    omega
  simp only [ofBytes, memoryType, capacityCode, JedecId.mk.injEq, true_and]
  apply UInt16.toNat_inj.mp
  have hsmall : device.toNat / 256 < 256 := by omega
  simpa [hhigh, Nat.mod_eq_of_lt hsmall, Nat.mod_eq_of_lt hbound] using hjoin

end JedecId

namespace QuadEntry

/-- The register set that a quad entry sequence is for. -/
def vendor : QuadEntry → Vendor
  | winbond => .winbond
  | micron => .micron

end QuadEntry

namespace Catalog

/-- The identification belongs to the given device. -/
def Knows (id : JedecId) (identity : Identity) : Prop :=
  identify? id.manufacturer id.device = some (identity.manufacturer, identity.device)

/-- What an identification finds is in the catalog, under the two identifiers. -/
theorem mem_of_identify? {manufacturerId : UInt8} {deviceId : UInt16}
    {manufacturer : Manufacturer} {device : Descriptor}
    (h : identify? manufacturerId deviceId = some (manufacturer, device)) :
    manufacturer ∈ manufacturers ∧ manufacturer.id = manufacturerId ∧
      device ∈ manufacturer.devices ∧ device.deviceId = deviceId := by
  unfold identify? at h
  split at h
  · simp at h
  · rename_i found hfound
    obtain ⟨other, hother, hpair⟩ := Option.map_eq_some_iff.mp h
    obtain ⟨rfl, rfl⟩ := Prod.mk.inj hpair
    unfold manufacturer? at hfound
    unfold Manufacturer.device? at hother
    have hid := List.find?_some hfound
    have hdeviceId := List.find?_some hother
    exact ⟨List.mem_of_find?_eq_some hfound, by simpa using hid,
      List.mem_of_find?_eq_some hother, by simpa using hdeviceId⟩

/-- A bus that nothing drives does not look like a supported device. -/
theorem identify?_floating : identify? 0xFF 0xFFFF = none := by
  decide

/-- Each manufacturer's quad entry is the one for its chips. -/
theorem vendor_of_mem :
    ∀ manufacturer ∈ manufacturers,
      Vendor.ofManufacturer manufacturer.id = manufacturer.quadEntry.vendor := by
  decide

/-- Every device of the catalog has sectors of 4096 bytes, eight cycles in a read, and the capacity
its code says. -/
theorem devices_of_mem :
    ∀ manufacturer ∈ manufacturers, ∀ device ∈ manufacturer.devices,
      device.sectorSize = 4096 ∧ device.quadDummyCycles = 8 ∧
        device.modeCycles.toNat + device.readDummyCycles.toNat = 8 ∧
        device.capacity = (Memory.blank device.capacityCode).size := by
  decide

/-- Every device of the catalog has addresses of at least 16 bits. -/
theorem capacityBits_of_mem :
    ∀ manufacturer ∈ manufacturers, ∀ device ∈ manufacturer.devices,
      16 ≤ (Memory.blank device.capacityCode).bits := by
  decide

/-- Addresses of 24 bits fit an address word. -/
theorem toNat_ofNat_of_le {address : Nat} (h : address ≤ addressable 24) :
    (UInt32.ofNat address).toNat = address := by
  have hbound : addressable 24 < UInt32.size := by decide
  exact UInt32.toNat_ofNat_of_lt' (Nat.lt_of_le_of_lt h hbound)

namespace Knows

variable {id : JedecId} {identity : Identity}

/-- The quad entry of an identified device is the one for its chip. -/
theorem vendor_eq (h : Knows id identity) :
    Vendor.ofManufacturer id.manufacturer = identity.manufacturer.quadEntry.vendor := by
  obtain ⟨hmanufacturer, hid, -, -⟩ := mem_of_identify? h
  exact hid ▸ vendor_of_mem _ hmanufacturer

/-- An identified device has sectors of 4096 bytes. -/
theorem sectorSize_eq (h : Knows id identity) : identity.device.sectorSize = 4096 := by
  obtain ⟨hmanufacturer, -, hdevice, -⟩ := mem_of_identify? h
  exact (devices_of_mem _ hmanufacturer _ hdevice).1

/-- An identified device needs eight dummy cycles. -/
theorem quadDummyCycles_eq (h : Knows id identity) : identity.device.quadDummyCycles = 8 := by
  obtain ⟨hmanufacturer, -, hdevice, -⟩ := mem_of_identify? h
  exact (devices_of_mem _ hmanufacturer _ hdevice).2.1

/-- The read command leaves eight cycles between address and data. -/
theorem readCycles_eq (h : Knows id identity) :
    identity.device.modeCycles.toNat + identity.device.readDummyCycles.toNat = 8 := by
  obtain ⟨hmanufacturer, -, hdevice, -⟩ := mem_of_identify? h
  exact (devices_of_mem _ hmanufacturer _ hdevice).2.2.1

/-- The engine's idea of the capacity is the size of the chip's memory. -/
theorem capacity_eq (h : Knows id identity) :
    identity.device.capacity = (Memory.blank id.capacityCode).size := by
  obtain ⟨hmanufacturer, -, hdevice, hid⟩ := mem_of_identify? h
  have hcode : identity.device.capacityCode = id.capacityCode := congrArg UInt16.toUInt8 hid
  exact hcode ▸ (devices_of_mem _ hmanufacturer _ hdevice).2.2.2

/-- A supported device consists of whole erase units of every size. -/
theorem capacityBits_le (h : Knows id identity) :
    16 ≤ (Memory.blank id.capacityCode).bits := by
  obtain ⟨hmanufacturer, -, hdevice, hid⟩ := mem_of_identify? h
  have hcode : identity.device.capacityCode = id.capacityCode := congrArg UInt16.toUInt8 hid
  exact hcode ▸ capacityBits_of_mem _ hmanufacturer _ hdevice

/-- Every address of a supported device has 24 bits. -/
theorem capacity_le (h : Knows id identity) : identity.device.capacity ≤ addressable 24 := by
  rw [h.capacity_eq]
  exact addressable_le (Memory.blank id.capacityCode).bits_le

end Knows

end Catalog

end NorFlash
