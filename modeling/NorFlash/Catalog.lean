import NorFlash.Address
import NorFlash.Bus.Width

/-!
# Device catalog

The devices the engine supports. A manufacturer lists its devices and the sequence that brings them
into quad mode; device numbers are unique within a manufacturer.
-/

namespace NorFlash

/-- The sequence that switches a manufacturer's devices into quad mode. -/
inductive QuadEntry where
  | winbond
  | micron
  deriving DecidableEq

namespace QuadEntry

/-- The maker the sequence is named for. -/
def name : QuadEntry → String
  | winbond => "Winbond"
  | micron => "Micron"

end QuadEntry

/-- The parameters of one device. -/
structure Descriptor where
  /-- The device number; its low byte is the capacity code. -/
  deviceId : UInt16
  name : String
  /-- The smallest unit that can be erased, in bytes. -/
  sectorSize : UInt32
  /-- The device can transfer on both clock edges. -/
  supportsDoubleRate : Bool
  /-- Cycles between address and data of a quad read, the mode byte included. -/
  quadDummyCycles : UInt8
  /-- The width of the mode byte of a quad read, if it has one. -/
  modeWidth : Option BusWidth
  deriving DecidableEq

namespace Descriptor

/-- The low byte of the device number. -/
def capacityCode (device : Descriptor) : UInt8 :=
  device.deviceId.toUInt8

/-- The capacity in bytes: two to the capacity code, or 0 if that needs more than 64 bits. -/
def capacity (device : Descriptor) : Nat :=
  if device.capacityCode < 64 then addressable device.capacityCode.toNat else 0

/-- The number of sectors. -/
def sectorCount (device : Descriptor) : Nat :=
  device.capacity / device.sectorSize.toNat

/-- The clock cycles the mode byte takes. -/
def modeCycles (device : Descriptor) : UInt8 :=
  match device.modeWidth with
  | some width => width.cyclesPerByte
  | none => 0

/-- The dummy cycles that follow the mode byte of a quad read. -/
def readDummyCycles (device : Descriptor) : UInt8 :=
  if device.modeCycles ≤ device.quadDummyCycles then
    device.quadDummyCycles - device.modeCycles
  else
    0

end Descriptor

/-- A supported manufacturer. -/
structure Manufacturer where
  id : UInt8
  name : String
  devices : List Descriptor
  quadEntry : QuadEntry

namespace Manufacturer

/-- The device with the given number. -/
def device? (manufacturer : Manufacturer) (deviceId : UInt16) : Option Descriptor :=
  manufacturer.devices.find? fun device => device.deviceId == deviceId

end Manufacturer

namespace Catalog

/-- Micron's manufacturer byte. -/
def micronId : UInt8 := 0x20

/-- Winbond's manufacturer byte. -/
def winbondId : UInt8 := 0xEF

/-- The supported Micron devices. -/
def micron : Manufacturer where
  id := micronId
  name := "Micron (ST)"
  devices :=
    [⟨0xBA18, "MT25QL128ABA", 4096, true, 8, none⟩,
      ⟨0xBB18, "MT25QU128ABA", 4096, true, 8, none⟩]
  quadEntry := .micron

/-- The supported Winbond devices. -/
def winbond : Manufacturer where
  id := winbondId
  name := "Winbond"
  devices :=
    [⟨0x4015, "W25Q16DV", 4096, false, 8, some .quad⟩,
      ⟨0x4016, "W25Q32FV", 4096, false, 8, some .quad⟩,
      ⟨0x6016, "W25Q32FV", 4096, false, 8, some .quad⟩,
      ⟨0x4017, "W25Q64FV", 4096, false, 8, some .quad⟩,
      ⟨0x6017, "W25Q64FV", 4096, false, 8, some .quad⟩,
      ⟨0x4018, "W25Q128FV", 4096, false, 8, some .quad⟩,
      ⟨0x6018, "W25Q128FV", 4096, false, 8, some .quad⟩,
      ⟨0x7018, "W25Q128JV", 4096, true, 8, some .quad⟩]
  quadEntry := .winbond

/-- Every supported manufacturer. -/
def manufacturers : List Manufacturer :=
  [micron, winbond]

/-- The manufacturer with the given identification byte. -/
def manufacturer? (id : UInt8) : Option Manufacturer :=
  manufacturers.find? fun manufacturer => manufacturer.id == id

/-- The manufacturer and device with the given identification. -/
def identify? (manufacturerId : UInt8) (deviceId : UInt16) : Option (Manufacturer × Descriptor) :=
  match manufacturer? manufacturerId with
  | none => none
  | some manufacturer => (manufacturer.device? deviceId).map fun device => (manufacturer, device)

end Catalog

end NorFlash
