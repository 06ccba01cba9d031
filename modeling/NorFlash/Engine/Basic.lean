import NorFlash.Address
import NorFlash.Catalog
import NorFlash.Engine.Action
import NorFlash.Opcode
import NorFlash.Register

/-!
# The flash engine

The engine sequences the exchanges of each flash operation. It knows its timeouts and the device it
has identified; what it knows of the bus is guarded by the bus lock.
-/

namespace NorFlash

/-- The version of the engine. -/
def version : String := "0.3.0"

/-- How long to wait for each class of operation, in milliseconds. -/
structure Timeouts where
  /-- Taking the bus, register access, reads and page programs. -/
  command : Nat
  /-- Sector and block erases. -/
  erase : Nat
  /-- Erasing the whole chip. -/
  chipErase : Nat
  deriving DecidableEq

namespace Timeouts

/-- The timeouts of a new engine. -/
def standard : Timeouts :=
  ⟨100, 2000, 200000⟩

end Timeouts

/-- What the catalog knows of an identified device. -/
structure Identity where
  manufacturer : Manufacturer
  device : Descriptor

/-- A flash engine. -/
structure Engine where
  timeouts : Timeouts
  identity : Option Identity

namespace Engine

/-- An engine that has identified no device. -/
def fresh (timeouts : Timeouts) : Engine :=
  ⟨timeouts, none⟩

/-- The engine without its device. -/
def forget (engine : Engine) : Engine :=
  { engine with identity := none }

/-- The identified device. -/
def device? (engine : Engine) : Option Descriptor :=
  engine.identity.map Identity.device

/-- The manufacturer's name, or nothing without a device. -/
def manufacturerName (engine : Engine) : String :=
  match engine.identity with
  | some identity => identity.manufacturer.name
  | none => ""

/-- The device's name, or nothing without a device. -/
def deviceName (engine : Engine) : String :=
  match engine.device? with
  | some device => device.name
  | none => ""

/-- The sector size in bytes, or 0 without a device. -/
def sectorSize (engine : Engine) : Nat :=
  match engine.device? with
  | some device => device.sectorSize.toNat
  | none => 0

/-- The number of sectors, or 0 without a device. -/
def sectorCount (engine : Engine) : Nat :=
  match engine.device? with
  | some device => device.sectorCount
  | none => 0

/-- The capacity in bytes, or 0 without a device. -/
def capacity (engine : Engine) : Nat :=
  match engine.device? with
  | some device => device.capacity
  | none => 0

/-- The identified device; without one the operation fails. -/
def requireDevice (engine : Engine) : Except Fault Descriptor :=
  match engine.device? with
  | some device => .ok device
  | none => .error .notIdentified

/-- Checks that a range lies within the device. The fault carries the last address of the range, or
the largest address if that is beyond it. -/
def checkRange (engine : Engine) (address : UInt32) (length : Nat) : Except Fault Unit :=
  let stop := address.toNat + length
  if stop ≤ engine.capacity then
    .ok ()
  else
    .error (.addressOutOfRange (UInt32.ofNat (min (stop - 1) lastAddress)))

/-- The address of a sector's first byte. -/
def sectorAddress (engine : Engine) (sector : UInt32) : Except Fault UInt32 := do
  let device ← engine.requireDevice
  let address := sector.toNat * device.sectorSize.toNat
  if address ≤ lastAddress then
    return UInt32.ofNat address
  else
    throw (.addressOutOfRange (UInt32.ofNat lastAddress))

/-- Runs a bus action while holding the bus, and gives the bus back however the action ends. -/
def holdingBus {α : Type} (engine : Engine) (action : BusAction α) : Action α :=
  ExceptT.mk <| .acquire engine.timeouts.command fun
    | none => .done (.error .busy)
    | some bus => do
        let (result, bus) ← action.run.run bus
        .release bus (.done result)

/-- As `holdingBus`, leaving memory-mapped mode first. -/
def withBus {α : Type} (engine : Engine) (action : BusAction α) : Action α :=
  engine.holdingBus (do BusAction.leaveMapped; action)

/-- The quad read command for a device, without address and data. The mode byte is zero, which keeps
the device from expecting further reads without an instruction. -/
def readCommand (device : Descriptor) (width : BusWidth) : Command :=
  let command := (Command.instruct Opcode.fastReadQuad.code width).withDummy device.readDummyCycles
  match device.modeWidth with
  | some width => command.withMode 0 width
  | none => command

/-- Bus clock cycles between two status polls. -/
def pollInterval : UInt16 := 16

/-- The poll for a device that is no longer busy. -/
def idlePoll (width : BusWidth) : StatusPoll where
  instruction := Opcode.readStatus1.code
  width := width
  mask := Status1.busyMask
  expected := 0
  interval := pollInterval

/-- Sets the device's write enable latch. -/
def enableWrite : BusAction Unit := do
  BusAction.instruct Opcode.writeEnable.code (← BusAction.width)

/-- Waits until the device is no longer busy. -/
def waitWhileBusy (patience : Nat) : BusAction Unit := do
  discard <| BusAction.transfer (.poll (idlePoll (← BusAction.width))) patience

end Engine

end NorFlash
