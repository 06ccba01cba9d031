import NorFlash.Bus.Command
import NorFlash.Bytes.Hex

/-!
# Faults

The ways an operation of the flash engine can fail, their wording, and the coarser status codes that
callers usually distinguish.
-/

namespace NorFlash

/-- Why an operation failed. -/
inductive Fault where
  /-- Another caller held the bus for too long. -/
  | busy
  /-- No completion was reported in time. -/
  | timeout
  /-- The device answered with an identification that is not in the catalog. -/
  | unsupported (manufacturer : UInt8) (device : UInt16)
  /-- No device has been identified. -/
  | notIdentified
  /-- The range ends at an address outside the device. -/
  | addressOutOfRange (address : UInt32)
  /-- The data has another length than the operation needs. -/
  | wrongLength (expected actual : Nat)
  /-- The device's registers cannot express the dummy cycles. -/
  | unencodableDummyCycles (cycles : UInt8)
  /-- The controller refused a call. -/
  | bus (cause : BusFault)
  deriving DecidableEq

/-- How an operation ended, as callers distinguish it. -/
inductive Status where
  | ok
  | error
  | busy
  | timeout
  | unsupported
  deriving DecidableEq

namespace Fault

/-- The status code of a fault. -/
def status : Fault → Status
  | busy => .busy
  | timeout => .timeout
  | unsupported _ _ => .unsupported
  | _ => .error

/-- The wording shown to a user. -/
def message : Fault → String
  | busy => "Flash bus is busy."
  | timeout => "Timed out waiting for the flash device."
  | unsupported manufacturer device =>
      "Unsupported flash device: manufacturer 0x" ++ Hex.upper 2 manufacturer.toNat ++
        ", device 0x" ++ Hex.upper 4 device.toNat ++ "."
  | notIdentified => "Flash device has not been identified."
  | addressOutOfRange address =>
      "Address out of range for memory: 0x" ++ Hex.upper 8 address.toNat ++ "."
  | wrongLength expected actual =>
      "Invalid data length: expected " ++ toString expected ++ " bytes, got " ++
        toString actual ++ "."
  | unencodableDummyCycles cycles =>
      "Device cannot be configured for " ++ toString cycles.toNat ++ " dummy cycles."
  | bus cause => cause.message

end Fault

/-- The status code of a result. -/
def Status.ofResult {α : Type} : Except Fault α → Status
  | .ok _ => .ok
  | .error fault => fault.status

end NorFlash
