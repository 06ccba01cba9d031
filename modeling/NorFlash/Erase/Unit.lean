import NorFlash.Address

/-!
# Erase units

The naturally aligned units an erase instruction clears, and the kinds of erase a device offers: one
per unit and one for the whole chip.
-/

namespace NorFlash

/-- A unit of memory that one instruction erases. Units are naturally aligned. -/
inductive EraseUnit where
  | sector
  | block32K
  | block64K
  deriving DecidableEq

namespace EraseUnit

/-- The base-two logarithm of the unit's size. -/
def bits : EraseUnit → Nat
  | sector => 12
  | block32K => 15
  | block64K => 16

/-- The unit's size in bytes. -/
def size (unit : EraseUnit) : Nat :=
  addressable unit.bits

/-- No unit is empty. -/
theorem size_pos (unit : EraseUnit) : 0 < unit.size :=
  addressable_pos unit.bits

/-- The instruction that erases the unit around an address. -/
def opcode : EraseUnit → UInt8
  | sector => 0x20
  | block32K => 0x52
  | block64K => 0xD8

/-- The units from the smallest to the largest. -/
def all : List EraseUnit :=
  [sector, block32K, block64K]

end EraseUnit

/-- What an erase clears. -/
inductive EraseKind where
  | unit (area : EraseUnit)
  | chip
  deriving DecidableEq

namespace EraseKind

/-- The bytes cleared, or 0 for a whole chip, whose size depends on the device. -/
def size : EraseKind → Nat
  | .unit area => area.size
  | .chip => 0

/-- The erase instruction. -/
def opcode : EraseKind → UInt8
  | .unit area => area.opcode
  | .chip => 0xC7

end EraseKind

end NorFlash
