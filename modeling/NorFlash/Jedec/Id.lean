import NorFlash.Bytes.Hex
import NorFlash.Jedec.Names

/-!
# Device identification

A device identifies itself by a manufacturer byte and a sixteen-bit device number, whose low byte is
the capacity code: the device holds two to that power bytes.
-/

namespace NorFlash

/-- The identification read from a device. -/
structure JedecId where
  manufacturer : UInt8
  device : UInt16
  deriving DecidableEq

namespace JedecId

/-- The identification sent as manufacturer byte, then device number, high byte first. -/
def ofBytes (manufacturer high low : UInt8) : JedecId :=
  ⟨manufacturer, high.toUInt16 <<< 8 ||| low.toUInt16⟩

/-- The high byte of the device number. -/
def memoryType (id : JedecId) : UInt8 :=
  (id.device >>> 8).toUInt8

/-- The low byte of the device number. -/
def capacityCode (id : JedecId) : UInt8 :=
  id.device.toUInt8

/-- The three bytes in the order they are sent. -/
def toBytes (id : JedecId) : Bytes :=
  [id.manufacturer, id.memoryType, id.capacityCode]

/-- The identification seen when nothing drives the bus: all bits clear or all bits set. -/
def isBlank (id : JedecId) : Bool :=
  id == ⟨0, 0⟩ || id == ⟨0xFF, 0xFFFF⟩

/-- The manufacturer's name. Two registered names belong to codes that other makers of flash memory
now use: Winbond took over NEXCOM, and GigaDevice parts send Apple's code without the continuation
byte that would tell them apart. -/
def manufacturerName (id : JedecId) : Option String :=
  match Jedec.registeredName (id.manufacturer &&& 0x7F).toNat with
  | some "NEXCOM" => some "Winbond/NEXCOM"
  | some "Apple Computer" => some "Apple Computer/GigaDevice Semiconductor"
  | name => name

/-- The identification as shown to a user. -/
def text (id : JedecId) : String :=
  let name := match id.manufacturerName with
    | some name => " (" ++ name ++ ")"
    | none => ""
  "Manufacturer 0x" ++ Hex.upper 2 id.manufacturer.toNat ++ name ++
    ", Device 0x" ++ Hex.upper 4 id.device.toNat

end JedecId

end NorFlash
