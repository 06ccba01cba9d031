/-!
# Device registers

The configuration and status registers of Winbond and Micron devices, each a byte with named fields.
Every field has a reader and a writer; a writer leaves the other bits of its register alone.
-/

namespace NorFlash

/-- Status register 1, which all devices share. -/
structure Status1 where
  value : UInt8
  deriving DecidableEq

namespace Status1

/-- The mask of the busy bit, for status polling. -/
def busyMask : UInt8 := 0b00000001

/-- A program or erase is in progress. -/
def busy (register : Status1) : Bool :=
  register.value &&& busyMask != 0

/-- The write enable latch is set. -/
def writeEnabled (register : Status1) : Bool :=
  register.value &&& 0b00000010 != 0

/-- The register of an idle device with the given write enable latch. -/
def idle (writeEnabled : Bool) : Status1 :=
  ⟨if writeEnabled then 0b00000010 else 0⟩

end Status1

/-- Winbond status register 2. -/
structure Status2 where
  value : UInt8
  deriving DecidableEq

namespace Status2

/-- The quad enable bit. -/
def quadEnabled (register : Status2) : Bool :=
  register.value &&& 0b00000010 != 0

/-- The register with the quad enable bit as given. -/
def withQuadEnable (register : Status2) (enabled : Bool) : Status2 :=
  ⟨(register.value &&& 0b11111101) ||| (if enabled then 0b00000010 else 0)⟩

end Status2

/-- Winbond read parameters, which hold the dummy cycles of reads in quad protocol. -/
structure ReadParameters where
  value : UInt8
  deriving DecidableEq

namespace ReadParameters

/-- The dummy cycles of a quad protocol read: 2, 4, 6 or 8. -/
def dummyCycles (register : ReadParameters) : UInt8 :=
  (((register.value >>> 4) &&& 0b11) + 1) * 2

/-- The register with the given dummy cycles; `none` if two bits cannot express them. -/
def withDummyCycles? (register : ReadParameters) (cycles : UInt8) : Option ReadParameters :=
  if cycles = 2 ∨ cycles = 4 ∨ cycles = 6 ∨ cycles = 8 then
    some ⟨register.value &&& (0b11001111 : UInt8) ||| (cycles / 2 - 1) <<< (4 : UInt8)⟩
  else
    none

end ReadParameters

/-- Micron volatile configuration, which holds the dummy cycles of fast reads. -/
structure VolatileConfig where
  value : UInt8
  deriving DecidableEq

namespace VolatileConfig

/-- The four-bit dummy cycle field; 0 and 15 stand for the device's own choice. -/
def dummyCycles (register : VolatileConfig) : UInt8 :=
  register.value >>> 4

/-- The register with the given dummy cycles; `none` if they are not 1 to 14. -/
def withDummyCycles? (register : VolatileConfig) (cycles : UInt8) : Option VolatileConfig :=
  if 1 ≤ cycles ∧ cycles ≤ 14 then
    some ⟨register.value &&& (0x0F : UInt8) ||| cycles <<< (4 : UInt8)⟩
  else
    none

end VolatileConfig

/-- Micron enhanced volatile configuration, which selects the bus protocol. -/
structure EnhancedConfig where
  value : UInt8
  deriving DecidableEq

namespace EnhancedConfig

/-- The quad protocol is selected; the bit is active low. -/
def quadProtocol (register : EnhancedConfig) : Bool :=
  register.value &&& 0b10000000 == 0

/-- The register with the quad protocol selected or not. -/
def withQuadProtocol (register : EnhancedConfig) (quad : Bool) : EnhancedConfig :=
  ⟨(register.value &&& 0b01111111) ||| (if quad then 0 else 0b10000000)⟩

end EnhancedConfig

end NorFlash
