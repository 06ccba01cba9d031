/-!
# Instruction codes

The instruction bytes the engine knows: those all devices share, and those of one vendor. Erase
instructions belong to the erase units.
-/

namespace NorFlash

/-- Instructions that Winbond and Micron devices share. -/
inductive Opcode where
  | writeEnable
  | writeDisable
  | writeEnableVolatile
  | readStatus1
  | writeStatus1
  | readJedecId
  | powerDown
  | releasePowerDown
  | enableReset
  | reset
  | pageProgram
  | quadPageProgram
  | readData
  | fastRead
  | fastReadQuadOutput
  | fastReadQuad
  deriving DecidableEq

namespace Opcode

/-- The byte sent on the bus. -/
def code : Opcode → UInt8
  | writeEnable => 0x06
  | writeDisable => 0x04
  | writeEnableVolatile => 0x50
  | readStatus1 => 0x05
  | writeStatus1 => 0x01
  | readJedecId => 0x9F
  | powerDown => 0xB9
  | releasePowerDown => 0xAB
  | enableReset => 0x66
  | reset => 0x99
  | pageProgram => 0x02
  | quadPageProgram => 0x32
  | readData => 0x03
  | fastRead => 0x0B
  | fastReadQuadOutput => 0x6B
  | fastReadQuad => 0xEB

/-- Every shared instruction. -/
def all : List Opcode :=
  [writeEnable, writeDisable, writeEnableVolatile, readStatus1, writeStatus1, readJedecId,
    powerDown, releasePowerDown, enableReset, reset, pageProgram, quadPageProgram, readData,
    fastRead, fastReadQuadOutput, fastReadQuad]

end Opcode

/-- Instructions of Winbond devices. -/
inductive WinbondOpcode where
  | readStatus2
  | writeStatus2
  | enterQuadProtocol
  | setReadParameters
  deriving DecidableEq

namespace WinbondOpcode

/-- The byte sent on the bus. -/
def code : WinbondOpcode → UInt8
  | readStatus2 => 0x35
  | writeStatus2 => 0x31
  | enterQuadProtocol => 0x38
  | setReadParameters => 0xC0

/-- Every Winbond instruction. -/
def all : List WinbondOpcode :=
  [readStatus2, writeStatus2, enterQuadProtocol, setReadParameters]

end WinbondOpcode

/-- Instructions of Micron devices. -/
inductive MicronOpcode where
  | readVolatileConfig
  | writeVolatileConfig
  | readEnhancedConfig
  | writeEnhancedConfig
  deriving DecidableEq

namespace MicronOpcode

/-- The byte sent on the bus. -/
def code : MicronOpcode → UInt8
  | readVolatileConfig => 0x85
  | writeVolatileConfig => 0x81
  | readEnhancedConfig => 0x65
  | writeEnhancedConfig => 0x61

/-- Every Micron instruction. -/
def all : List MicronOpcode :=
  [readVolatileConfig, writeVolatileConfig, readEnhancedConfig, writeEnhancedConfig]

end MicronOpcode

end NorFlash
