import NorFlash.Chip.Basic
import NorFlash.Erase.Unit
import NorFlash.Opcode

/-!
# Chip instructions

The instruction set of each vendor's chips, as a table from instruction bytes to instructions. A
byte that is not in the table is one the chip ignores.
-/

namespace NorFlash

/-- What a chip can be told to do. -/
inductive Instruction where
  | readId
  | readStatus1
  | enableWrite
  | disableWrite
  | sleep
  | wake
  | enableReset
  | reset
  | program
  | erase (unit : EraseUnit)
  | eraseChip
  | readQuad
  | enableVolatileWrite
  | readStatus2
  | writeStatus2
  | enterQuadProtocol
  | setReadParameters
  | readVolatileConfig
  | writeVolatileConfig
  | readEnhancedConfig
  | writeEnhancedConfig
  deriving DecidableEq

namespace Instruction

/-- The instructions of every chip. -/
def shared : List (UInt8 × Instruction) :=
  [(Opcode.readJedecId.code, readId),
    (Opcode.readStatus1.code, readStatus1),
    (Opcode.writeEnable.code, enableWrite),
    (Opcode.writeDisable.code, disableWrite),
    (Opcode.powerDown.code, sleep),
    (Opcode.releasePowerDown.code, wake),
    (Opcode.enableReset.code, enableReset),
    (Opcode.reset.code, reset),
    (Opcode.pageProgram.code, program),
    (EraseUnit.sector.opcode, erase .sector),
    (EraseUnit.block32K.opcode, erase .block32K),
    (EraseUnit.block64K.opcode, erase .block64K),
    (EraseKind.chip.opcode, eraseChip),
    (Opcode.fastReadQuad.code, readQuad)]

/-- The instructions that only chips of one vendor have. -/
def ofVendor : Vendor → List (UInt8 × Instruction)
  | .winbond =>
      [(Opcode.writeEnableVolatile.code, enableVolatileWrite),
        (WinbondOpcode.readStatus2.code, readStatus2),
        (WinbondOpcode.writeStatus2.code, writeStatus2),
        (WinbondOpcode.enterQuadProtocol.code, enterQuadProtocol),
        (WinbondOpcode.setReadParameters.code, setReadParameters)]
  | .micron =>
      [(MicronOpcode.readVolatileConfig.code, readVolatileConfig),
        (MicronOpcode.readEnhancedConfig.code, readEnhancedConfig),
        (MicronOpcode.writeVolatileConfig.code, writeVolatileConfig),
        (MicronOpcode.writeEnhancedConfig.code, writeEnhancedConfig)]
  | .other => []

/-- The instruction that a byte stands for on a vendor's chips. -/
def decode? (vendor : Vendor) (code : UInt8) : Option Instruction :=
  (shared ++ ofVendor vendor).lookup code

end Instruction

end NorFlash
