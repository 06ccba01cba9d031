import NorFlash.Engine.Basic

/-!
# Entering quad mode

The manufacturers keep their quad enable and dummy cycle settings in different registers, so each
has its own sequence for bringing a device into quad mode. A sequence starts with the device awake
and listening on one line, and its result is the width to use from then on.
-/

namespace NorFlash

namespace QuadEntry

/-- Reads a register of one byte. -/
def readRegister (code : UInt8) (width : BusWidth) : Action UInt8 := do
  let received ← Action.call (.command ((Command.instruct code width).reading 1 width))
  return (received.getD []).headD 0

/-- Writes a register of one byte. -/
def writeRegister (code : UInt8) (width : BusWidth) (value : UInt8) : Action Unit :=
  discard <| Action.call (.command ((Command.instruct code width).writing [value] width))

/-- Sends an instruction on one line, without address or data. -/
def instruct (code : UInt8) : Action Unit :=
  discard <| Action.call (.command (.instruct code .single))

/-- Winbond devices need the quad enable bit, which is set in the volatile copy of status register 2
only. They then change to a protocol in which every phase uses four lines, which is volatile too,
and in which their dummy cycles can be set. -/
def enterWinbond (device : Descriptor) : Action BusWidth := do
  match (ReadParameters.mk 0).withDummyCycles? device.quadDummyCycles with
  | none => throw (.unencodableDummyCycles device.quadDummyCycles)
  | some parameters =>
      let status2 := Status2.mk (← readRegister WinbondOpcode.readStatus2.code .single)
      unless status2.quadEnabled do
        instruct Opcode.writeEnableVolatile.code
        writeRegister WinbondOpcode.writeStatus2.code .single (status2.withQuadEnable true).value
      instruct WinbondOpcode.enterQuadProtocol.code
      writeRegister WinbondOpcode.setReadParameters.code .quad parameters.value
      return .quad

/-- Micron devices select the protocol in the enhanced volatile configuration, and keep their dummy
cycles in the volatile one. A device that is in quad protocol already is left alone. -/
def enterMicron (device : Descriptor) : Action BusWidth := do
  let enhanced := EnhancedConfig.mk (← readRegister MicronOpcode.readEnhancedConfig.code .single)
  if enhanced.quadProtocol then
    return .quad
  else
    let config := VolatileConfig.mk (← readRegister MicronOpcode.readVolatileConfig.code .single)
    match config.withDummyCycles? device.quadDummyCycles with
    | none => throw (.unencodableDummyCycles device.quadDummyCycles)
    | some config =>
        instruct Opcode.writeEnable.code
        writeRegister MicronOpcode.writeVolatileConfig.code .single config.value
        instruct Opcode.writeEnable.code
        writeRegister MicronOpcode.writeEnhancedConfig.code .single
          (enhanced.withQuadProtocol true).value
        return .quad

/-- The sequence for a device. -/
def enter (entry : QuadEntry) (device : Descriptor) : Action BusWidth :=
  match entry with
  | winbond => enterWinbond device
  | micron => enterMicron device

end QuadEntry

end NorFlash
