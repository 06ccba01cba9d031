import NorFlash.Engine.Basic
import NorFlash.Page

/-!
# Writing

Programming data over what is stored, page by page. Nothing is erased, so bits that are clear stay
clear.
-/

namespace NorFlash

namespace Engine

/-- Programs at most a page. Data that crosses the end of its page wraps around to the beginning of
that page. -/
def pageProgram (engine : Engine) (address : UInt32) (bytes : Bytes) : Action Unit := do
  discard <| MonadExcept.ofExcept engine.requireDevice
  engine.withBus do
    let width ← BusAction.width
    enableWrite
    let command := Command.instruct Opcode.pageProgram.code width
    let command := (command.atAddress address width).writing bytes width
    discard <| BusAction.transfer (.start command) engine.timeouts.command
    waitWhileBusy engine.timeouts.command

/-- Programs one piece, and reports the bytes programmed since `start`. -/
def programPiece (engine : Engine) (start : Nat) (piece : PagePiece) : Action Unit := do
  engine.pageProgram (UInt32.ofNat piece.address) piece.bytes
  Action.report (piece.address - start + piece.bytes.length)

/-- Programs data from an address on, and reports progress after each page. Stops at the first page
that fails. -/
def writeReporting (engine : Engine) (address : UInt32) (bytes : Bytes) : Action Unit := do
  discard <| MonadExcept.ofExcept engine.requireDevice
  if bytes = [] then
    return ()
  else
    MonadExcept.ofExcept (engine.checkRange address bytes.length)
    Action.report 0
    (Page.cut address.toNat bytes).forM (engine.programPiece address.toNat)

/-- As `writeReporting`, without reports. -/
def write (engine : Engine) (address : UInt32) (bytes : Bytes) : Action Unit :=
  (engine.writeReporting address bytes).silenced

/-- As `writeReporting`, with the reports shown on a meter instead of given to the caller. -/
def writeMetered (engine : Engine) (address : UInt32) (bytes : Bytes) : Action Unit :=
  (engine.writeReporting address bytes).silenced

/-- Programs data from the beginning of a sector on. -/
def writeSector (engine : Engine) (sector : UInt32) (bytes : Bytes) : Action Unit := do
  let address ← MonadExcept.ofExcept (engine.sectorAddress sector)
  engine.write address bytes

end Engine

end NorFlash
