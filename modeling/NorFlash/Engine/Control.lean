import NorFlash.Engine.Quad
import NorFlash.Jedec.Id

/-!
# Engine control

Identifying the device and bringing it into quad mode, returning it to its default state,
power-down, reset, and memory-mapped mode.
-/

namespace NorFlash

namespace Engine

/-- Reads the device's identification, without consulting the catalog. Identification is always read
on one line. -/
def readId (engine : Engine) : Action JedecId :=
  engine.withBus do
    let command := (Command.instruct Opcode.readJedecId.code .single).reading 3 .single
    let received ← BusAction.transfer (.start command) engine.timeouts.command
    let bytes := received.getD []
    return JedecId.ofBytes (bytes.getD 0 0) (bytes.getD 1 0) (bytes.getD 2 0)

/-- Enters or leaves deep power-down. -/
def sleep (engine : Engine) (enter : Bool) : Action Unit :=
  engine.withBus do
    let opcode := if enter then Opcode.powerDown else Opcode.releasePowerDown
    BusAction.instruct opcode.code (← BusAction.width)

/-- Resets the device, which then listens on one line. -/
def reset (engine : Engine) : Action Unit :=
  engine.withBus do
    let width ← BusAction.width
    BusAction.instruct Opcode.enableReset.code width
    BusAction.instruct Opcode.reset.code width
    BusAction.setWidth .single

/-- Maps the device into the controller's address space. -/
def enterMapped (engine : Engine) : Action Unit := do
  let device ← MonadExcept.ofExcept engine.requireDevice
  engine.withBus do
    let command := (readCommand device (← BusAction.width)).atAddress 0 .quad
    discard <| BusAction.call (.map command)
    modify fun bus => { bus with mapped := true }

/-- Ends the mapping; this aborts even if nothing is mapped. -/
def exitMapped (engine : Engine) : Action Unit :=
  engine.holdingBus do
    BusAction.lift Action.abort
    modify fun bus => { bus with mapped := false }

/-- Reads the identification and looks it up in the catalog. -/
def identify (engine : Engine) : Action Identity := do
  let id ← engine.readId
  match Catalog.identify? id.manufacturer id.device with
  | some (manufacturer, device) => return ⟨manufacturer, device⟩
  | none => throw (.unsupported id.manufacturer id.device)

/-- The instructions that wake and reset a device. -/
def wakeSequence : List Opcode :=
  [.releasePowerDown, .enableReset, .reset]

/-- Wakes and resets a device that did not answer. It may be asleep, or in quad mode from an earlier
session, so the sequence is sent on four lines, where failures do not matter, and then on one. -/
def recover (engine : Engine) : Action Unit :=
  engine.withBus do
    wakeSequence.forM fun opcode => BusAction.attempt (BusAction.instruct opcode.code .quad)
    wakeSequence.forM fun opcode => BusAction.instruct opcode.code .single
    BusAction.setWidth .single

/-- Brings an identified device into quad mode. -/
def enterQuad (engine : Engine) (identity : Identity) : Action Unit :=
  engine.withBus do
    let width ← BusAction.lift (identity.manufacturer.quadEntry.enter identity.device)
    BusAction.setWidth width

/-- Identifies the device, after waking and resetting it if it does not answer at first, and brings
it into quad mode. -/
def acquireDevice (engine : Engine) : Action Identity := do
  let identity ← tryCatch engine.identify fun _ => do
    engine.recover
    engine.identify
  engine.enterQuad identity
  return identity

/-- Makes the engine ready for use. If that fails, no device is identified. -/
def bringUp (engine : Engine) : Program (Except Fault Unit × Engine) := do
  match ← engine.acquireDevice.run with
  | .ok identity => return (.ok (), { engine with identity := some identity })
  | .error fault => return (.error fault, engine.forget)

/-- Forgets the device and returns it to its default state. A failure to wake it does not matter. -/
def shutDown (engine : Engine) : Program (Except Fault Unit × Engine) := do
  discard (engine.sleep false).run
  let result ← engine.reset.run
  return (result, engine.forget)

end Engine

end NorFlash
