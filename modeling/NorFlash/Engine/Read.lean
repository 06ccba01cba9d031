import NorFlash.Engine.Basic

/-!
# Reading

Reads by the fast quad read instruction: in one transfer, or in up to 128 that report progress.
-/

namespace NorFlash

namespace Engine

/-- Reads so many bytes in one transfer, all checks passed. The result is what the device sent, and
how the transfer ended. -/
def fetch (engine : Engine) (device : Descriptor) (address : UInt32) (length : Nat) :
    Action (Option Bytes × Except Fault Unit) :=
  engine.withBus do
    let command := ((readCommand device (← BusAction.width)).atAddress address .quad).reading
      length .quad
    BusAction.lift (liftM (Program.exchange (.start command) engine.timeouts.command))

/-- Reads over the bytes of a buffer, from an address on. The result is how the read ended, and the
buffer afterwards: a transfer that fails to begin leaves it alone, and one that does not complete in
time may have filled it. An empty buffer needs no transfer and no valid address. -/
def readInto (engine : Engine) (address : UInt32) (buffer : Bytes) :
    Program (Except Fault Unit × Bytes) :=
  match engine.requireDevice with
  | .error fault => return (.error fault, buffer)
  | .ok device =>
      if buffer = [] then
        return (.ok (), buffer)
      else
        match engine.checkRange address buffer.length with
        | .error fault => return (.error fault, buffer)
        | .ok () => do
            match ← (engine.fetch device address buffer.length).run with
            | .error fault => return (.error fault, buffer)
            | .ok (received, outcome) => return (outcome, received.getD buffer)

/-- Reads so many bytes into a zeroed buffer. -/
def readZeroed (engine : Engine) (address : UInt32) (length : Nat) : Action Bytes := do
  let (outcome, bytes) ← liftM (engine.readInto address (List.replicate length 0))
  MonadExcept.ofExcept outcome
  return bytes

/-- Reads so many bytes from an address. -/
def read (engine : Engine) (address : UInt32) (length : Nat) : Action Bytes := do
  discard <| MonadExcept.ofExcept engine.requireDevice
  MonadExcept.ofExcept (engine.checkRange address length)
  engine.readZeroed address length

/-- The most transfers a read is divided into. -/
def mostTransfers : Nat := 128

/-- The least bytes of a transfer of a divided read, the last one excepted. -/
def leastTransfer : Nat := 1024

/-- The bytes of each transfer of a divided read of so many bytes, the last one excepted. -/
def transferSize (length : Nat) : Nat :=
  max leastTransfer (length / mostTransfers)

/-- The offset and size of each part of `length` bytes divided into parts of `size` bytes. -/
def spans (length size : Nat) : List (Nat × Nat) :=
  (List.range ((length + size - 1) / size)).map fun part =>
    (part * size, min size (length - part * size))

/-- Reads one part of a divided read, and reports the bytes read so far. -/
def readSpan (engine : Engine) (address : UInt32) (span : Nat × Nat) : Action Bytes := do
  let bytes ← engine.readZeroed (UInt32.ofNat (address.toNat + span.1)) span.2
  Action.report (span.1 + span.2)
  return bytes

/-- As `read`, divided into transfers between which progress is reported. -/
def readReporting (engine : Engine) (address : UInt32) (length : Nat) : Action Bytes := do
  discard <| MonadExcept.ofExcept engine.requireDevice
  MonadExcept.ofExcept (engine.checkRange address length)
  Action.report 0
  let parts ← (spans length (transferSize length)).mapM (engine.readSpan address)
  Action.report length
  return parts.flatten

/-- As `readReporting`, with the reports shown on a meter instead of given to the caller. -/
def readMetered (engine : Engine) (address : UInt32) (length : Nat) : Action Bytes :=
  (engine.readReporting address length).silenced

/-- Reads so many bytes from the beginning of a sector. -/
def readSector (engine : Engine) (sector : UInt32) (length : Nat) : Action Bytes := do
  let address ← MonadExcept.ofExcept (engine.sectorAddress sector)
  engine.read address length

end Engine

end NorFlash
