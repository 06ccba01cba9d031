import NorFlash.Engine.Operation

/-!
# Block device

A flash engine as an array of blocks, one sector each. A write reads the stored blocks first, and
erases only when some stored bit would have to return to one; blocks of erased data are only erased.
Callers must not write the same blocks at the same time.
-/

namespace NorFlash

/-- A block device on top of an engine. -/
structure BlockDevice where
  engine : Engine
  isOpen : Bool

/-- A request that leaves the block device itself as it is. -/
inductive BlockOperation where
  /-- Completes the writes asked for, which they are already. -/
  | sync
  | readBlocks (block : UInt32) (count : Nat)
  | writeBlocks (block : UInt32) (count : Nat) (bytes : Bytes)
  /-- An operation of the engine below. -/
  | engine (operation : Operation)

/-- Any request to a block device. -/
inductive BlockRequest where
  | bringUp
  | shutDown
  | operation (operation : BlockOperation)

namespace BlockDevice

/-- A closed device on top of an engine. -/
def closed (engine : Engine) : BlockDevice :=
  ⟨engine, false⟩

/-- The block size in bytes. -/
def blockSize (device : BlockDevice) : Nat :=
  device.engine.sectorSize

/-- The number of blocks. -/
def blockCount (device : BlockDevice) : Nat :=
  device.engine.sectorCount

/-- Brings up the engine, unless the device is open already. -/
def bringUp (device : BlockDevice) : Program (Except Fault Unit × BlockDevice) := do
  if device.isOpen then
    return (.ok (), device)
  else
    let (result, engine) ← device.engine.bringUp
    return (result, ⟨engine, result.isOk⟩)

/-- Shuts the engine down, if the device is open. It is closed even if that fails. -/
def shutDown (device : BlockDevice) : Program (Except Fault Unit × BlockDevice) := do
  if device.isOpen then
    let (result, engine) ← device.engine.shutDown
    return (result, ⟨engine, false⟩)
  else
    return (.ok (), device)

/-- The bound of a length in bytes. -/
def lengthLimit : Nat := UInt64.size

/-- The length of so many blocks in bytes. -/
def blocksLength (device : BlockDevice) (count : Nat) : Except Fault Nat :=
  if device.blockSize = 0 then .error .notIdentified
  else if count * device.blockSize < lengthLimit then .ok (count * device.blockSize)
  else .error (.wrongLength 0 count)

/-- Checks that so many blocks from `block` on lie within the device. The fault carries the address
after the last of them, or the largest address if that is beyond it. -/
def checkBlocks (device : BlockDevice) (block : UInt32) (count : Nat) : Except Fault Unit :=
  let stop := block.toNat + count
  if stop ≤ device.blockCount then .ok ()
  else .error (.addressOutOfRange (UInt32.ofNat (min (stop * device.blockSize) lastAddress)))

/-- Reads so many blocks. -/
def readBlocks (device : BlockDevice) (block : UInt32) (count : Nat) : Action Bytes := do
  let length ← MonadExcept.ofExcept (device.blocksLength count)
  device.engine.readSector block length

/-- Erases so many blocks. -/
def eraseBlocks (device : BlockDevice) (block : UInt32) (count : Nat) : Action Unit :=
  (List.range count).forM fun offset =>
    device.engine.eraseSector (UInt32.ofNat (block.toNat + offset))

/-- A page of a block write: what is stored and what is to be stored. -/
structure PageChange where
  new : PagePiece
  old : Bytes

namespace PageChange

/-- Nothing has to be done. -/
def isUnchanged (change : PageChange) : Bool :=
  change.new.bytes == change.old

/-- Some byte differs from one that is not erased. -/
def needsErase (change : PageChange) : Bool :=
  (change.new.bytes.zip change.old).any fun (new, old) => new != old && old != Bytes.erased

end PageChange

/-- The pages of data to be stored at an address, beside what is stored there. -/
def pageChanges (address : Nat) (new old : Bytes) : List PageChange :=
  List.zipWith (fun new old => ⟨new, old.bytes⟩) (Page.cut address new) (Page.cut address old)

/-- Stores data that is not all ones: by programming the pages that change, if no page needs an
erase, and otherwise by erasing the blocks and programming all of the data. Nothing is erased or
programmed before that is decided. -/
def storeBlocks (device : BlockDevice) (block : UInt32) (count : Nat) (bytes : Bytes) :
    Action WriteRoute := do
  let address := UInt32.ofNat (block.toNat * device.blockSize)
  let stored ← device.engine.read address bytes.length
  let changes := (pageChanges address.toNat bytes stored).filter fun change => !change.isUnchanged
  if changes.any PageChange.needsErase then
    device.eraseBlocks block count
    device.engine.write address bytes
    return .rewritten
  else
    changes.forM fun change =>
      device.engine.write (UInt32.ofNat change.new.address) change.new.bytes
    return .filled changes.length

/-- Writes so many blocks. The data must be exactly as long as the blocks. -/
def writeBlocks (device : BlockDevice) (block : UInt32) (count : Nat) (bytes : Bytes) :
    Action WriteRoute := do
  let length ← MonadExcept.ofExcept (device.blocksLength count)
  if bytes.length ≠ length then
    throw (.wrongLength length bytes.length)
  else
    MonadExcept.ofExcept (device.checkBlocks block count)
    if count = 0 then
      return .filled 0
    else if bytes.all (· == Bytes.erased) then
      device.eraseBlocks block count
      return .erased
    else
      device.storeBlocks block count bytes

/-- The program of an operation. -/
def perform (device : BlockDevice) : BlockOperation → Program Outcome
  | .sync => return .ofUnit (.ok ())
  | .readBlocks block count => .ofValue .bytes <$> (device.readBlocks block count).run
  | .writeBlocks block count bytes =>
      .ofValue .route <$> (device.writeBlocks block count bytes).run
  | .engine operation => device.engine.perform operation

/-- The program of a request: its outcome, and the device afterwards. -/
def serve (device : BlockDevice) : BlockRequest → Program (Outcome × BlockDevice)
  | .bringUp => do
      let (result, device) ← device.bringUp
      return (.ofUnit result, device)
  | .shutDown => do
      let (result, device) ← device.shutDown
      return (.ofUnit result, device)
  | .operation operation => do
      let outcome ← device.perform operation
      return (outcome, device)

end BlockDevice

end NorFlash
