import NorFlash.Engine.Control
import NorFlash.Engine.Erase
import NorFlash.Engine.Read
import NorFlash.Engine.Write

/-!
# Engine operations

What a caller can ask of an engine, as data, so that a run is a list of requests. An `Operation`
leaves the engine itself as it is, so several callers can ask for operations at once; an
`EngineRequest` may also change the engine. `Engine.perform` and `Engine.serve` are their programs.
-/

namespace NorFlash

/-- A request that leaves the engine itself as it is. -/
inductive Operation where
  | readId
  | sleep (enter : Bool)
  | reset
  | enterMapped
  | exitMapped
  | read (address : UInt32) (length : Nat)
  | readInto (address : UInt32) (buffer : Bytes)
  | readReporting (address : UInt32) (length : Nat)
  | readMetered (address : UInt32) (length : Nat)
  | readSector (sector : UInt32) (length : Nat)
  | write (address : UInt32) (bytes : Bytes)
  | writeReporting (address : UInt32) (bytes : Bytes)
  | writeMetered (address : UInt32) (bytes : Bytes)
  | writeSector (sector : UInt32) (bytes : Bytes)
  | pageProgram (address : UInt32) (bytes : Bytes)
  | erase (address : UInt32) (kind : EraseKind)
  | eraseChip
  | eraseRange (address : UInt32) (length : Nat)
  | eraseRangeReporting (address : UInt32) (length : Nat)
  | eraseRangeMetered (address : UInt32) (length : Nat)
  | eraseSector (sector : UInt32)

namespace Operation

/-- Operations that report progress to their caller. -/
def reports : Operation → Bool
  | readReporting .. | writeReporting .. | eraseRangeReporting .. => true
  | _ => false

/-- The buffer that the caller gives to the operation. -/
def buffer? : Operation → Option Bytes
  | readInto _ buffer => some buffer
  | _ => none

end Operation

/-- Any request to an engine. -/
inductive EngineRequest where
  | bringUp
  | shutDown
  | operation (operation : Operation)

/-- How `writeBlocks` stored its data. -/
inductive WriteRoute where
  /-- The data was all ones, so the blocks were only erased. -/
  | erased
  /-- Nothing was erased, and so many pages were programmed. -/
  | filled (pages : Nat)
  /-- The blocks were erased and wholly programmed. -/
  | rewritten
  deriving DecidableEq

/-- What a successful operation gives to its caller. -/
inductive Payload where
  | nothing
  | id (id : JedecId)
  | bytes (bytes : Bytes)
  | route (route : WriteRoute)
  deriving DecidableEq

/-- How an operation ended, and the caller's buffer afterwards if the operation was given one. -/
structure Outcome where
  result : Except Fault Payload
  buffer : Option Bytes

namespace Outcome

/-- The outcome of an action without value. -/
def ofUnit (result : Except Fault Unit) : Outcome :=
  ⟨result.map fun _ => .nothing, none⟩

/-- An outcome without a value succeeds if its result does. -/
theorem isOk_ofUnit (result : Except Fault Unit) : (ofUnit result).result.isOk = result.isOk := by
  cases result <;> rfl

/-- The outcome of an action with a value. -/
def ofValue {α : Type} (payload : α → Payload) (result : Except Fault α) : Outcome :=
  ⟨result.map payload, none⟩

end Outcome

namespace Engine

/-- The program of an operation. -/
def perform (engine : Engine) : Operation → Program Outcome
  | .readId => .ofValue .id <$> engine.readId.run
  | .sleep enter => .ofUnit <$> (engine.sleep enter).run
  | .reset => .ofUnit <$> engine.reset.run
  | .enterMapped => .ofUnit <$> engine.enterMapped.run
  | .exitMapped => .ofUnit <$> engine.exitMapped.run
  | .read address length => .ofValue .bytes <$> (engine.read address length).run
  | .readInto address buffer => do
      let (result, buffer) ← engine.readInto address buffer
      return ⟨result.map fun _ => .nothing, some buffer⟩
  | .readReporting address length =>
      .ofValue .bytes <$> (engine.readReporting address length).run
  | .readMetered address length => .ofValue .bytes <$> (engine.readMetered address length).run
  | .readSector sector length => .ofValue .bytes <$> (engine.readSector sector length).run
  | .write address bytes => .ofUnit <$> (engine.write address bytes).run
  | .writeReporting address bytes => .ofUnit <$> (engine.writeReporting address bytes).run
  | .writeMetered address bytes => .ofUnit <$> (engine.writeMetered address bytes).run
  | .writeSector sector bytes => .ofUnit <$> (engine.writeSector sector bytes).run
  | .pageProgram address bytes => .ofUnit <$> (engine.pageProgram address bytes).run
  | .erase address kind => .ofUnit <$> (engine.erase address kind).run
  | .eraseChip => .ofUnit <$> engine.eraseChip.run
  | .eraseRange address length => .ofUnit <$> (engine.eraseRange address length).run
  | .eraseRangeReporting address length =>
      .ofUnit <$> (engine.eraseRangeReporting address length).run
  | .eraseRangeMetered address length =>
      .ofUnit <$> (engine.eraseRangeMetered address length).run
  | .eraseSector sector => .ofUnit <$> (engine.eraseSector sector).run

/-- The program of a request: its outcome, and the engine afterwards. -/
def serve (engine : Engine) : EngineRequest → Program (Outcome × Engine)
  | .bringUp => do
      let (result, engine) ← engine.bringUp
      return (.ofUnit result, engine)
  | .shutDown => do
      let (result, engine) ← engine.shutDown
      return (.ofUnit result, engine)
  | .operation operation => do
      let outcome ← engine.perform operation
      return (outcome, engine)

end Engine

end NorFlash
