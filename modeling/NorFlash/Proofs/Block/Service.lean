import NorFlash.Proofs.Block.Writing
import NorFlash.Proofs.Engine.Awareness

/-!
# What a request to a block device leaves behind

A block device sends only what its engine would, `orderly_perform`, and its engine stays aware of
the chip in every request that does not put the chip to sleep, `ends_serve_aware`. Such a request
alters memory only where it writes blocks, if the operations of the engine that it passes on alter
none. `Blockwise` is what such a request is called, and `ends_serve_memory` says that it alters none
itself unless it is to write blocks.
-/

namespace NorFlash

namespace BlockOperation

/-- The instruction bytes that an operation may have a chip carry out. -/
def repertoire : BlockOperation → List UInt8
  | sync => []
  | readBlocks .. => Operation.repertoire (.readSector 0 0)
  | writeBlocks .. =>
      Operation.repertoire (.readSector 0 0) ++ Operation.repertoire (.writeSector 0 []) ++
        Operation.repertoire (.eraseSector 0)
  | engine operation => operation.repertoire

end BlockOperation

namespace BlockRequest

/-- The request alters memory by writing blocks only, and does not put the chip to sleep. -/
def Blockwise : BlockRequest → Prop
  | operation (.engine asked) => asked.altersMemory = false ∧ asked ≠ .sleep true
  | _ => True

/-- The address is in one of the blocks that the request is to write. -/
def Targets (address : Nat) : BlockRequest → Prop
  | operation (.writeBlocks block count _) =>
      block.toNat * sectorBytes ≤ address ∧ address < (block.toNat + count) * sectorBytes
  | _ => False

end BlockRequest

/-- Only an operation that alters memory sends anything that could. -/
theorem EngineRequest.keepsMemory {request : EngineRequest}
    (h : ∀ operation, request = .operation operation → operation.altersMemory = false) :
    Instruction.NoneAmong Instruction.changesMemory request.repertoire := by
  cases request with
  | bringUp => decide
  | shutDown => decide
  | operation operation => exact Operation.keepsMemory (h operation rfl)

namespace BlockDevice

open Engine

variable {widths : BusWidth → Prop} {bench : Bench} {device : BlockDevice} {id : JedecId}

section Orderly

variable (device)

/-- The calls of a block write. -/
private abbrev Rewrites : BusCall → Prop :=
  BusCall.Among (BlockOperation.repertoire (.writeBlocks 0 0 []))

/-- A block read sends nothing but reads. -/
theorem orderly_readBlocks (block : UInt32) (count : Nat) :
    (device.readBlocks block count).Orderly
      (BusCall.Among (BlockOperation.repertoire (.readBlocks block count))) widths false :=
  (Action.orderly_ofExcept _).bind fun length => device.engine.orderly_readSector block length

/-- Erasing blocks sends nothing but what a block write may send. -/
theorem orderly_eraseBlocks (block : UInt32) (count : Nat) :
    (device.eraseBlocks block count).Orderly Rewrites widths false :=
  Action.orderly_forM fun _ _ => (device.engine.orderly_eraseSector _).mono
    (fun _ h => h.mono (show Operation.repertoire (.eraseSector 0) ⊆ _ by decide)) fun _ h => h

/-- Storing data in blocks sends nothing but what a block write may send. -/
theorem orderly_storeBlocks (block : UInt32) (count : Nat) (bytes : Bytes) :
    (device.storeBlocks block count bytes).Orderly Rewrites widths false := by
  have hwrite : ∀ address bytes, (device.engine.write address bytes).Orderly Rewrites widths
      false := fun address bytes => (device.engine.orderly_write address bytes).mono
    (fun _ h => h.mono (by decide)) fun _ h => h
  refine Action.Orderly.bind ?_ fun stored => ?_
  · exact (device.engine.orderly_read _ _).mono (fun _ h => h.mono (by decide)) fun _ h => h
  · dsimp only
    split
    · exact (device.orderly_eraseBlocks block count).bind fun _ => (hwrite _ _).bind fun _ =>
        Action.orderly_pure _
    · exact (Action.orderly_forM fun _ _ => hwrite _ _).bind fun _ => Action.orderly_pure _

/-- A block write sends nothing but reads, programs and erases. -/
theorem orderly_writeBlocks (block : UInt32) (count : Nat) (bytes : Bytes) :
    (device.writeBlocks block count bytes).Orderly Rewrites widths false := by
  refine (Action.orderly_ofExcept _).bind fun length => ?_
  split
  · exact Action.orderly_throw _
  · refine (Action.orderly_ofExcept _).bind fun _ => ?_
    split
    · exact Action.orderly_pure _
    · split
      · exact (device.orderly_eraseBlocks block count).bind fun _ => Action.orderly_pure _
      · exact device.orderly_storeBlocks block count bytes

/-- An operation sends nothing but its repertoire, and only a reset records another width. -/
theorem orderly_perform (operation : BlockOperation)
    (h : operation = .engine .reset → widths .single) :
    (device.perform operation).Orderly (BusCall.Among operation.repertoire) widths false
      (fun _ => True) false := by
  cases operation with
  | sync => exact ⟨rfl, trivial⟩
  | readBlocks block count => exact (device.orderly_readBlocks block count).map
  | writeBlocks block count bytes => exact (device.orderly_writeBlocks block count bytes).map
  | engine operation => exact device.engine.orderly_perform operation fun hreset => h (hreset ▸ rfl)

end Orderly

/-- An operation is served by performing it, and leaves the device as it is. -/
theorem ends_serve_operation {operation : BlockOperation}
    {post : Outcome × BlockDevice → Bench → Prop} :
    (device.serve (.operation operation)).Ends Bench.environment post bench ↔
      (device.perform operation).Ends Bench.environment
        (fun outcome => post (outcome, device)) bench :=
  Program.ends_bind ..

/-- The request that a device makes of its engine, if it passes the one it got on. -/
def passedOn? (device : BlockDevice) : BlockRequest → Option EngineRequest
  | .bringUp => if device.isOpen then none else some .bringUp
  | .shutDown => if device.isOpen then some .shutDown else none
  | .operation (.engine operation) => some (.operation operation)
  | .operation _ => none

/-- What the engine makes of a request that is passed on to it is what the device does. -/
theorem ends_serve_passedOn {request : BlockRequest} {asked : EngineRequest}
    (hasked : device.passedOn? request = some asked) {post : Outcome → Engine → Bench → Prop}
    (hserve : (device.engine.serve asked).Ends Bench.environment
      (fun ended after => post ended.1 ended.2 after) bench) :
    (device.serve request).Ends Bench.environment
      (fun ended after => post ended.1 ended.2.engine after) bench := by
  cases request with
  | bringUp =>
      obtain ⟨hclosed, hup⟩ : device.isOpen = false ∧ .bringUp = asked := by
        simpa [passedOn?] using hasked
      subst hup
      refine (Program.ends_bind ..).mpr ?_
      rw [bringUp, if_neg (by simp [hclosed])]
      exact (Program.ends_bind ..).mpr (Program.Ends.mono ((Program.ends_bind ..).mp hserve)
        fun _ _ h => h)
  | shutDown =>
      obtain ⟨hopen, hdown⟩ : device.isOpen = true ∧ .shutDown = asked := by
        simpa [passedOn?] using hasked
      subst hdown
      refine (Program.ends_bind ..).mpr ?_
      rw [shutDown, if_pos hopen]
      exact (Program.ends_bind ..).mpr (Program.Ends.mono ((Program.ends_bind ..).mp hserve)
        fun _ _ h => h)
  | operation operation =>
      cases operation with
      | engine operation =>
          obtain rfl : .operation operation = asked := by simpa [passedOn?] using hasked
          exact (Program.ends_bind ..).mpr (Program.Ends.mono ((Program.ends_bind ..).mp hserve)
            fun _ _ h => h)
      | _ => simp [passedOn?] at hasked

/-- A device does nothing if it is open or closed already. -/
theorem serve_of_none {request : BlockRequest} (hasked : device.passedOn? request = none) :
    (∃ outcome, device.serve request = pure (outcome, device)) ∨
      ∃ operation : BlockOperation, request = .operation operation ∧
        ∀ other, operation ≠ .engine other := by
  cases request with
  | bringUp =>
      have hopen : device.isOpen = true := by simpa [passedOn?] using hasked
      exact .inl ⟨.ofUnit (.ok ()), by simp [serve, bringUp, hopen]⟩
  | shutDown =>
      have hclosed : device.isOpen = false := by simpa [passedOn?] using hasked
      exact .inl ⟨.ofUnit (.ok ()), by simp [serve, shutDown, hclosed]⟩
  | operation operation =>
      refine .inr ⟨operation, rfl, ?_⟩
      rintro other rfl
      simp [passedOn?] at hasked

/-- Only an operation of the engine is passed on as one. -/
theorem eq_of_passedOn {request : BlockRequest} {operation : Operation}
    (hasked : device.passedOn? request = some (.operation operation)) :
    request = .operation (.engine operation) := by
  cases request with
  | bringUp => simp [passedOn?] at hasked
  | shutDown => simp [passedOn?] at hasked
  | operation other =>
      cases other with
      | engine other => simpa [passedOn?] using hasked
      | _ => simp [passedOn?] at hasked

/-- The engine below stays aware, unless the chip is put to sleep. -/
theorem ends_serve_aware {request : BlockRequest}
    (hsleep : request ≠ .operation (.engine (.sleep true))) (h : device.engine.Aware id bench) :
    (device.serve request).Ends Bench.environment
      (fun ended after => ended.2.engine.Aware id after) bench := by
  cases hasked : device.passedOn? request with
  | some asked =>
      have hwakeful : asked.Wakeful := by
        unfold EngineRequest.Wakeful EngineRequest.sleeps
        split
        · exact absurd (eq_of_passedOn hasked) hsleep
        · rfl
      exact @ends_serve_passedOn bench device request asked hasked
        (fun _ engine after => Aware id engine after) (Engine.ends_serve_aware hwakeful h)
  | none =>
      obtain ⟨outcome, hserve⟩ | ⟨operation, rfl, hother⟩ := serve_of_none hasked
      · rw [hserve]
        exact h
      · refine ends_serve_operation.mpr (h.ends_orderly (fun width =>
          device.orderly_perform operation fun hreset => absurd hreset (hother _)) ?_)
        cases operation with
        | engine asked => exact absurd rfl (hother asked)
        | _ => simp only [BlockOperation.repertoire]; decide

/-! ## What is stored -/

/-- Without an identified device there are no blocks to have a length. -/
theorem blocksLength_of_none (h : device.engine.identity = none) (count : Nat) :
    device.blocksLength count = .error .notIdentified := by
  have hsize : device.blockSize = 0 := by simp [blockSize, sectorSize, device?, h]
  rw [blocksLength, if_pos hsize]

/-- A block write by an engine that is aware of the width stores its data, or changes no other
block. -/
theorem ends_writeBlocks_aware (h : device.engine.Aware id bench) (block : UInt32) (count : Nat)
    (bytes : Bytes) :
    (device.writeBlocks block count bytes).Ends Bench.environment
      (fun _ after => ∃ width, Stores width block.toNat count bytes bench after)
      (fun _ after => Memory.Within (block.toNat * sectorBytes)
        ((block.toNat + count) * sectorBytes) bench.chip.memory after.chip.memory) bench := by
  cases hidentity : device.engine.identity with
  | none =>
      unfold writeBlocks
      rw [blocksLength_of_none hidentity, Action.ends_bind, Action.ends_ofExcept]
      exact .refl ..
  | some identity =>
      obtain ⟨bus, -, hserving⟩ := h.serving hidentity
      exact (ends_writeBlocks hserving).mono (fun _ _ hafter => ⟨_, hafter⟩)
        fun _ _ hafter => hafter.memory

/-- A block read by an engine that is aware of the width delivers what is stored. -/
theorem ends_readBlocks_aware (h : device.engine.Aware id bench) (block : UInt32) (count : Nat) :
    (device.readBlocks block count).Ends Bench.environment
      (fun bytes _ =>
        bytes = bench.chip.memory.read (block.toNat * sectorBytes) (count * sectorBytes) ∧
          (count ≠ 0 → (block.toNat + count) * sectorBytes ≤ bench.chip.memory.size))
      (fun _ _ => True) bench := by
  cases hidentity : device.engine.identity with
  | none =>
      unfold readBlocks
      rw [blocksLength_of_none hidentity, Action.ends_bind, Action.ends_ofExcept]
      trivial
  | some identity =>
      obtain ⟨bus, -, hserving⟩ := h.serving hidentity
      exact (ends_readBlocks hserving block count).mono (fun _ _ hafter => hafter.2)
        fun _ _ _ => trivial

/-- A request that alters memory by writing blocks only leaves all of it alone, or is a write. -/
theorem ends_serve_memory {request : BlockRequest} (hblockwise : request.Blockwise)
    (hwrite : ∀ block count bytes, request ≠ .operation (.writeBlocks block count bytes))
    (h : device.engine.Aware id bench) :
    (device.serve request).Ends Bench.environment
      (fun _ after => after.chip.memory = bench.chip.memory) bench := by
  cases hasked : device.passedOn? request with
  | some asked =>
      refine @ends_serve_passedOn bench device request asked hasked
        (fun _ _ after => after.chip.memory = bench.chip.memory) ?_
      refine (device.engine.orderly_serve asked).memory h.settled.free
        (EngineRequest.keepsMemory ?_)
      rintro operation rfl
      obtain rfl := eq_of_passedOn hasked
      exact hblockwise.1
  | none =>
      obtain ⟨outcome, hserve⟩ | ⟨operation, rfl, hother⟩ := serve_of_none hasked
      · rw [hserve]
        rfl
      · refine ends_serve_operation.mpr ?_
        have horderly : (device.perform operation).Orderly
            (BusCall.Among operation.repertoire) (fun _ => True) false (fun _ => True) false :=
          device.orderly_perform operation fun _ => trivial
        cases operation with
        | engine asked => exact absurd rfl (hother asked)
        | writeBlocks block count bytes => exact absurd rfl (hwrite block count bytes)
        | _ =>
            refine horderly.memory h.settled.free ?_
            simp only [BlockOperation.repertoire]
            decide

end BlockDevice

end NorFlash
