import NorFlash.Bench.Session
import NorFlash.Proofs.Block.Ranges
import NorFlash.Proofs.Engine.Quota

/-!
# Addresses of a run

A block device leaves the addresses to its engine, so what holds of the operations of an engine
holds of all requests: `Subject.puts_serve?`. `Subject.Obtained` is what callers can come to have,
by any run of requests in any surroundings; its device is always one of the catalog.
`addresses_lie_inside` is what that means for a run. Every address on the bus lies within the
identified device and has 24 bits, and a request for bytes beyond it is denied, page programs
excepted.
-/

namespace NorFlash

variable {σ : Type}

namespace BlockDevice

open Engine

variable (device : BlockDevice)

/-- A read of blocks puts addresses inside the device on the bus. -/
theorem puts_readBlocks (block : UInt32) (count : Nat) :
    (device.readBlocks block count).Puts device.engine.Inside :=
  (Action.orderly_ofExcept _).bind fun length => device.engine.puts_readSector block length

/-- An erase of blocks puts addresses inside the device on the bus. -/
theorem puts_eraseBlocks (block : UInt32) (count : Nat) :
    (device.eraseBlocks block count).Puts device.engine.Inside :=
  Action.orderly_forM fun _ _ => device.engine.puts_eraseSector _

/-- Storing blocks puts addresses inside the device on the bus. -/
theorem puts_storeBlocks (block : UInt32) (count : Nat) (bytes : Bytes) :
    (device.storeBlocks block count bytes).Puts device.engine.Inside := by
  refine (device.engine.puts_read _ _).bind fun stored => ?_
  dsimp only
  split
  · exact (device.puts_eraseBlocks block count).bind fun _ =>
      (device.engine.puts_write _ bytes).bind fun _ => Action.orderly_pure _
  · exact (Action.orderly_forM fun _ _ => device.engine.puts_write _ _).bind fun _ =>
      Action.orderly_pure _

/-- A write of blocks puts addresses inside the device on the bus. -/
theorem puts_writeBlocks (block : UInt32) (count : Nat) (bytes : Bytes) :
    (device.writeBlocks block count bytes).Puts device.engine.Inside := by
  refine (Action.orderly_ofExcept _).bind fun length => ?_
  split
  · exact Action.orderly_throw _
  · refine (Action.orderly_ofExcept _).bind fun _ => ?_
    split
    · exact Action.orderly_pure _
    · split
      · exact (device.puts_eraseBlocks block count).bind fun _ => Action.orderly_pure _
      · exact device.puts_storeBlocks block count bytes

variable {allowed : UInt32 → Prop}

/-- Opening puts no address on the bus. -/
theorem puts_bringUp : device.bringUp.Puts allowed := by
  unfold bringUp
  split
  · exact ⟨rfl, trivial⟩
  · exact Program.Orderly.bind device.engine.puts_bringUp fun _ _ => ⟨rfl, trivial⟩

/-- Closing puts no address on the bus. -/
theorem puts_shutDown : device.shutDown.Puts allowed := by
  unfold shutDown
  split
  · exact Program.Orderly.bind device.engine.puts_shutDown fun _ _ => ⟨rfl, trivial⟩
  · exact ⟨rfl, trivial⟩

end BlockDevice

namespace Request

/-- The operation of an engine that is asked for, be it through a block device. -/
def operation? : Request → Option Operation
  | engine (.operation operation) | device (.operation (.engine operation)) => some operation
  | _ => none

/-- The request is for a page program at the address. -/
def Programs (request : Request) (address : UInt32) : Prop :=
  ∃ bytes, request.operation? = some (.pageProgram address bytes)

/-- The stretch of bytes that a request names, given the size of a sector: where it begins, and how
many bytes it has. Blocks name one only if their length can be told and, for a write, is that of the
data. -/
def extent? (sectorSize : Nat) : Request → Option (Nat × Nat)
  | engine (.operation operation) | device (.operation (.engine operation)) =>
      operation.extent? sectorSize
  | device (.operation (.readBlocks block count)) =>
      if count * sectorSize < BlockDevice.lengthLimit then
        some (block.toNat * sectorSize, count * sectorSize)
      else none
  | device (.operation (.writeBlocks block count bytes)) =>
      if count * sectorSize < BlockDevice.lengthLimit ∧ bytes.length = count * sectorSize then
        some (block.toNat * sectorSize, count * sectorSize)
      else none
  | _ => none

end Request

/-- An engine puts addresses inside the device on the bus, or the one it is to program at. -/
theorem Engine.puts_serve {engine : Engine} (h : engine.Catalogued) (request : EngineRequest) :
    (engine.serve request).Puts fun address =>
      engine.Inside address ∨ (Request.engine request).Programs address := by
  cases request with
  | bringUp => exact Program.Orderly.bind engine.puts_bringUp fun _ _ => ⟨rfl, trivial⟩
  | shutDown => exact Program.Orderly.bind engine.puts_shutDown fun _ _ => ⟨rfl, trivial⟩
  | operation operation =>
      refine Program.Orderly.bind ((engine.puts_perform h operation).mono
        (fun _ hputs address haddress => ?_) fun _ h => h) fun _ _ => ⟨rfl, trivial⟩
      exact (hputs address haddress).imp_right fun ⟨bytes, hbytes⟩ => ⟨bytes, congrArg some hbytes⟩

/-- So does a block device. -/
theorem BlockDevice.puts_serve {device : BlockDevice} (h : device.engine.Catalogued)
    (request : BlockRequest) :
    (device.serve request).Puts fun address =>
      device.engine.Inside address ∨ (Request.device request).Programs address := by
  have hblocks {program : Program Outcome} (hinside : program.Puts device.engine.Inside) :
      (program >>= fun outcome => pure (outcome, device)).Puts fun address =>
        device.engine.Inside address ∨ (Request.device request).Programs address :=
    (hinside.mono (fun _ hputs address haddress => .inl (hputs address haddress))
      fun _ h => h).bind fun _ _ => ⟨rfl, trivial⟩
  cases request with
  | bringUp => exact Program.Orderly.bind device.puts_bringUp fun _ _ => ⟨rfl, trivial⟩
  | shutDown => exact Program.Orderly.bind device.puts_shutDown fun _ _ => ⟨rfl, trivial⟩
  | operation operation =>
      cases operation with
      | sync => exact ⟨rfl, trivial⟩
      | readBlocks block count => exact hblocks (device.puts_readBlocks block count).map
      | writeBlocks block count bytes =>
          exact hblocks (device.puts_writeBlocks block count bytes).map
      | engine operation =>
          refine Program.Orderly.bind ((device.engine.puts_perform h operation).mono
            (fun _ hputs address haddress => ?_) fun _ h => h) fun _ _ => ⟨rfl, trivial⟩
          exact (hputs address haddress).imp_right fun ⟨bytes, hbytes⟩ =>
            ⟨bytes, congrArg some hbytes⟩

namespace Subject

/-- Whatever the surroundings answer, a request puts only addresses within the identified device on
the bus, unless it is for a page program at another one. -/
theorem puts_serve? {subject : Subject} (h : subject.flash.Catalogued) {request : Request}
    {program : Program (Outcome × Subject)} (hserve : subject.serve? request = some program) :
    program.Puts fun address => subject.flash.Inside address ∨ request.Programs address := by
  match subject, request with
  | .engine flash, .engine request =>
      cases hserve
      exact Program.Orderly.bind (Engine.puts_serve h request) fun _ _ => ⟨rfl, trivial⟩
  | .device blocks, .engine (.operation operation) =>
      cases hserve
      exact Program.Orderly.bind (BlockDevice.puts_serve h (.operation (.engine operation)))
        fun _ _ => ⟨rfl, trivial⟩
  | .device blocks, .device request =>
      cases hserve
      exact Program.Orderly.bind (BlockDevice.puts_serve h request) fun _ _ => ⟨rfl, trivial⟩
  | .engine _, .device _ | .device _, .engine .bringUp | .device _, .engine .shutDown =>
      cases hserve

end Subject

/-! ## Requests outside the device are denied -/

/-- An operation that ends without a dialogue is a request that does. -/
theorem Engine.serve_of_perform {engine : Engine} {operation : Operation} {outcome : Outcome}
    (h : engine.perform operation = pure outcome) :
    engine.serve (.operation operation) = pure (outcome, engine) := by
  simp only [serve, h]
  rfl

/-- The same of the operation of a block device. -/
theorem BlockDevice.serve_of_perform {device : BlockDevice} {operation : BlockOperation}
    {outcome : Outcome} (h : device.perform operation = pure outcome) :
    device.serve (.operation operation) = pure (outcome, device) := by
  simp only [serve, h]
  rfl

/-- A block operation for bytes that end beyond the device is denied at once. -/
theorem BlockDevice.perform_denied {device : BlockDevice} {found : Descriptor}
    (hfound : device.engine.requireDevice = .ok found) {operation : BlockOperation}
    {start length : Nat}
    (hextent : (Request.device (.operation operation)).extent? device.blockSize =
      some (start, length))
    (hlength : length ≠ 0) (hbeyond : device.engine.capacity < start + length) :
    ∃ last buffer, device.perform operation = pure ⟨.error (.addressOutOfRange last), buffer⟩ := by
  cases operation with
  | sync => cases hextent
  | readBlocks block count =>
      obtain ⟨hfits, hblocks⟩ := Option.ite_some_none_eq_some.mp hextent
      obtain ⟨rfl, rfl⟩ := Prod.mk.inj hblocks
      simp only [perform]
      rw [readBlocks_beyond hfound (Nat.mul_ne_zero_iff.mp hlength).2 hfits hbeyond]
      exact ⟨_, none, rfl⟩
  | writeBlocks block count bytes =>
      obtain ⟨⟨hfits, hbytes⟩, hblocks⟩ := Option.ite_some_none_eq_some.mp hextent
      obtain ⟨rfl, rfl⟩ := Prod.mk.inj hblocks
      simp only [perform]
      rw [writeBlocks_beyond (Nat.mul_ne_zero_iff.mp hlength).2 hfits hbytes hbeyond]
      exact ⟨_, none, rfl⟩
  | engine operation =>
      exact ⟨_, operation.buffer?, Engine.perform_denied hfound hextent hlength hbeyond⟩

namespace Subject

/-- A request for bytes that end beyond the identified device is denied at once. -/
theorem serve?_denied {subject : Subject} {found : Descriptor}
    (hfound : subject.flash.requireDevice = .ok found) {request : Request}
    {program : Program (Outcome × Subject)} (hserve : subject.serve? request = some program)
    {start length : Nat} (hextent : request.extent? subject.flash.sectorSize = some (start, length))
    (hlength : length ≠ 0) (hbeyond : subject.flash.capacity < start + length) :
    ∃ last buffer, program = pure (⟨.error (.addressOutOfRange last), buffer⟩, subject) := by
  cases subject with
  | engine flash =>
      have hflash : flash.requireDevice = .ok found := hfound
      rcases request with (_ | _ | operation) | _
      case engine.operation =>
        cases hserve
        rw [Engine.serve_of_perform (Engine.perform_denied hflash hextent hlength hbeyond)]
        exact ⟨_, operation.buffer?, rfl⟩
      case device => cases hserve
      all_goals cases hextent
  | device blocks =>
      have hflash : blocks.engine.requireDevice = .ok found := hfound
      rcases request with (_ | _ | operation) | (_ | _ | operation)
      case engine.operation =>
        cases hserve
        obtain ⟨last, buffer, hlast⟩ := BlockDevice.perform_denied hflash
          (show (Request.device (.operation (.engine operation))).extent? blocks.blockSize =
            some (start, length) from hextent) hlength hbeyond
        rw [BlockDevice.serve_of_perform hlast]
        exact ⟨last, buffer, rfl⟩
      case device.operation =>
        cases hserve
        obtain ⟨last, buffer, hlast⟩ := BlockDevice.perform_denied hflash hextent hlength hbeyond
        rw [BlockDevice.serve_of_perform hlast]
        exact ⟨last, buffer, rfl⟩
      all_goals cases hextent

/-! ## Runs -/

/-- What callers can come to have: a new engine, and what is left by a request, by putting an engine
into a block device or taking it out, or by setting its timeouts. The surroundings may be in any
state when a request is made. -/
inductive Obtained (environment : Environment σ) : Subject → Prop where
  | fresh (timeouts : Timeouts) : Obtained environment (.engine (.fresh timeouts))
  | served {subject : Subject} {request : Request} {program : Program (Outcome × Subject)}
      (state : σ) :
      Obtained environment subject → subject.serve? request = some program →
      Obtained environment (program.run environment state).1.2
  | wrapped {flash : Engine} :
      Obtained environment (.engine flash) → Obtained environment (.device (.closed flash))
  | unwrapped {blocks : BlockDevice} :
      Obtained environment (.device blocks) → Obtained environment (.engine blocks.engine)
  | timed {flash : Engine} (timeouts : Timeouts) :
      Obtained environment (.engine flash) →
      Obtained environment (.engine { flash with timeouts })

variable {environment : Environment σ}

/-- An engine that has served a request can be had. -/
theorem Obtained.served_engine {flash : Engine} (h : Obtained environment (.engine flash))
    (request : EngineRequest) (state : σ) :
    Obtained environment (.engine ((flash.serve request).run environment state).1.2) := by
  have hserved := h.served state
    (show (Subject.engine flash).serve? (.engine request) = some _ from rfl)
  rwa [Program.run_bind] at hserved

/-- Whatever the surroundings answer, a request leaves a subject whose device is in the catalog. -/
theorem ends_serve?_catalogued {subject : Subject} (h : subject.flash.Catalogued)
    {request : Request} {program : Program (Outcome × Subject)}
    (hserve : subject.serve? request = some program) (state : σ) :
    program.Ends environment (fun ended _ => ended.2.flash.Catalogued) state := by
  match subject, request with
  | .engine flash, .engine request =>
      cases hserve
      exact (Program.ends_bind ..).mpr (Engine.ends_serve_catalogued h request)
  | .device blocks, .engine (.operation operation) =>
      cases hserve
      exact (Program.ends_bind ..).mpr
        (BlockDevice.ends_serve_catalogued h (.operation (.engine operation)))
  | .device blocks, .device request =>
      cases hserve
      exact (Program.ends_bind ..).mpr (BlockDevice.ends_serve_catalogued h request)
  | .engine _, .device _ | .device _, .engine .bringUp | .device _, .engine .shutDown =>
      cases hserve

/-- Whatever was asked before, an identified device is one of the catalog. -/
theorem Obtained.catalogued {subject : Subject} (h : subject.Obtained environment) :
    subject.flash.Catalogued := by
  induction h with
  | fresh timeouts => exact Engine.catalogued_fresh timeouts
  | served state _ hserve ih => exact ends_serve?_catalogued ih hserve state
  | wrapped _ ih | unwrapped _ ih | timed _ _ ih => exact ih

/-- In any surroundings and after any run of requests to an engine and to block devices on it: every
address that a request puts on the bus lies within the identified device and has 24 bits, unless it
is the address of a page program, which goes out as it is. A request for bytes that end beyond the
device is rejected for its address, before anything is asked of the surroundings. -/
theorem addresses_lie_inside (environment : Environment σ) {subject : Subject}
    (hobtained : subject.Obtained environment) {request : Request}
    {program : Program (Outcome × Subject)} (hserve : subject.serve? request = some program)
    (state : σ) :
    (∀ call reply address, .call call reply ∈ program.dialogue environment state →
      call.address? = some address →
        (address.toNat < subject.flash.capacity ∧ address.toNat < addressable 24) ∨
          request.Programs address) ∧
    ∀ start length, subject.flash.identity ≠ none →
      request.extent? subject.flash.sectorSize = some (start, length) → length ≠ 0 →
      subject.flash.capacity < start + length →
        (∃ last, (program.run environment state).1.1.result = .error (.addressOutOfRange last)) ∧
          program.dialogue environment state = [] := by
  have hcatalogued := hobtained.catalogued
  refine ⟨fun call reply address hcall haddress => ?_,
    fun start length hidentity hextent hlength hbeyond => ?_⟩
  · have hputs := (puts_serve? hcatalogued hserve).of_mem_dialogue hcall address haddress
    refine hputs.imp_left fun hinside => ⟨hinside, ?_⟩
    exact Nat.lt_of_lt_of_le hinside hcatalogued.capacity_le
  · obtain ⟨identity, hidentity⟩ := Option.ne_none_iff_exists'.mp hidentity
    obtain ⟨last, buffer, rfl⟩ := serve?_denied (Engine.requireDevice_of_identity hidentity) hserve
      hextent hlength hbeyond
    exact ⟨⟨last, rfl⟩, rfl⟩

/-- On a device that has been brought up, a write to the address after the last one is rejected, and
a page program there sends the address to the chip, which takes it for the first one. -/
theorem addresses_lie_inside_past_end :
    let bench := Bench.ofChip (Chip.fresh ⟨0xEF, 0x4015⟩)
    let ready := ((Engine.fresh .standard).serve .bringUp).run Bench.environment bench
    let subject := Subject.engine ready.1.2
    let write := EngineRequest.operation (.write 0x200000 [0])
    let program := EngineRequest.operation (.pageProgram 0x200000 [0])
    subject.Obtained Bench.environment ∧
      (∃ last, ((ready.1.2.serve write).run Bench.environment ready.2).1.1.result =
        .error (.addressOutOfRange last)) ∧
      (∃ call reply,
        .call call reply ∈ (ready.1.2.serve program).dialogue Bench.environment ready.2 ∧
          call.address? = some 0x200000) ∧
      ((ready.1.2.serve program).run Bench.environment ready.2).2.chip.memory.byteAt 0 = 0 := by
  intro bench ready subject write program
  have hobtained : subject.Obtained Bench.environment :=
    (Obtained.fresh .standard).served_engine .bringUp bench
  have hcapacity : ready.1.2.capacity = 0x200000 := by decide +kernel
  have hidentified : ready.1.2.identity.isSome = true := by decide +kernel
  have hsent : ((ready.1.2.serve program).dialogue Bench.environment ready.2).any
      (Interaction.isCallOf fun call => call.address? == some 0x200000) = true := by
    decide +kernel
  have hfirst :
      ((ready.1.2.serve program).run Bench.environment ready.2).2.chip.memory.byteAt 0 = 0 := by
    decide +kernel
  clear_value ready
  obtain ⟨-, hdenied⟩ := addresses_lie_inside Bench.environment hobtained
    (show subject.serve? (.engine write) = some _ from rfl) ready.2
  obtain ⟨⟨last, hlast⟩, -⟩ := hdenied 0x200000 1 (Option.isSome_iff_ne_none.mp hidentified) rfl
    Nat.one_ne_zero (by rw [show subject.flash.capacity = 0x200000 from hcapacity]; decide)
  rw [Program.run_bind] at hlast
  obtain ⟨said, hsaid, haddress⟩ := List.any_eq_true.mp hsent
  cases said with
  | call call reply =>
      exact ⟨hobtained, ⟨last, hlast⟩, ⟨call, reply, hsaid, beq_iff_eq.mp haddress⟩, hfirst⟩
  | _ => cases haddress

end Subject

end NorFlash
