import NorFlash.Proofs.Block.Array
import NorFlash.Proofs.Session.Step

/-!
# A block device over a whole session

A session with a new block device on a new chip, whatever that stores, in which memory is altered by
block writes only and nothing is put to sleep, behaves as an array of blocks: `blocks_refine_array`.
Calls may be refused at any point, and completions get lost.
-/

namespace NorFlash

/-- What a request asks of a block device, if that takes it. -/
def Request.onDevice? : Request → Option BlockRequest
  | device asked => some asked
  | engine (.operation operation) => some (.operation (.engine operation))
  | engine _ => none

namespace Step

/-- The step is a request that a block device takes and that is allowed, or it only prepares. -/
def AsksDevice (allowed : BlockRequest → Prop) : Step → Prop
  | request asked => ∃ taken, asked.onDevice? = some taken ∧ allowed taken
  | step => step.preparesOnly = true

/-- The address is in one of the blocks that the step is to write. -/
def Targets (address : Nat) : Step → Prop
  | request asked => ∃ taken, asked.onDevice? = some taken ∧ taken.Targets address
  | _ => False

end Step

namespace BlockArray

/-- The array after a step with its answer. -/
def take (array : BlockArray) : Step → StepAnswer → BlockArray
  | .request (.device request), .outcome outcome _ => array.serve request outcome
  | _, _ => array

/-- The array after steps with their answers. -/
def takeAll (array : BlockArray) (steps : List Step) (answers : List StepAnswer) : BlockArray :=
  (steps.zip answers).foldl (fun array (step, answer) => array.take step answer) array

variable {array : BlockArray} {block : Nat}

/-- Whatever a step answers, it leaves the blocks it is not to write as they are known. -/
theorem take_of_not_targets {step : Step} (h : ¬step.Targets (block * sectorBytes))
    (answer : StepAnswer) : array.take step answer block = array block := by
  unfold take
  split
  · exact serve_of_not_targets (fun htargets => h ⟨_, rfl, htargets⟩) _
  · rfl

/-- Steps that write elsewhere leave a block as it is known. -/
theorem takeAll_of_not_targets {steps : List Step}
    (h : ∀ step ∈ steps, ¬step.Targets (block * sectorBytes)) (answers : List StepAnswer) :
    array.takeAll steps answers block = array block := by
  induction steps generalizing array answers with
  | nil => rfl
  | cons step rest ih =>
      cases answers with
      | nil => rfl
      | cons answer others =>
          exact (ih (fun other hother => h other (List.mem_cons_of_mem step hother)) others).trans
            (take_of_not_targets (h step List.mem_cons_self) answer)

end BlockArray

namespace Session

/-- What is on the bench is a block device, and the property holds of it and of the bench. -/
def OnDevice (property : BlockDevice → Bench → Prop) (session : Session) : Prop :=
  ∃ device, session.subject = .device device ∧ property device session.bench

variable {session : Session} {array : BlockArray} {id : JedecId} {step : Step}

/-- What a request to a block device makes of a session. -/
theorem take_device {device : BlockDevice} (h : session.subject = .device device)
    {request : Request} {taken : BlockRequest} (htaken : request.onDevice? = some taken) :
    session.take (.request request) =
      let ended := (device.serve taken).run Bench.environment session.quietBench
      (.outcome ended.1.1 (shownReports request ended.2),
        { session with bench := ended.2, subject := .device ended.1.2 }) := by
  have hserve : session.subject.serve? request = some (do
      let ended ← device.serve taken
      return (ended.1, .device ended.2)) := by
    rw [h]
    cases request with
    | device asked =>
        obtain rfl := Option.some.inj htaken
        rfl
    | engine asked =>
        cases asked with
        | operation operation =>
            obtain rfl := Option.some.inj htaken
            rfl
        | _ => simp [Request.onDevice?] at htaken
  rw [take_request hserve, Program.run_bind]
  rfl

/-- There is a block device whose engine is aware of the chip's width. -/
def AwareDevice (id : JedecId) (session : Session) : Prop :=
  session.OnDevice fun device bench => device.engine.Aware id bench

/-- What is known of the blocks after a request to a block device. -/
theorem take_of_onDevice {request : Request} {taken : BlockRequest}
    (htaken : request.onDevice? = some taken) (outcome : Outcome) (reports : Option (List Nat)) :
    array.take (.request request) (.outcome outcome reports) = array.serve taken outcome := by
  cases request with
  | device asked =>
      obtain rfl := Option.some.inj htaken
      rfl
  | engine asked =>
      cases asked with
      | operation operation =>
          obtain rfl := Option.some.inj htaken
          rfl
      | _ => simp [Request.onDevice?] at htaken

/-- A request for blocks is not for sleep. -/
theorem sleepless_of_blockwise {request : BlockRequest} (h : request.Blockwise) :
    request ≠ .operation (.engine (.sleep true)) := by
  rintro rfl
  exact h.2 rfl

/-- What a step of a session with a block device comes to: the engine stays aware, the array stays
true of the memory, and nothing changes but the blocks the step is to write. -/
structure Refines (id : JedecId) (array : BlockArray) (step : Step) (session : Session) : Prop where
  aware : (session.take step).2.AwareDevice id
  describes : (array.take step (session.take step).1).Describes
    (session.take step).2.bench.chip.memory
  elsewhere : ∀ address < session.bench.chip.memory.size, ¬step.Targets address →
    (session.take step).2.bench.chip.memory.byteAt address =
      session.bench.chip.memory.byteAt address

/-- A step that only prepares changes nothing of the array. -/
theorem refines_prepares (hprepares : step.preparesOnly = true)
    (hkept : ∀ answer, array.take step answer = array) (h : session.AwareDevice id)
    (harray : array.Describes session.bench.chip.memory) : Refines id array step session := by
  obtain ⟨device, hdevice, haware⟩ := h
  obtain ⟨hbench, hsubject⟩ := @take_preparesOnly session step hprepares
  rw [hdevice] at hsubject
  refine ⟨⟨device, ?_, haware.alike hbench device.engine.timeouts⟩, ?_, fun _ _ _ => ?_⟩
  · generalize (session.take step).2.subject = subject at hsubject
    cases hsubject with
    | device _ => rfl
  · rw [hkept, hbench.memory]
    exact harray
  · rw [hbench.memory]

/-- A request for blocks is served as on the array. -/
theorem refines_request {request : Request} {taken : BlockRequest}
    (htaken : request.onDevice? = some taken) (hblockwise : taken.Blockwise)
    (h : session.AwareDevice id) (harray : array.Describes session.bench.chip.memory) :
    Refines id array (.request request) session := by
  obtain ⟨device, hdevice, haware⟩ := h
  have hquiet : device.engine.Aware id session.quietBench :=
    haware.alike (alike_quietBench session) device.engine.timeouts
  obtain ⟨hlast, hdescribes, helsewhere⟩ :=
    (BlockDevice.ends_serve_aware (sleepless_of_blockwise hblockwise) hquiet).and
      (BlockArray.ends_serve_describes hblockwise hquiet harray)
  have htake := take_device hdevice htaken
  refine ⟨?_, ?_, fun address haddress houtside => ?_⟩
  · rw [htake]
    exact ⟨_, rfl, hlast⟩
  · rw [htake]
    exact (take_of_onDevice htaken _ _).symm ▸ hdescribes
  · rw [htake]
    exact helsewhere address haddress fun htargets => houtside ⟨taken, htaken, htargets⟩

/-- A blockwise step refines a step of the array. -/
theorem refines_blockwise (hstep : step.AsksDevice BlockRequest.Blockwise)
    (h : session.AwareDevice id) (harray : array.Describes session.bench.chip.memory) :
    Refines id array step session := by
  cases step with
  | request request =>
      obtain ⟨taken, htaken, hblockwise⟩ := hstep
      exact refines_request htaken hblockwise h harray
  | _ => exact refines_prepares hstep (fun _ => rfl) h harray

/-- A session of blockwise steps keeps the array true of the memory. -/
theorem takeAll_blockwise {steps : List Step}
    (hsteps : ∀ step ∈ steps, step.AsksDevice BlockRequest.Blockwise) (h : session.AwareDevice id)
    (harray : array.Describes session.bench.chip.memory) :
    (session.takeAll steps).2.AwareDevice id ∧
      (array.takeAll steps (session.takeAll steps).1).Describes
        (session.takeAll steps).2.bench.chip.memory := by
  induction steps generalizing session array with
  | nil => exact ⟨h, harray⟩
  | cons step rest ih =>
      have hrefines := refines_blockwise (hsteps step List.mem_cons_self) h harray
      exact ih (fun other hother => hsteps other (List.mem_cons_of_mem step hother)) hrefines.aware
        hrefines.describes

/-- A block read that succeeds delivers what is known of each block. -/
theorem AwareDevice.reads (h : session.AwareDevice id)
    (harray : array.Describes session.bench.chip.memory) (block : UInt32) (count : Nat) :
    session.Answers (.device (.operation (.readBlocks block count))) fun outcome _ =>
      outcome.result.isOk = true → ∃ bytes, outcome.result = .ok (.bytes bytes) ∧
        bytes.length = count * sectorBytes ∧
          ∀ offset < count, ∀ data, array (block.toNat + offset) = some data →
            (bytes.drop (offset * sectorBytes)).take sectorBytes = data := by
  obtain ⟨device, hdevice, haware⟩ := h
  have hquiet : device.engine.Aware id session.quietBench :=
    haware.alike (alike_quietBench session) device.engine.timeouts
  have hread := BlockDevice.ends_readBlocks_aware hquiet block count
  have hserve : (device.serve (.operation (.readBlocks block count))).Ends Bench.environment
      (fun ended _ => ended.1.result.isOk = true → ∃ bytes, ended.1.result = .ok (.bytes bytes) ∧
        bytes.length = count * sectorBytes ∧
          ∀ offset < count, ∀ data, array (block.toNat + offset) = some data →
            (bytes.drop (offset * sectorBytes)).take sectorBytes = data) session.quietBench := by
    refine BlockDevice.ends_serve_operation.mpr ((Program.ends_map ..).mpr
      (Program.Ends.mono hread ?_))
    rintro (fault | bytes) after hafter hok
    · exact absurd hok Bool.false_ne_true
    · obtain ⟨rfl, hsize⟩ := hafter
      refine ⟨_, rfl, Memory.length_read .., fun offset hoffset data hdata => ?_⟩
      exact harray.slice_eq (hsize (by omega)) hoffset hdata
  unfold Answers
  rw [take_device hdevice rfl]
  exact ⟨_, _, rfl, hserve⟩

/-- A session with a new block device on a new chip that stores something already. -/
def startOn (id : JedecId) (timeouts : Timeouts) (memory : Memory) : Session :=
  (start id timeouts true).onChip fun chip => { chip with memory }

/-- A new block device is aware of the width of a new chip. -/
theorem awareDevice_startOn {memory : Memory}
    (hbits : memory.bits = (Memory.blank id.capacityCode).bits) (timeouts : Timeouts) :
    (startOn id timeouts memory).AwareDevice id := by
  obtain ⟨hfree, hsound, hawake⟩ := settled_start id timeouts true
  refine ⟨.closed (.fresh timeouts), rfl, Engine.aware_of_none ⟨hfree, ?_, hawake⟩ rfl⟩
  exact ⟨hsound.strict, hsound.id_eq, hsound.vendor_eq, hbits, hsound.agrees⟩

/-- In a session in which memory is altered by block writes only, a block read that succeeds
delivers for each block the data of the last write, unless a write has failed since, and no step
changes a byte outside the blocks it is to write. -/
theorem blocks_refine_array {memory : Memory} {timeouts : Timeouts} {steps : List Step}
    (hbits : memory.bits = (Memory.blank id.capacityCode).bits)
    (hsteps : ∀ step ∈ steps, step.AsksDevice BlockRequest.Blockwise) :
    let ended := (startOn id timeouts memory).takeAll steps
    let array := (BlockArray.ofMemory memory).takeAll steps ended.1
    (∀ block count, ended.2.Answers (.device (.operation (.readBlocks block count)))
      fun outcome _ => outcome.result.isOk = true →
        ∃ bytes, outcome.result = .ok (.bytes bytes) ∧ bytes.length = count * sectorBytes ∧
          ∀ offset < count, ∀ data, array (block.toNat + offset) = some data →
            (bytes.drop (offset * sectorBytes)).take sectorBytes = data) ∧
    ∀ step, step.AsksDevice BlockRequest.Blockwise →
      ∀ address < ended.2.bench.chip.memory.size, ¬step.Targets address →
        (ended.2.take step).2.bench.chip.memory.byteAt address =
          ended.2.bench.chip.memory.byteAt address := by
  intro ended array
  obtain ⟨haware, harray⟩ := takeAll_blockwise hsteps (awareDevice_startOn hbits timeouts)
    (BlockArray.describes_ofMemory memory)
  exact ⟨haware.reads harray, fun step hstep => (refines_blockwise hstep haware harray).elsewhere⟩

/-- A write to the first block that is refused leaves the second readable. -/
theorem blocks_refine_array_after_refused_write :
    let memory := Memory.blank 0x15
    let steps := [.request (.device .bringUp), .failing 1 1,
      .request (.device (.operation (.writeBlocks 0 1 (List.replicate sectorBytes Bytes.erased))))]
    (∀ step ∈ steps, step.AsksDevice BlockRequest.Blockwise) ∧
      ((startOn ⟨0xEF, 0x4015⟩ .standard memory).takeAll steps).2.Answers
        (.device (.operation (.readBlocks 0 2))) fun outcome _ => ∃ bytes,
          outcome.result = .ok (.bytes bytes) ∧
            (bytes.drop sectorBytes).take sectorBytes = memory.read sectorBytes sectorBytes := by
  intro memory steps
  have hsteps : ∀ step ∈ steps, step.AsksDevice BlockRequest.Blockwise := by
    simp [steps, Step.AsksDevice, Step.preparesOnly, Request.onDevice?, BlockRequest.Blockwise]
  have hbits : memory.bits = (Memory.blank (JedecId.mk 0xEF 0x4015).capacityCode).bits := by decide
  obtain ⟨hreads, -⟩ := @blocks_refine_array ⟨0xEF, 0x4015⟩ memory .standard steps hbits hsteps
  obtain ⟨outcome, reports, hanswer, hread⟩ := hreads 0 2
  have hok : (((startOn ⟨0xEF, 0x4015⟩ .standard memory).takeAll steps).2.take
      (.request (.device (.operation (.readBlocks 0 2))))).1.isOk = true := by
    decide +kernel
  rw [hanswer] at hok
  obtain ⟨bytes, hresult, -, hblocks⟩ := hread hok
  refine ⟨hsteps, outcome, reports, hanswer, bytes, hresult, ?_⟩
  have helsewhere : ∀ step ∈ steps, ¬step.Targets (1 * sectorBytes) := by
    simp [steps, Step.Targets, Request.onDevice?, BlockRequest.Targets]
  exact hblocks 1 (by decide) _ (BlockArray.takeAll_of_not_targets helsewhere _)

end Session

end NorFlash
