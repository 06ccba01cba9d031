import NorFlash.Proofs.Session.Blocks
import NorFlash.Proofs.Session.Tracking

/-!
# Closing a block device

The open flag of a block device, the device that its engine has identified and the width that the
chip listens on are set at different moments: a close that fails has cleared the flag already, and
one that is repeated then succeeds without doing anything. `Condition` is what the answers to its
requests say about a device, and `ends_serve_inCondition` that it stays true of the device.
`close_closes_iff` tells from it exactly which closes that succeed leave the chip on one line and
the device out of service.
-/

namespace NorFlash

namespace BlockRequest

/-- The request does not put the chip to sleep. -/
def Wakeful (request : BlockRequest) : Prop :=
  request ≠ .operation (.engine (.sleep true))

/-- Nor does it reset the chip under the device. -/
def Steady (request : BlockRequest) : Prop :=
  request.Wakeful ∧ request ≠ .operation (.engine .reset)

end BlockRequest

/-- What a block device has come to since it was built, as the answers to its requests tell. -/
inductive Condition where
  /-- It was neither opened nor closed. -/
  | built
  | opened
  | closed
  /-- The last request to open it failed. -/
  | unopened
  /-- The last request to close it failed. -/
  | unclosed
  deriving DecidableEq

namespace Condition

/-- The condition after a request. What is open is not opened again, and nothing else is closed. -/
def serve (condition : Condition) (request : BlockRequest) (succeeds : Bool) : Condition :=
  match request, condition with
  | .bringUp, .opened => .opened
  | .bringUp, _ => if succeeds then .opened else .unopened
  | .shutDown, .opened => if succeeds then .closed else .unclosed
  | _, _ => condition

/-- The condition after a step with its answer. -/
def take (condition : Condition) (step : Step) (answer : StepAnswer) : Condition :=
  match step with
  | .request request =>
      match request.onDevice? with
      | some asked => condition.serve asked answer.isOk
      | none => condition
  | _ => condition

/-- The condition after steps with their answers. -/
def takeAll (condition : Condition) (steps : List Step) (answers : List StepAnswer) : Condition :=
  (steps.zip answers).foldl (fun condition (step, answer) => condition.take step answer) condition

end Condition

namespace BlockDevice

variable {bench after : Bench} {device built : BlockDevice} {id : JedecId} {request : BlockRequest}
  {condition : Condition} {quad : Bool}

/-- No device is identified, and the chip listens on one line. -/
structure Shut (device : BlockDevice) (bench : Bench) : Prop where
  identity : device.engine.identity = none
  single : bench.chip.quad = false

/-- The engine is aware of the chip, and has identified a device if the block device is open. -/
structure Accounted (id : JedecId) (device : BlockDevice) (bench : Bench) : Prop where
  aware : device.engine.Aware id bench
  identified : device.isOpen = true → device.engine.identity ≠ none

/-- What a condition says of a device, given the device as it was built and whether the chip
listened on four lines then. -/
def InCondition (built : BlockDevice) (quad : Bool) (condition : Condition) (device : BlockDevice)
    (bench : Bench) : Prop :=
  match condition with
  | .built => device = built ∧ bench.chip.quad = quad
  | .opened => device.isOpen = true ∧ bench.chip.quad = true
  | .closed => device.isOpen = false ∧ device.Shut bench
  | .unopened => device.isOpen = false ∧ device.engine.identity = none
  | .unclosed => device.isOpen = false ∧ bench.chip.quad = true

/-- An account of a device stays true of benches that are alike. -/
theorem Accounted.alike (h : device.Accounted id bench) (hafter : bench.Alike after) :
    device.Accounted id after :=
  ⟨h.aware.alike hafter device.engine.timeouts, h.identified⟩

/-- Of the chip, a condition only says on how many lines it listens. -/
theorem InCondition.of_quad (h : InCondition built quad condition device bench)
    (hquad : after.chip.quad = bench.chip.quad) :
    InCondition built quad condition device after := by
  cases condition with
  | built => exact ⟨h.1, hquad.trans h.2⟩
  | opened | unclosed => exact ⟨h.1, hquad.trans h.2⟩
  | closed => exact ⟨h.1, h.2.identity, hquad.trans h.2.single⟩
  | unopened => exact h

/-- Whether the device is open can be told from its condition. -/
theorem InCondition.isOpen_iff (h : InCondition built quad condition device bench)
    (hbuilt : built.isOpen = false) : device.isOpen = true ↔ condition = .opened := by
  cases condition with
  | built => simp [h.1, hbuilt]
  | opened => simp [h.1]
  | closed | unopened | unclosed => simp [h.1]

/-! ## Requests to a device that is not open -/

/-- Without a device, an operation of the block device itself ends at once. -/
theorem perform_of_none {operation : BlockOperation} (h : device.engine.identity = none)
    (hother : ∀ other, operation ≠ .engine other) :
    ∃ outcome, device.perform operation = pure outcome ∧
      (operation ≠ .sync → outcome.result = .error .notIdentified) := by
  cases operation with
  | sync => exact ⟨_, rfl, fun hsync => absurd rfl hsync⟩
  | readBlocks block count =>
      refine ⟨⟨.error .notIdentified, none⟩, ?_, fun _ => rfl⟩
      show Outcome.ofValue .bytes <$> (device.readBlocks block count).run = _
      unfold readBlocks
      rw [blocksLength_of_none h]
      rfl
  | writeBlocks block count bytes =>
      refine ⟨⟨.error .notIdentified, none⟩, ?_, fun _ => rfl⟩
      show Outcome.ofValue .route <$> (device.writeBlocks block count bytes).run = _
      unfold writeBlocks
      rw [blocksLength_of_none h]
      rfl
  | engine other => exact absurd rfl (hother other)

/-! ## Opening and closing -/

/-- A device that is open has nothing to do to open. -/
theorem serve_bringUp_of_open (h : device.isOpen = true) :
    device.serve .bringUp = pure (.ofUnit (.ok ()), device) := by
  simp [serve, bringUp, h]

/-- A device that is closed has nothing to do to close. -/
theorem serve_shutDown_of_closed (h : device.isOpen = false) :
    device.serve .shutDown = pure (.ofUnit (.ok ()), device) := by
  simp [serve, shutDown, h]

/-- A device that is opened is open and has one identified exactly if that succeeds. -/
theorem ends_serve_bringUp {σ : Type} {environment : Environment σ} {state : σ}
    (h : device.isOpen = false) :
    (device.serve .bringUp).Ends environment
      (fun ended _ => ended.2.isOpen = ended.1.result.isOk ∧
        ended.2.engine.identity.isSome = ended.1.result.isOk) state := by
  refine (Program.ends_bind ..).mpr ?_
  rw [bringUp, if_neg (by simp [h])]
  refine (Program.ends_bind ..).mpr ((Program.ends_bind ..).mpr (Program.ends_of_forall _ ?_))
  rintro (fault | identity) after
  · exact ⟨rfl, rfl⟩
  · exact ⟨rfl, rfl⟩

/-- A device that is opened successfully leaves the chip on four lines. -/
theorem ends_serve_bringUp_quad (h : device.engine.Aware id bench)
    (hclosed : device.isOpen = false) :
    (device.serve .bringUp).Ends Bench.environment
      (fun ended after => ended.1.result.isOk = true → after.chip.quad = true) bench := by
  obtain ⟨bus, hbus, -⟩ := h.settled.free
  have hasked : device.passedOn? .bringUp = some .bringUp := by simp [passedOn?, hclosed]
  have hserve : (device.engine.serve .bringUp).Ends Bench.environment
      (fun ended after => ended.1.result.isOk = true → after.chip.quad = true) bench := by
    refine (Program.ends_bind ..).mpr ((Engine.ends_bringUp h.settled.sound hbus).mono ?_)
    rintro ended after (⟨identity, rfl, hup⟩ | ⟨fault, rfl, -⟩)
    · exact fun _ => ((Chip.hears_quad hup.sound.strict).mp hup.hears).2
    · exact fun hok => absurd hok Bool.false_ne_true
  exact @ends_serve_passedOn bench device .bringUp .bringUp hasked
    (fun outcome _ after => outcome.result.isOk = true → after.chip.quad = true) hserve

/-- A close of an open device leaves it without an identified one. If it succeeds, the chip listens
on one line, and if it fails, the chip listens where it did. -/
theorem ends_serve_shutDown (h : device.Accounted id bench) (hopen : device.isOpen = true) :
    (device.serve .shutDown).Ends Bench.environment
      (fun ended after => ended.2.isOpen = false ∧ ended.2.engine.identity = none ∧
        (ended.1.result.isOk = true → after.chip.quad = false) ∧
        (ended.1.result.isOk = false → after.chip.quad = bench.chip.quad)) bench := by
  have hforgotten : device.engine.shutDown.Ends Bench.environment
      (fun ended _ => ended.2.identity = none) bench := by
    refine (Program.ends_bind ..).mpr (Program.ends_of_forall _ fun _ _ => ?_)
    exact (Program.ends_bind ..).mpr (Program.ends_of_forall _ fun _ _ => rfl)
  have hreset := @Engine.ends_shutDown_kept bench device.engine id h.aware.settled
    (h.aware.tracked (h.identified hopen))
  refine (Program.ends_bind ..).mpr ?_
  rw [shutDown, if_pos hopen]
  refine (Program.ends_bind ..).mpr ((Program.Ends.and hforgotten hreset).mono ?_)
  rintro ⟨result, engine⟩ after ⟨hidentity, -, hdone, hfailed⟩
  have hanswer : (Outcome.ofUnit result).result.isOk = result.isOk := by cases result <;> rfl
  refine ⟨rfl, hidentity, fun hok => ?_, fun hrefused => ?_⟩
  · exact congrArg Chip.Mode.quad (hdone (hanswer ▸ hok))
  · exact congrArg Chip.Mode.quad (hfailed (hanswer ▸ hrefused))

/-- An operation leaves the device as it is and, unless it is a reset or for sleep, the mode of the
chip. -/
theorem ends_serve_steady {operation : BlockOperation}
    (hsteady : (BlockRequest.operation operation).Steady) (h : device.engine.Aware id bench) :
    (device.serve (.operation operation)).Ends Bench.environment
      (fun ended after => ended.2 = device ∧ after.chip.mode = bench.chip.mode) bench := by
  obtain ⟨hsleep, hreset⟩ := hsteady
  refine ends_serve_operation.mpr ?_
  have hkept : (device.perform operation).Ends Bench.environment
      (fun _ after => after.chip.mode = bench.chip.mode) bench := by
    have horderly : (device.perform operation).Orderly (BusCall.Among operation.repertoire)
        (fun _ => True) false (fun _ => True) false :=
      device.orderly_perform operation fun _ => trivial
    refine horderly.mode h.settled.free ?_ h.settled.awake
    cases operation with
    | engine other =>
        exact Operation.keepsMode (fun hother => hreset (hother ▸ rfl))
          fun hother => hsleep (hother ▸ rfl)
    | sync | readBlocks | writeBlocks =>
        simp only [BlockOperation.repertoire]
        decide
  exact hkept.mono fun _ _ hmode => ⟨rfl, hmode⟩

/-! ## What a request keeps -/

/-- Whatever is asked of a device but sleep, its engine stays aware of the chip, and it is open only
while one is identified. -/
theorem ends_serve_accounted (hwakeful : request.Wakeful) (h : device.Accounted id bench) :
    (device.serve request).Ends Bench.environment
      (fun ended after => ended.2.Accounted id after) bench := by
  have haware := ends_serve_aware hwakeful h.aware
  cases request with
  | bringUp =>
      cases hopen : device.isOpen with
      | false =>
          refine (haware.and (ends_serve_bringUp hopen)).mono ?_
          rintro ended after ⟨haware, hflag, hidentified⟩
          refine ⟨haware, fun hopened => Option.isSome_iff_ne_none.mp ?_⟩
          rw [hidentified, ← hflag, hopened]
      | true =>
          rw [serve_bringUp_of_open hopen]
          exact h
  | shutDown =>
      cases hopen : device.isOpen with
      | false =>
          rw [serve_shutDown_of_closed hopen]
          exact h
      | true =>
          refine (haware.and (ends_serve_shutDown h hopen)).mono ?_
          rintro ended after ⟨haware, hclosed, -⟩
          exact ⟨haware, fun hopened => by simp [hclosed] at hopened⟩
  | operation operation =>
      exact ends_serve_operation.mpr
        ((ends_serve_operation.mp haware).mono fun _ _ haware => ⟨haware, h.identified⟩)

/-- To open a device makes it open or, if that fails, leaves it without an identified one. -/
theorem ends_serve_bringUp_inCondition (h : device.Accounted id bench)
    (hbuilt : built.isOpen = false) (hreached : InCondition built quad condition device bench) :
    (device.serve .bringUp).Ends Bench.environment
      (fun ended after => InCondition built quad (condition.serve .bringUp ended.1.result.isOk)
        ended.2 after) bench := by
  cases hopen : device.isOpen with
  | true =>
      obtain rfl := (hreached.isOpen_iff hbuilt).mp hopen
      rw [serve_bringUp_of_open hopen]
      exact hreached
  | false =>
      have hcondition : ∀ succeeds, condition.serve .bringUp succeeds =
          if succeeds then .opened else .unopened := by
        have hother : condition ≠ .opened := fun hopened =>
          absurd ((hreached.isOpen_iff hbuilt).mpr hopened) (by simp [hopen])
        cases condition <;> simp_all [Condition.serve]
      refine ((ends_serve_bringUp hopen).and (ends_serve_bringUp_quad h.aware hopen)).mono ?_
      rintro ended after ⟨⟨hflag, hidentified⟩, hquad⟩
      rw [hcondition]
      cases hok : ended.1.result.isOk with
      | true => exact ⟨hflag.trans hok, hquad hok⟩
      | false =>
          rw [hok] at hidentified
          exact ⟨hflag.trans hok, Option.not_isSome_iff_eq_none.mp (by simp [hidentified])⟩

/-- To close an open device shuts it or, if that fails, leaves the chip on four lines. -/
theorem ends_serve_shutDown_inCondition (h : device.Accounted id bench)
    (hbuilt : built.isOpen = false) (hreached : InCondition built quad condition device bench) :
    (device.serve .shutDown).Ends Bench.environment
      (fun ended after => InCondition built quad (condition.serve .shutDown ended.1.result.isOk)
        ended.2 after) bench := by
  cases hopen : device.isOpen with
  | true =>
      obtain rfl := (hreached.isOpen_iff hbuilt).mp hopen
      refine (ends_serve_shutDown h hopen).mono ?_
      rintro ended after ⟨hclosed, hidentity, hdone, hfailed⟩
      cases hok : ended.1.result.isOk with
      | true => exact ⟨hclosed, hidentity, hdone hok⟩
      | false => exact ⟨hclosed, (hfailed hok).trans hreached.2⟩
  | false =>
      have hother : condition ≠ .opened := fun hopened =>
        absurd ((hreached.isOpen_iff hbuilt).mpr hopened) (by simp [hopen])
      have hcondition : ∀ succeeds, condition.serve .shutDown succeeds = condition := by
        cases condition <;> simp_all [Condition.serve]
      rw [serve_shutDown_of_closed hopen]
      show InCondition built quad (condition.serve .shutDown _) device bench
      rw [hcondition]
      exact hreached

/-- What the answers so far say about a device stays true of it in every request but for sleep and
reset. -/
theorem ends_serve_inCondition (hsteady : request.Steady) (h : device.Accounted id bench)
    (hbuilt : built.isOpen = false) (hreached : InCondition built quad condition device bench) :
    (device.serve request).Ends Bench.environment
      (fun ended after => InCondition built quad (condition.serve request ended.1.result.isOk)
        ended.2 after) bench := by
  cases request with
  | bringUp => exact ends_serve_bringUp_inCondition h hbuilt hreached
  | shutDown => exact ends_serve_shutDown_inCondition h hbuilt hreached
  | operation operation =>
      refine (ends_serve_steady hsteady h.aware).mono ?_
      rintro ⟨outcome, _⟩ after ⟨rfl, hmode⟩
      exact hreached.of_quad (congrArg Chip.Mode.quad hmode)

/-- A device that is not open and has none identified stays so, unless it is opened. -/
theorem ends_serve_closed {σ : Type} {environment : Environment σ} {state : σ}
    (hclosed : device.isOpen = false) (hidentity : device.engine.identity = none) :
    (device.serve request).Ends environment
      (fun ended _ => (request = .bringUp → ended.1.result.isOk = false) →
        ended.2.isOpen = false ∧ ended.2.engine.identity = none) state := by
  cases request with
  | bringUp =>
      refine (ends_serve_bringUp hclosed).mono ?_
      rintro ended after ⟨hflag, hidentified⟩ hfails
      rw [hfails rfl] at hflag hidentified
      exact ⟨hflag, Option.not_isSome_iff_eq_none.mp (by simp [hidentified])⟩
  | shutDown =>
      rw [serve_shutDown_of_closed hclosed]
      exact fun _ => ⟨hclosed, hidentity⟩
  | operation operation =>
      exact (Program.ends_bind ..).mpr
        (Program.ends_of_forall _ fun _ _ _ => ⟨hclosed, hidentity⟩)

end BlockDevice

/-- The step is to open the block device. -/
def Step.opens : Step → Bool
  | request (.device .bringUp) => true
  | _ => false

namespace Session

variable {session built : Session} {id : JedecId} {step : Step} {steps : List Step}
  {condition : Condition}

/-- What holds of a block device and its bench before a step, and `later` of them and the answer
once a request is served, holds so after any step: others leave both alone. -/
theorem OnDevice.take {property : BlockDevice → Bench → Prop}
    {later : StepAnswer → BlockDevice → Bench → Prop} {allowed : BlockRequest → Prop}
    (halike : ∀ device bench after, Bench.Alike bench after → property device bench →
      property device after)
    (hprepares : step.preparesOnly = true → ∀ answer device bench, property device bench →
      later answer device bench)
    (hserve : ∀ device request asked bench (reports : Bench → Option (List Nat)),
      step = .request request → request.onDevice? = some asked → allowed asked →
        property device bench → (BlockDevice.serve device asked).Ends Bench.environment
          (fun ended after => later (.outcome ended.1 (reports after)) ended.2 after) bench)
    (hstep : step.AsksDevice allowed) (h : session.OnDevice property) :
    (session.take step).2.OnDevice (later (session.take step).1) := by
  obtain ⟨device, hdevice, hproperty⟩ := h
  have hprepared (honly : step.preparesOnly = true) :
      (session.take step).2.OnDevice (later (session.take step).1) := by
    obtain ⟨hbench, hsubject⟩ := @take_preparesOnly session step honly
    rw [hdevice] at hsubject
    refine ⟨device, ?_, hprepares honly _ _ _ (halike _ _ _ hbench hproperty)⟩
    generalize (session.take step).2.subject = subject at hsubject
    cases hsubject with
    | device _ => rfl
  cases step with
  | request request =>
      obtain ⟨asked, hasked, hallowed⟩ := hstep
      have hquiet := halike _ _ _ (alike_quietBench session) hproperty
      rw [take_device hdevice hasked]
      exact ⟨_, rfl,
        hserve device request asked _ (shownReports request) rfl hasked hallowed hquiet⟩
  | _ => exact hprepared hstep

/-- A device stays accounted for in a step that does not put the chip to sleep. -/
theorem OnDevice.accounted (hstep : step.AsksDevice BlockRequest.Wakeful)
    (h : session.OnDevice (BlockDevice.Accounted id)) :
    (session.take step).2.OnDevice (BlockDevice.Accounted id) :=
  OnDevice.take (fun _ _ _ halike h => h.alike halike) (fun _ _ _ _ h => h)
    (fun _ _ _ _ _ _ _ hwakeful h => BlockDevice.ends_serve_accounted hwakeful h) hstep h

/-- A device built from an engine is accounted for, and not open. -/
theorem onDevice_built {timeouts : Timeouts} {before : List Step}
    (hbefore : ∀ step ∈ before, step.Asks EngineRequest.Wakeful) :
    (((start id timeouts false).takeAll before).2.take .wrap).2.OnDevice
      fun device bench => device.Accounted id bench ∧ device.isOpen = false := by
  obtain ⟨engine, hengine, haware⟩ := @onEngine_aware_takeAll id timeouts before hbefore
  simp only [take, hengine]
  exact ⟨.closed engine, rfl, ⟨haware, fun hopen => absurd hopen Bool.false_ne_true⟩, rfl⟩

/-! ## Condition through a session -/

/-- A property of the block device on the bench is one of that device. -/
theorem onDevice_iff {device : BlockDevice} (h : session.subject = .device device)
    (property : BlockDevice → Bench → Prop) :
    session.OnDevice property ↔ property device session.bench := by
  refine ⟨?_, fun hproperty => ⟨device, h, hproperty⟩⟩
  rintro ⟨other, hother, hproperty⟩
  obtain rfl := Subject.device.inj (hother.symm.trans h)
  exact hproperty

/-- A step that only prepares has no say in what a device has come to. -/
theorem condition_take_of_preparesOnly (h : step.preparesOnly = true) (answer : StepAnswer) :
    condition.take step answer = condition := by
  cases step with
  | request => simp [Step.preparesOnly] at h
  | _ => rfl

/-- What the answers say of a device stays true of it in a step that neither resets the chip under
it nor puts that to sleep. -/
theorem OnDevice.inCondition {device : BlockDevice} {quad : Bool} (hclosed : device.isOpen = false)
    (hstep : step.AsksDevice BlockRequest.Steady)
    (h : session.OnDevice fun now bench =>
      now.Accounted id bench ∧ BlockDevice.InCondition device quad condition now bench) :
    (session.take step).2.OnDevice fun now bench => now.Accounted id bench ∧
      BlockDevice.InCondition device quad (condition.take step (session.take step).1) now
        bench := by
  refine @OnDevice.take session step _ (fun answer now bench => now.Accounted id bench ∧
    BlockDevice.InCondition device quad (condition.take step answer) now bench) BlockRequest.Steady
    ?_ ?_ ?_ hstep h
  · rintro now bench after halike ⟨haccounted, hreached⟩
    exact ⟨haccounted.alike halike, hreached.of_quad (congrArg Chip.Mode.quad halike.mode)⟩
  · intro hprepares answer now bench hnow
    rwa [condition_take_of_preparesOnly hprepares]
  · rintro now request asked bench reports rfl hasked hsteady ⟨haccounted, hreached⟩
    refine ((BlockDevice.ends_serve_accounted hsteady.1 haccounted).and
      (BlockDevice.ends_serve_inCondition hsteady haccounted hclosed hreached)).mono ?_
    rintro ended after ⟨haccounted, hreached⟩
    simp only [Condition.take, hasked]
    exact ⟨haccounted, hreached⟩

/-- What the answers say of a device is true of it after any number of such steps. -/
theorem takeAll_inCondition {device : BlockDevice} {quad : Bool} (hclosed : device.isOpen = false)
    (hsteps : ∀ step ∈ steps, step.AsksDevice BlockRequest.Steady)
    (h : session.OnDevice fun now bench =>
      now.Accounted id bench ∧ BlockDevice.InCondition device quad condition now bench) :
    (session.takeAll steps).2.OnDevice fun now bench => now.Accounted id bench ∧
      BlockDevice.InCondition device quad (condition.takeAll steps (session.takeAll steps).1) now
        bench := by
  induction steps generalizing session condition with
  | nil => exact h
  | cons step rest ih =>
      exact ih (fun other hother => hsteps other (List.mem_cons_of_mem step hother))
        (h.inCondition hclosed (hsteps step List.mem_cons_self))

/-! ## Out of service -/

/-- The steps are answered as stated. -/
def AllAnswered (answered : Step → StepAnswer → Prop) (session : Session) (steps : List Step) :
    Prop :=
  ∀ pair ∈ steps.zip (session.takeAll steps).1, answered pair.1 pair.2

/-- What is on the bench is a block device, which is not open and has no device identified. -/
def Closed (session : Session) : Prop :=
  session.OnDevice fun device _ => device.isOpen = false ∧ device.engine.identity = none

/-- A step opens the device only if what it asks for does. -/
theorem opens_request {request : Request} {asked : BlockRequest}
    (hasked : request.onDevice? = some asked) :
    (Step.request request).opens = true ↔ asked = .bringUp := by
  cases request with
  | device other =>
      obtain rfl := Option.some.inj hasked
      cases other <;> simp [Step.opens]
  | engine other =>
      cases other with
      | operation other =>
          obtain rfl := Option.some.inj hasked
          simp [Step.opens]
      | _ => simp [Request.onDevice?] at hasked

/-- A step leaves a closed device closed, unless it opens it successfully. -/
theorem Closed.take (hstep : step.AsksDevice fun _ => True)
    (hanswer : step.opens = true → (session.take step).1.isOk = false) (h : session.Closed) :
    (session.take step).2.Closed := by
  have hnext : (session.take step).2.OnDevice fun device _ =>
      (step.opens = true → (session.take step).1.isOk = false) →
        device.isOpen = false ∧ device.engine.identity = none := by
    refine @OnDevice.take session step _ (fun answer device _ =>
      (step.opens = true → answer.isOk = false) →
        device.isOpen = false ∧ device.engine.identity = none) (fun _ => True)
      (fun _ _ _ _ h => h) (fun _ _ _ _ h _ => h) ?_ hstep h
    rintro device request asked bench reports rfl hasked - ⟨hclosed, hidentity⟩
    refine (BlockDevice.ends_serve_closed hclosed hidentity).mono ?_
    intro ended after hended hanswer
    exact hended fun hup => hanswer ((opens_request hasked).mpr hup)
  obtain ⟨device, hdevice, hclosed⟩ := hnext
  exact ⟨device, hdevice, hclosed hanswer⟩

/-- A device that is closed stays closed, unless it is opened successfully. -/
theorem Closed.takeAll (hsteps : ∀ step ∈ steps, step.AsksDevice fun _ => True)
    (hanswers : session.AllAnswered
      (fun step answer => step.opens = true → answer.isOk = false) steps)
    (h : session.Closed) : (session.takeAll steps).2.Closed := by
  induction steps generalizing session with
  | nil => exact h
  | cons step rest ih =>
      exact ih (fun other hother => hsteps other (List.mem_cons_of_mem step hother))
        (fun pair hpair => hanswers pair (List.mem_cons_of_mem _ hpair))
        (h.take (hsteps step List.mem_cons_self) (hanswers _ List.mem_cons_self))

/-- There is no device, there are no blocks, and block reads and writes are rejected. -/
structure OutOfService (session : Session) : Prop where
  device : session.subject.flash.device? = none
  geometry : (session.take .geometry).1 = .numbers [0, 0]
  read : ∀ block count, session.Answers (.device (.operation (.readBlocks block count)))
    fun outcome _ => outcome.result = .error .notIdentified
  write : ∀ block count bytes,
    session.Answers (.device (.operation (.writeBlocks block count bytes)))
      fun outcome _ => outcome.result = .error .notIdentified

/-- A device that is closed is out of service. -/
theorem Closed.outOfService (h : session.Closed) : session.OutOfService := by
  obtain ⟨device, hdevice, -, hidentity⟩ := h
  have hrejects : ∀ operation : BlockOperation, operation ≠ .sync →
      (∀ other, operation ≠ .engine other) →
      session.Answers (.device (.operation operation))
        fun outcome _ => outcome.result = .error .notIdentified := by
    intro operation hsync hother
    obtain ⟨outcome, hperform, hrejected⟩ := BlockDevice.perform_of_none hidentity hother
    unfold Answers
    rw [take_device hdevice rfl, BlockDevice.serve, hperform]
    exact ⟨_, _, rfl, hrejected hsync⟩
  refine ⟨?_, ?_, fun block count => hrejects _ (by simp) (by simp),
    fun block count bytes => hrejects _ (by simp) (by simp)⟩
  · simp [hdevice, Subject.flash, Engine.device?, hidentity]
  · simp [Session.take, hdevice, BlockDevice.blockSize, BlockDevice.blockCount, Engine.sectorSize,
      Engine.sectorCount, Engine.device?, hidentity]

/-- The chip listens on one line, and the device is out of service until it is opened
successfully. -/
structure StaysShut (session : Session) : Prop where
  single : session.bench.chip.quad = false
  outOfService : ∀ later, (∀ step ∈ later, step.AsksDevice fun _ => True) →
    session.AllAnswered (fun step answer => step.opens = true → answer.isOk = false) later →
      (session.takeAll later).2.OutOfService

/-- A device that is not open stays shut exactly if it is shut. -/
theorem staysShut_iff {device : BlockDevice} (hdevice : session.subject = .device device)
    (hclosed : device.isOpen = false) : session.StaysShut ↔ device.Shut session.bench := by
  constructor
  · intro h
    have hnone : session.subject.flash.device? = none :=
      (h.outOfService [] (by simp) (by simp [AllAnswered])).device
    rw [hdevice] at hnone
    exact ⟨Option.map_eq_none_iff.mp hnone, h.single⟩
  · rintro ⟨hidentity, hsingle⟩
    have hsession : session.Closed := ⟨device, hdevice, hclosed, hidentity⟩
    exact ⟨hsingle, fun later hlater hanswers => (hsession.takeAll hlater hanswers).outOfService⟩

/-! ## Closing -/

/-- A close that succeeds leaves the device shut exactly if that was open, or shut already. -/
theorem OnDevice.closes (h : session.OnDevice (BlockDevice.Accounted id)) :
    session.Answers (.device .shutDown) fun outcome after => outcome.result.isOk = true →
      (after.StaysShut ↔
        session.OnDevice fun device bench => device.isOpen = true ∨ device.Shut bench) := by
  obtain ⟨device, hdevice, haccounted⟩ := h
  rw [onDevice_iff hdevice]
  unfold Answers
  rw [take_device hdevice rfl]
  cases hopen : device.isOpen with
  | true =>
      have hserve := BlockDevice.ends_serve_shutDown
        (haccounted.alike (alike_quietBench session)) hopen
      obtain ⟨hclosed, hidentity, hsingle, -⟩ := hserve
      refine ⟨_, _, rfl, fun hok => ?_⟩
      rw [staysShut_iff rfl hclosed]
      exact iff_of_true ⟨hidentity, hsingle hok⟩ (.inl rfl)
  | false =>
      rw [BlockDevice.serve_shutDown_of_closed hopen]
      refine ⟨_, _, rfl, fun _ => ?_⟩
      rw [staysShut_iff rfl hopen]
      -- The close has done nothing, so the bench is the one it found.
      exact ⟨fun hshut => .inr ⟨hshut.identity, hshut.single⟩, fun hflag =>
        have hshut := hflag.resolve_left Bool.false_ne_true
        ⟨hshut.identity, hshut.single⟩⟩

end Session

/-- A close that succeeds leaves a device of this condition shut, if it was built in one session and
is closed in the other. -/
def Condition.Closes (built session : Session) : Condition → Prop
  | opened | closed => True
  | unclosed => False
  | unopened => session.bench.chip.quad = false
  | .built => built.OnDevice BlockDevice.Shut

namespace Session

variable {session built : Session} {id : JedecId} {steps : List Step} {condition : Condition}

/-- A device whose condition is known was open or shut exactly if the condition says so. -/
theorem closes_iff {device : BlockDevice} (hbuilt : built.subject = .device device)
    (hclosed : device.isOpen = false)
    (h : session.OnDevice (BlockDevice.InCondition device built.bench.chip.quad condition)) :
    (session.OnDevice fun now bench => now.isOpen = true ∨ now.Shut bench) ↔
      condition.Closes built session := by
  obtain ⟨now, hnow, hreached⟩ := h
  rw [onDevice_iff hnow]
  cases condition with
  | built =>
      obtain ⟨rfl, hquad⟩ := hreached
      rw [Condition.Closes, onDevice_iff hbuilt]
      simp only [hclosed, Bool.false_eq_true, false_or]
      exact ⟨fun h => ⟨h.identity, hquad.symm.trans h.single⟩,
        fun h => ⟨h.identity, hquad.trans h.single⟩⟩
  | opened => exact iff_of_true (.inl hreached.1) trivial
  | closed => exact iff_of_true (.inr hreached.2) trivial
  | unopened =>
      obtain ⟨hflag, hidentity⟩ := hreached
      simp only [hflag, Bool.false_eq_true, false_or]
      exact ⟨fun h => h.single, fun h => ⟨hidentity, h⟩⟩
  | unclosed =>
      obtain ⟨hflag, hquad⟩ := hreached
      refine iff_of_false ?_ id
      rintro (hopen | hshut)
      · exact absurd (hflag.symm.trans hopen) Bool.false_ne_true
      · exact absurd (hshut.single.symm.trans hquad) Bool.false_ne_true

/-- In a session without sleep, a block device is built from an engine that may have been used. A
close that succeeds leaves it shut exactly if it was open, or shut already. If the chip is not reset
under the device, the answers tell when that is so: the device was opened, and the close that
followed, if any, did not fail; or it was neither opened nor closed, and was built shut; or the last
request to open it failed, and the chip listens on one line. After a close that failed, one that
succeeds leaves the chip on four lines. -/
theorem close_closes_iff {timeouts : Timeouts} {before : List Step}
    (hbefore : ∀ step ∈ before, step.Asks EngineRequest.Wakeful)
    (hsteps : ∀ step ∈ steps, step.AsksDevice BlockRequest.Wakeful) :
    let built := (((start id timeouts false).takeAll before).2.take .wrap).2
    let ended := built.takeAll steps
    ended.2.Answers (.device .shutDown) fun outcome after => outcome.result.isOk = true →
      (after.StaysShut ↔
        ended.2.OnDevice fun device bench => device.isOpen = true ∨ device.Shut bench) ∧
      ((∀ step ∈ steps, step.AsksDevice BlockRequest.Steady) →
        (after.StaysShut ↔ (Condition.built.takeAll steps ended.1).Closes built ended.2)) := by
  intro built ended
  obtain ⟨device, hdevice, haccounted, hclosed⟩ := @onDevice_built id timeouts before hbefore
  have hended : ended.2.OnDevice (BlockDevice.Accounted id) :=
    takeAll_keeps (fun _ _ hstep h => h.accounted hstep) hsteps ⟨device, hdevice, haccounted⟩
  obtain ⟨outcome, reports, hanswer, hcloses⟩ := hended.closes
  refine ⟨outcome, reports, hanswer, fun hok => ⟨hcloses hok, fun hsteady => ?_⟩⟩
  have hstart : built.OnDevice fun now bench => now.Accounted id bench ∧
      BlockDevice.InCondition device built.bench.chip.quad .built now bench :=
    ⟨device, hdevice, haccounted, rfl, rfl⟩
  obtain ⟨now, hnow, -, hreached⟩ := takeAll_inCondition hclosed hsteady hstart
  exact (hcloses hok).trans (closes_iff hdevice hclosed ⟨now, hnow, hreached⟩)

/-- A close whose second command is refused fails. One that is repeated succeeds, and leaves the
chip on four lines. -/
theorem close_closes_iff_repeated :
    let built := ((start ⟨0xEF, 0x4015⟩ .standard false).take .wrap).2
    let steps := [.request (.device .bringUp), .failing 1 1, .request (.device .shutDown)]
    let ended := built.takeAll steps
    (∀ step ∈ steps, step.AsksDevice BlockRequest.Steady) ∧
      Condition.built.takeAll steps ended.1 = .unclosed ∧
      ended.2.Answers (.device .shutDown) fun outcome after =>
        outcome.result.isOk = true ∧ after.bench.chip.quad = true ∧ ¬after.StaysShut := by
  intro built steps ended
  have hsteady : ∀ step ∈ steps, step.AsksDevice BlockRequest.Steady := by
    simp [steps, Step.AsksDevice, Step.preparesOnly, Request.onDevice?, BlockRequest.Steady,
      BlockRequest.Wakeful]
  have hwakeful : ∀ step ∈ steps, step.AsksDevice BlockRequest.Wakeful := by
    simp [steps, Step.AsksDevice, Step.preparesOnly, Request.onDevice?, BlockRequest.Wakeful]
  have hcondition : Condition.built.takeAll steps ended.1 = .unclosed := by decide +kernel
  have hok : (ended.2.take (.request (.device .shutDown))).1.isOk = true := by decide +kernel
  have hquad : (ended.2.take (.request (.device .shutDown))).2.bench.chip.quad = true := by
    decide +kernel
  obtain ⟨outcome, reports, hanswer, hcloses⟩ :=
    @close_closes_iff ⟨0xEF, 0x4015⟩ steps .standard [] (by simp) hwakeful
  have hsucceeds : outcome.result.isOk = true :=
    (congrArg StepAnswer.isOk hanswer).symm.trans hok
  have hunclosed : ¬(Condition.built.takeAll steps ended.1).Closes built ended.2 := by
    rw [hcondition]
    exact id
  refine ⟨hsteady, hcondition, outcome, reports, hanswer, hsucceeds, hquad, ?_⟩
  exact mt ((hcloses hsucceeds).2 hsteady).mp hunclosed

end Session

end NorFlash
