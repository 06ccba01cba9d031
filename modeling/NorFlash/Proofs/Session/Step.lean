import NorFlash.Bench.Session
import NorFlash.Proofs.Engine.Awareness

/-!
# Steps of a session

A step is a request, which `take_request` turns into a run of its program, or it only sets up what
happens later. `Step.preparesOnly` lists the steps of the second kind that neither touch the chip
behind the engine's back nor change what is on the bench; `take_preparesOnly` says that they leave
everything else alone. `takeAll_keeps` is the induction over the steps of a session.
-/

namespace NorFlash

/-- `after` differs from `bench` only in how calls fail and complete, in the completion event and in
the reports. -/
structure Bench.Alike (bench after : Bench) : Prop where
  bus : after.bus = bench.bus
  trace : after.trace = bench.trace
  chip : ∃ plan completion, after.chip = { bench.chip with plan, completion }

namespace Bench.Alike

variable {bench after : Bench} {id : JedecId}

/-- Benches that are alike have the same memory. -/
theorem memory (h : bench.Alike after) : after.chip.memory = bench.chip.memory := by
  obtain ⟨plan, completion, hchip⟩ := h.chip
  rw [hchip]

/-- Benches that are alike have chips in the same mode. -/
theorem mode (h : bench.Alike after) : after.chip.mode = bench.chip.mode := by
  obtain ⟨plan, completion, hchip⟩ := h.chip
  rw [hchip]
  rfl

/-- Benches alike to a settled one are settled. -/
theorem settled (h : bench.Alike after) (hsettled : bench.Settled id) : after.Settled id := by
  obtain ⟨plan, completion, hchip⟩ := h.chip
  obtain ⟨⟨bus, hbus, -⟩, ⟨hstrict, hid, hvendor, hbits, hagrees⟩, hawake⟩ := hsettled
  refine ⟨⟨bus, h.bus.trans hbus, trivial⟩, ?_, ?_⟩
  · rw [hchip]
    exact ⟨hstrict, hid, hvendor, hbits, hagrees⟩
  · rw [hchip]
    exact hawake

/-- Benches that are alike are tracked or not together. -/
theorem tracked_iff (h : bench.Alike after) : after.Tracked ↔ bench.Tracked := by
  have hquad : after.chip.quad = bench.chip.quad := congrArg Chip.Mode.quad h.mode
  simp only [Bench.Tracked, Bench.Free, h.bus, Chip.width, hquad]

end Bench.Alike

/-- An engine is aware of any bench alike, whatever its timeouts. -/
theorem Engine.Aware.alike {bench after : Bench} {engine : Engine} {id : JedecId}
    (h : engine.Aware id bench) (hafter : bench.Alike after) (timeouts : Timeouts) :
    Aware id { engine with timeouts } after :=
  ⟨hafter.settled h.settled, h.knows, fun hidentity => hafter.tracked_iff.mpr (h.tracked hidentity)⟩

/-- The step only sets up how calls fail and complete, sets the timeouts, or asks something. -/
def Step.preparesOnly : Step → Bool
  | setTimeouts _ | signal | failing .. | setCompletion _ | setEcho _ => true
  | timeouts | info | isOpen | geometry | chipSize | chipText | peek .. | readMapped .. => true
  | _ => false

/-- The step is answered with an outcome that is a success. -/
def StepAnswer.isOk : StepAnswer → Bool
  | outcome ended _ => ended.result.isOk
  | _ => false

namespace Session

variable {session : Session} {program : Program (Outcome × Subject)}

/-- The session answers a request, and the property holds of the outcome and of the session
afterwards. -/
def Answers (session : Session) (request : Request) (property : Outcome → Session → Prop) : Prop :=
  ∃ outcome reports, (session.take (.request request)).1 = .outcome outcome reports ∧
    property outcome (session.take (.request request)).2

/-- A request that the subject takes runs on a bench that has reported nothing yet. -/
theorem take_request {request : Request} (h : session.subject.serve? request = some program) :
    session.take (.request request) =
      let ended := program.run Bench.environment session.quietBench
      (.outcome ended.1.1 (shownReports request ended.2),
        { session with bench := ended.2, subject := ended.1.2 }) := by
  show session.takeRequest request = _
  unfold takeRequest
  rw [h]

/-- A bench without the records of its last step is alike to it. -/
theorem alike_quietBench (session : Session) : session.bench.Alike session.quietBench :=
  ⟨rfl, rfl, session.bench.chip.plan, session.bench.chip.completion, rfl⟩

/-- A bench is alike to itself. -/
theorem alike_refl (bench : Bench) : bench.Alike bench :=
  ⟨rfl, rfl, bench.chip.plan, bench.chip.completion, rfl⟩

/-- The subjects are the same but for the timeouts of the engine. -/
inductive Retimed : Subject → Subject → Prop where
  | engine (engine : Engine) (timeouts : Timeouts) :
      Retimed (.engine engine) (.engine { engine with timeouts })
  | device (device : BlockDevice) : Retimed (.device device) (.device device)

/-- A retimed engine differs in its timeouts alone. -/
theorem Retimed.exists_eq {engine : Engine} {subject : Subject}
    (h : Retimed (.engine engine) subject) :
    ∃ timeouts, subject = .engine { engine with timeouts } := by
  cases h with
  | engine _ timeouts => exact ⟨timeouts, rfl⟩

/-- Nothing need change for a subject to be retimed. -/
theorem retimed_refl (subject : Subject) : Retimed subject subject := by
  cases subject with
  | engine engine => exact .engine engine engine.timeouts
  | device device => exact .device device

/-- What a step that only prepares leaves alone. -/
theorem take_preparesOnly {step : Step} (h : step.preparesOnly = true) :
    session.bench.Alike (session.take step).2.bench ∧
      Retimed session.subject (session.take step).2.subject := by
  have hsame := alike_refl session.bench
  have hsubject := retimed_refl session.subject
  cases step with
  | setTimeouts timeouts =>
      simp only [take]
      split
      · rename_i engine hengine
        rw [hengine]
        exact ⟨hsame, .engine engine timeouts⟩
      · exact ⟨hsame, hsubject⟩
  | signal => exact ⟨⟨rfl, rfl, _, _, rfl⟩, hsubject⟩
  | failing spared failures => exact ⟨⟨rfl, rfl, ⟨spared, failures⟩, _, rfl⟩, hsubject⟩
  | setCompletion mode => exact ⟨⟨rfl, rfl, _, mode, rfl⟩, hsubject⟩
  | setEcho echo => exact ⟨⟨rfl, rfl, _, _, rfl⟩, hsubject⟩
  | isOpen | geometry | readMapped =>
      simp only [take]
      split <;> exact ⟨hsame, hsubject⟩
  | timeouts | info | chipSize | chipText | peek => exact ⟨hsame, hsubject⟩
  | _ => simp [Step.preparesOnly] at h

/-- A session starts settled. -/
theorem settled_start (id : JedecId) (timeouts : Timeouts) (asDevice : Bool) :
    (start id timeouts asDevice).bench.Settled id :=
  ⟨⟨.fresh, rfl, trivial⟩, Chip.sound_fresh id, rfl⟩

/-- What every step allowed keeps, a whole session keeps. -/
theorem takeAll_keeps {property : Session → Prop} {allowed : Step → Prop}
    (hstep : ∀ session step, allowed step → property session → property (session.take step).2)
    {steps : List Step} (hsteps : ∀ step ∈ steps, allowed step) (h : property session) :
    property (session.takeAll steps).2 := by
  induction steps generalizing session with
  | nil => exact h
  | cons step rest ih =>
      refine ih (fun other hother => hsteps other (List.mem_cons_of_mem step hother)) ?_
      exact hstep session step (hsteps step List.mem_cons_self) h

/-- Steps in two parts are taken one part after the other. -/
theorem takeAll_append (session : Session) (first second : List Step) :
    (session.takeAll (first ++ second)).2 = ((session.takeAll first).2.takeAll second).2 := by
  induction first generalizing session with
  | nil => rfl
  | cons step rest ih => exact ih (session.take step).2

end Session

end NorFlash
