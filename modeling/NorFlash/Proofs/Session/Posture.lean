import Mathlib.Data.List.Induction
import NorFlash.Proofs.Engine.Posture
import NorFlash.Proofs.Session.Tracking

/-!
# Sessions in which nothing fails

A session that starts with a new engine and a new chip of a supported device, and in which no call
fails, is in the posture that its requests lead to: `onEngine_posed_takeAll`. So the requests alone
tell what shutting down and asking for the identification come to. `shutDown_restores_iff` says that
shutting down returns the chip to its default state unless it was reset in its sleep, and
`readId_answers` that the chip gives its identification only while it is awake on one line, although
both requests succeed in any case.
-/

namespace NorFlash

namespace Posture

/-- The posture after one more request is the next one. -/
theorem ofRun_concat (requests : List EngineRequest) (request : EngineRequest) :
    ofRun (requests ++ [request]) = (ofRun requests).after request := by
  rw [ofRun, List.foldl_append]
  rfl

/-- Only bringing up finds a chip that is lost. -/
theorem after_eq_lost_iff (posture : Posture) (request : EngineRequest) :
    posture.after request = .lost ↔
      posture = .lost ∧ request ≠ .bringUp ∨
        posture = .known true true ∧ request = .operation .reset := by
  cases posture with
  | known quad asleep =>
      cases request with
      | bringUp | shutDown => simp [after]
      | operation operation =>
          cases operation with
          | reset => cases quad <;> cases asleep <;> simp [after]
          | _ => simp [after]
  | lost =>
      cases request with
      | bringUp | shutDown => simp [after]
      | operation operation => cases operation <;> simp [after]

/-- A chip is lost if it was reset while it was asleep in quad protocol, and not brought up
since. -/
theorem ofRun_eq_lost_iff (requests : List EngineRequest) :
    ofRun requests = .lost ↔ ∃ before rest,
      requests = before ++ .operation .reset :: rest ∧ ofRun before = .known true true ∧
        .bringUp ∉ rest := by
  -- The last request decides, so the induction takes the requests from the end.
  induction requests using List.reverseRecOn with
  | nil => simp [ofRun]
  | append_singleton requests request ih =>
      rw [ofRun_concat, after_eq_lost_iff, ih]
      constructor
      · intro hlost
        obtain ⟨⟨before, rest, rfl, hasleep, hrest⟩, hrequest⟩ | ⟨hasleep, rfl⟩ := hlost
        · refine ⟨before, rest ++ [request], by simp, hasleep, ?_⟩
          simpa [hrest] using Ne.symm hrequest
        · exact ⟨requests, [], rfl, hasleep, List.not_mem_nil⟩
      · intro hreset
        obtain ⟨before, rest, hsplit, hasleep, hrest⟩ := hreset
        cases rest using List.reverseRecOn with
        | nil =>
            obtain ⟨rfl, hlast⟩ := List.append_inj' hsplit rfl
            exact .inr ⟨hasleep, List.singleton_inj.mp hlast⟩
        | append_singleton rest last =>
            rw [← List.cons_append, ← List.append_assoc] at hsplit
            obtain ⟨rfl, hlast⟩ := List.append_inj' hsplit rfl
            obtain rfl := List.singleton_inj.mp hlast
            simp only [List.mem_append, List.mem_singleton, not_or] at hrest
            exact .inl ⟨⟨before, rest, rfl, hasleep, hrest.1⟩, Ne.symm hrest.2⟩

end Posture

/-- The chip is as a reset leaves it, and awake. -/
structure Chip.Restored (chip : Chip) : Prop where
  awake : chip.asleep = false
  single : chip.quad = false
  registers : chip.registers = .afterReset chip.registers.storedStatus2

/-- A chip is restored in the posture of a new one and in no other. -/
theorem Chip.Poses.restored_iff {chip : Chip} {posture : Posture} (h : chip.Poses posture) :
    chip.Restored ↔ posture = .known false false := by
  constructor
  · intro hrestored
    have hquad := h.quad.symm.trans hrestored.single
    have hasleep := h.asleep.symm.trans hrestored.awake
    cases posture with
    | known quad asleep =>
        obtain rfl : quad = false := hquad
        obtain rfl : asleep = false := hasleep
        rfl
    | lost => simp [Posture.quad] at hquad
  · intro hdefault
    subst hdefault
    exact ⟨h.asleep, h.quad, h.registers rfl⟩

/-- The step calls the engine: with a request, to set the timeouts or to ask about it. -/
def Step.callsEngine : Step → Bool
  | request (.engine _) | setTimeouts _ | timeouts | info => true
  | _ => false

/-- The request to the engine, if the step is one. -/
def Step.engineRequest? : Step → Option EngineRequest
  | request (.engine asked) => some asked
  | _ => none

/-- A step that asks for a request is that request of an engine. -/
theorem Step.eq_of_engineRequest? {step : Step} {asked : EngineRequest}
    (h : step.engineRequest? = some asked) : step = .request (.engine asked) := by
  unfold Step.engineRequest? at h
  split at h
  · rw [Option.some.inj h]
  · cases h

namespace Session

variable {session : Session} {id : JedecId} {identity : Identity} {timeouts : Timeouts}
  {steps : List Step}

/-- Between two requests nothing but the reports changes. -/
theorem posed_quietBench {posture : Posture} (h : session.bench.Posed id posture) :
    session.quietBench.Posed id posture :=
  ⟨h.free, h.sound, h.responsive, h.poses⟩

/-- A call that is no request concerns only the timeouts. -/
theorem take_callsEngine {step : Step} (hcalls : step.callsEngine = true)
    (hnone : step.engineRequest? = none) :
    (session.take step).2.bench = session.bench ∧
      Retimed session.subject (session.take step).2.subject := by
  cases step with
  | request request =>
      cases request with
      | engine request => simp [Step.engineRequest?] at hnone
      | device request => simp [Step.callsEngine] at hcalls
  | setTimeouts timeouts =>
      simp only [take]
      split
      · rename_i engine hengine
        rw [hengine]
        exact ⟨rfl, .engine engine timeouts⟩
      · exact ⟨rfl, retimed_refl session.subject⟩
  | timeouts | info => exact ⟨rfl, retimed_refl session.subject⟩
  | _ => simp [Step.callsEngine] at hcalls

/-- A call makes of the posture what its request does. -/
theorem onEngine_posed_take (hknows : Catalog.Knows id identity) {step : Step} {posture : Posture}
    (hcalls : step.callsEngine = true)
    (h : session.OnEngine fun _ bench => bench.Posed id posture) :
    (session.take step).2.OnEngine fun _ bench =>
      bench.Posed id (step.engineRequest?.elim posture posture.after) := by
  obtain ⟨engine, hengine, hposed⟩ := h
  cases hrequest : step.engineRequest? with
  | none =>
      obtain ⟨hbench, hsubject⟩ := @take_callsEngine session step hcalls hrequest
      rw [hengine] at hsubject
      obtain ⟨timeouts, hretimed⟩ := hsubject.exists_eq
      refine ⟨_, hretimed, ?_⟩
      rw [hbench]
      exact hposed
  | some request =>
      obtain rfl := Step.eq_of_engineRequest? hrequest
      rw [take_engine hengine]
      exact ⟨_, rfl, Engine.ends_serve_posed (posed_quietBench hposed) hknows request⟩

/-- A session is in the posture that its requests lead to. -/
theorem onEngine_posed_takeAll (hknows : Catalog.Knows id identity)
    (hsteps : ∀ step ∈ steps, step.callsEngine = true) {posture : Posture}
    (h : session.OnEngine fun _ bench => bench.Posed id posture) :
    (session.takeAll steps).2.OnEngine fun _ bench =>
      bench.Posed id ((steps.filterMap Step.engineRequest?).foldl Posture.after posture) := by
  induction steps generalizing session posture with
  | nil => exact h
  | cons step rest ih =>
      have hstep := onEngine_posed_take hknows (hsteps step List.mem_cons_self) h
      have hrest := ih (fun other hother => hsteps other (List.mem_cons_of_mem step hother)) hstep
      cases hrequest : step.engineRequest? with
      | none =>
          rw [List.filterMap_cons_none hrequest]
          rw [hrequest] at hrest
          exact hrest
      | some request =>
          rw [List.filterMap_cons_some hrequest]
          rw [hrequest] at hrest
          exact hrest

/-- A run from a new chip leaves the posture of its requests. -/
theorem onEngine_posed_start (hknows : Catalog.Knows id identity)
    (hsteps : ∀ step ∈ steps, step.callsEngine = true) :
    ((start id timeouts false).takeAll steps).2.OnEngine fun _ bench =>
      bench.Posed id (Posture.ofRun (steps.filterMap Step.engineRequest?)) :=
  onEngine_posed_takeAll hknows hsteps ⟨.fresh timeouts, rfl, Bench.posed_fresh id⟩

/-- Shutting down succeeds after any run, and the engine has no device then. The chip is back in its
default state, unless it was reset while it was asleep in quad protocol and not brought up since. -/
theorem shutDown_restores_iff (hknows : Catalog.Knows id identity)
    (hsteps : ∀ step ∈ steps, step.callsEngine = true) :
    ((start id timeouts false).takeAll steps).2.Answers (.engine .shutDown)
      fun outcome after => outcome.result = .ok .nothing ∧ after.subject.flash.device? = none ∧
        (after.bench.chip.Restored ↔ ∀ before rest,
          steps.filterMap Step.engineRequest? = before ++ .operation .reset :: rest →
            Posture.ofRun before = .known true true → .bringUp ∈ rest) := by
  obtain ⟨engine, hengine, hposed⟩ := onEngine_posed_start hknows hsteps
  generalize steps.filterMap Step.engineRequest? = requests at *
  generalize ((start id timeouts false).takeAll steps).2 = session at *
  have hserve : (engine.serve .shutDown).Ends Bench.environment
      (fun ended after => ended = (.ofUnit (.ok ()), engine.forget) ∧
        after.Posed id ((Posture.ofRun requests).after .shutDown)) session.quietBench := by
    refine (Program.ends_bind ..).mpr
      ((Engine.ends_shutDown_posed (posed_quietBench hposed)).mono ?_)
    intro ended after hended
    obtain ⟨rfl, hafter⟩ := hended
    exact ⟨rfl, hafter⟩
  have hdefault : (Posture.ofRun requests).after .shutDown = .known false false ↔
      Posture.ofRun requests ≠ .lost := by
    cases Posture.ofRun requests <;> simp [Posture.after]
  unfold Answers
  rw [take_engine hengine]
  obtain ⟨hended, hafter⟩ := hserve
  refine ⟨_, _, rfl, congrArg (·.1.result) hended, ?_, ?_⟩
  · show (Subject.engine _).flash.device? = none
    rw [hended]
    rfl
  · rw [hafter.poses.restored_iff, hdefault, ne_eq, Posture.ofRun_eq_lost_iff]
    simp only [not_exists, not_and, not_not]

/-- A chip that is reset in its sleep is still asleep and in quad protocol after it is shut down. -/
theorem shutDown_restores_iff_reset_asleep :
    let steps := [bringUp, .request (.engine (.operation (.sleep true))),
      .request (.engine (.operation .reset))]
    Catalog.Knows ⟨0xEF, 0x4015⟩
        ⟨Catalog.winbond, ⟨0x4015, "W25Q16DV", 4096, false, 8, some .quad⟩⟩ ∧
      (∀ step ∈ steps, step.callsEngine = true) ∧
      ((start ⟨0xEF, 0x4015⟩ .standard false).takeAll steps).2.Answers (.engine .shutDown)
        fun outcome after => outcome.result = .ok .nothing ∧ ¬after.bench.chip.Restored := by
  intro steps
  have hknows : Catalog.Knows ⟨0xEF, 0x4015⟩
      ⟨Catalog.winbond, ⟨0x4015, "W25Q16DV", 4096, false, 8, some .quad⟩⟩ := rfl
  have hsteps : ∀ step ∈ steps, step.callsEngine = true := by
    simp [steps, bringUp, Step.callsEngine]
  obtain ⟨outcome, reports, hanswer, hok, -, hrestored⟩ :=
    @shutDown_restores_iff _ _ .standard _ hknows hsteps
  refine ⟨hknows, hsteps, outcome, reports, hanswer, hok, fun h => ?_⟩
  have hlater := hrestored.mp h [.bringUp, .operation (.sleep true)] [] rfl rfl
  exact absurd hlater List.not_mem_nil

/-- Asking for the identification succeeds after any run. The answer is that of the chip if it is
awake and listens on one line, and otherwise all bits are set. -/
theorem readId_answers (hknows : Catalog.Knows id identity)
    (hsteps : ∀ step ∈ steps, step.callsEngine = true) :
    ((start id timeouts false).takeAll steps).2.Answers (.engine (.operation .readId))
      fun outcome _ => outcome.result =
        .ok (.id (if Posture.ofRun (steps.filterMap Step.engineRequest?) = .known false false
          then id else ⟨0xFF, 0xFFFF⟩)) := by
  obtain ⟨engine, hengine, hposed⟩ := onEngine_posed_start hknows hsteps
  generalize Posture.ofRun (steps.filterMap Step.engineRequest?) = posture at *
  generalize ((start id timeouts false).takeAll steps).2 = session at *
  have hquiet := posed_quietBench hposed
  obtain ⟨bus, hbus, -⟩ := hquiet.free
  have hhears : session.quietBench.chip.Hears .single ↔ posture = .known false false := by
    rw [Chip.hears_single hquiet.sound.strict, hquiet.poses.quad, hquiet.poses.asleep]
    cases posture <;> simp [Posture.quad, Posture.asleep, and_comm]
  have hended : (engine.perform .readId).Ends Bench.environment
      (fun outcome _ => outcome.result =
        .ok (.id (if posture = .known false false then id else ⟨0xFF, 0xFFFF⟩)))
      session.quietBench := by
    refine (Program.ends_map ..).mpr (Program.Ends.mono (Engine.ends_readId hbus) ?_)
    intro result after hended
    cases result with
    | error fault => exact absurd hquiet.responsive hended.2
    | ok found =>
        obtain ⟨-, hheard, hunheard⟩ := hended
        show Except.ok (Payload.id found) = _
        split
        · rename_i hplain
          rw [hheard (hhears.mpr hplain), hquiet.sound.id_eq]
        · rename_i hplain
          rw [hunheard (mt hhears.mp hplain)]
  obtain ⟨outcome, reports, hanswer, -, houtcome⟩ := answers_of_ends hengine hended
  exact ⟨outcome, reports, hanswer, houtcome⟩

/-- The identification of a device that has been brought up reads as all ones. -/
theorem readId_answers_brought_up :
    let steps := [bringUp]
    Catalog.Knows ⟨0xEF, 0x4015⟩
        ⟨Catalog.winbond, ⟨0x4015, "W25Q16DV", 4096, false, 8, some .quad⟩⟩ ∧
      (∀ step ∈ steps, step.callsEngine = true) ∧
      ((start ⟨0xEF, 0x4015⟩ .standard false).takeAll steps).2.Answers
        (.engine (.operation .readId)) fun outcome _ =>
          outcome.result = .ok (.id ⟨0xFF, 0xFFFF⟩) := by
  intro steps
  have hknows : Catalog.Knows ⟨0xEF, 0x4015⟩
      ⟨Catalog.winbond, ⟨0x4015, "W25Q16DV", 4096, false, 8, some .quad⟩⟩ := rfl
  have hsteps : ∀ step ∈ steps, step.callsEngine = true := by
    simp [steps, bringUp, Step.callsEngine]
  exact ⟨hknows, hsteps, @readId_answers _ _ .standard _ hknows hsteps⟩

end Session

end NorFlash
