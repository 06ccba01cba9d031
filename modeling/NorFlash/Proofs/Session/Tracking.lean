import NorFlash.Proofs.Engine.Stranding
import NorFlash.Proofs.Session.Step

/-!
# An engine over a whole session

A session that starts with a new engine and a new chip, and in which nothing is put to sleep, goes
on with a chip that is awake. `reads_deliver` says that the engine then knows the chip's width
whenever it has identified a device, so that a read either fails or delivers what is stored, and
that after a reset reads fail until the device is brought up again. Without a device the width can
get lost; `tracked_iff_not_strands` says exactly when it does.
-/

namespace NorFlash

/-- The step is a request to an engine that is allowed, or it only prepares. -/
def Step.Asks (allowed : EngineRequest → Prop) : Step → Prop
  | request (.engine asked) => allowed asked
  | step => step.preparesOnly = true

namespace Session

/-- What is on the bench is an engine, and the property holds of it and of the bench. -/
def OnEngine (property : Engine → Bench → Prop) (session : Session) : Prop :=
  ∃ engine, session.subject = .engine engine ∧ property engine session.bench

variable {session : Session} {property : Engine → Bench → Prop} {allowed : EngineRequest → Prop}
  {id : JedecId} {step : Step}

/-- What a request to an engine makes of a session. -/
theorem take_engine {engine : Engine} (h : session.subject = .engine engine)
    (request : EngineRequest) :
    session.take (.request (.engine request)) =
      let ended := (engine.serve request).run Bench.environment session.quietBench
      (.outcome ended.1.1 (shownReports (.engine request) ended.2),
        { session with bench := ended.2, subject := .engine ended.1.2 }) := by
  have hserve : session.subject.serve? (.engine request) = some (do
      let ended ← engine.serve request
      return (ended.1, .engine ended.2)) := by
    rw [h]
    rfl
  rw [take_request hserve, Program.run_bind]
  rfl

/-- A step that asks for nothing else only prepares, or it is an allowed request. -/
theorem take_asks {engine : Engine} (h : session.subject = .engine engine)
    (hstep : step.Asks allowed) :
    step.preparesOnly = true ∧ session.bench.Alike (session.take step).2.bench ∧
        (∃ timeouts, (session.take step).2.subject = .engine { engine with timeouts }) ∨
      ∃ request, step = .request (.engine request) ∧ allowed request := by
  have hprepares (hprepares : step.preparesOnly = true) :
      step.preparesOnly = true ∧ session.bench.Alike (session.take step).2.bench ∧
        ∃ timeouts, (session.take step).2.subject = .engine { engine with timeouts } := by
    obtain ⟨hbench, hsubject⟩ := @take_preparesOnly session step hprepares
    rw [h] at hsubject
    exact ⟨hprepares, hbench, hsubject.exists_eq⟩
  cases step with
  | request request =>
      cases request with
      | engine request => exact .inr ⟨request, rfl, hstep⟩
      | device request => exact .inl (hprepares hstep)
  | _ => exact .inl (hprepares hstep)

/-- A property that no allowed request breaks survives every step that asks for no other. -/
theorem OnEngine.take
    (halike : ∀ engine timeouts bench after, Bench.Alike bench after → property engine bench →
      property { engine with timeouts } after)
    (hserve : ∀ engine request bench, allowed request → property engine bench →
      (Engine.serve engine request).Ends Bench.environment
        (fun ended after => property ended.2 after) bench)
    (hstep : step.Asks allowed) (h : session.OnEngine property) :
    (session.take step).2.OnEngine property := by
  obtain ⟨engine, hengine, hproperty⟩ := h
  obtain ⟨-, hbench, timeouts, hretimed⟩ | ⟨request, rfl, hallowed⟩ := take_asks hengine hstep
  · exact ⟨_, hretimed, halike engine timeouts _ _ hbench hproperty⟩
  · rw [take_engine hengine]
    have hquiet := halike engine engine.timeouts _ _ (alike_quietBench session) hproperty
    exact ⟨_, rfl, hserve engine request _ hallowed hquiet⟩

variable {timeouts : Timeouts} {steps : List Step}

/-- What an operation comes to is what a session answers. -/
theorem answers_of_ends {engine : Engine} {operation : Operation} {post : Outcome → Bench → Prop}
    (h : session.subject = .engine engine)
    (hended : (engine.perform operation).Ends Bench.environment post session.quietBench) :
    session.Answers (.engine (.operation operation)) fun outcome after =>
      after.subject = .engine engine ∧ post outcome after.bench := by
  have hserve := (Engine.ends_serve_operation (fun ended after => ended.2 = engine ∧
    post ended.1 after)).mpr (hended.mono fun _ _ hpost => ⟨rfl, hpost⟩)
  unfold Answers
  rw [take_engine h]
  exact ⟨_, _, rfl, congrArg Subject.engine hserve.1, hserve.2⟩

/-- A session starts with an engine that is aware of its chip. -/
theorem start_onEngine (id : JedecId) (timeouts : Timeouts) :
    (start id timeouts false).OnEngine (Engine.Aware id) :=
  ⟨.fresh timeouts, rfl, Engine.aware_of_none (settled_start id timeouts false) rfl⟩

/-- A step without sleep keeps the engine aware. -/
theorem onEngine_aware_take {step : Step} (hstep : step.Asks EngineRequest.Wakeful)
    (h : session.OnEngine (Engine.Aware id)) :
    (session.take step).2.OnEngine (Engine.Aware id) :=
  h.take (fun _ timeouts _ _ halike haware => haware.alike halike timeouts)
    (fun _ _ _ hwakeful haware => Engine.ends_serve_aware hwakeful haware) hstep

/-- So do any number of them from the start. -/
theorem onEngine_aware_takeAll (hsteps : ∀ step ∈ steps, step.Asks EngineRequest.Wakeful) :
    ((start id timeouts false).takeAll steps).2.OnEngine (Engine.Aware id) :=
  takeAll_keeps (fun _ _ hstep h => onEngine_aware_take hstep h) hsteps
    (start_onEngine id timeouts)

/-- The request is not for sleep and does not bring the device up. -/
def IdleRequest (request : EngineRequest) : Prop :=
  request.Wakeful ∧ request ≠ .bringUp

/-- Steps that do not bring the device up keep an idled engine so. -/
theorem onEngine_idled_takeAll (hsteps : ∀ step ∈ steps, step.Asks IdleRequest)
    (h : session.OnEngine (Engine.Idled id)) :
    (session.takeAll steps).2.OnEngine (Engine.Idled id) := by
  refine takeAll_keeps (fun _ _ hstep h => OnEngine.take ?_ ?_ hstep h) hsteps h
  · rintro engine timeouts bench after halike ⟨haware, hidled⟩
    refine ⟨haware.alike halike timeouts, hidled.imp (fun h => h) fun h => ?_⟩
    exact h.of_mode halike.mode
  · exact fun _ _ _ hrequest h => Engine.ends_serve_idled hrequest.1 hrequest.2 h

/-- An engine with a device shares the width with a chip that is awake. -/
theorem OnEngine.shares (h : session.OnEngine (Engine.Aware id))
    (hdevice : session.subject.flash.device?.isSome = true) :
    session.bench.chip.asleep = false ∧ ∃ bus, session.bench.bus = some bus ∧
      ∀ width, session.bench.chip.listens width = true ↔ width = bus.width := by
  obtain ⟨engine, hengine, haware⟩ := h
  rw [hengine, Subject.flash, Engine.device?, Option.isSome_map] at hdevice
  obtain ⟨bus, hbus, hwidth⟩ := haware.tracked (Option.isSome_iff_ne_none.mp hdevice)
  refine ⟨haware.settled.awake, bus, hbus, fun width => ?_⟩
  simp [Chip.listens, haware.settled.sound.strict, hwidth]

/-- A read that succeeds delivers what is stored. -/
theorem OnEngine.reads (h : session.OnEngine (Engine.Aware id)) {operation : Operation}
    {address length : Nat}
    (hrange : session.subject.flash.readRange? operation = some (address, length)) :
    session.Answers (.engine (.operation operation)) fun outcome after =>
      outcome.result.isOk = true →
        outcome.delivered? = some (session.bench.chip.memory.read address length) ∧
          after.bench.chip.memory = session.bench.chip.memory ∧
          (length ≠ 0 → address + length ≤ session.bench.chip.memory.size) := by
  obtain ⟨engine, hengine, haware⟩ := h
  rw [hengine] at hrange
  have hquiet : engine.Aware id session.quietBench :=
    haware.alike (alike_quietBench session) engine.timeouts
  obtain ⟨outcome, reports, hanswer, -, hread⟩ :=
    answers_of_ends hengine (Engine.ends_perform_aware hquiet hrange)
  refine ⟨outcome, reports, hanswer, fun hok => ?_⟩
  obtain ⟨hdelivered, hmemory, hwithin⟩ := hread hok
  exact ⟨hdelivered, hmemory, fun hlength => (hwithin hlength).1⟩

/-- Without a device, or with a chip that has been reset, reads fail. -/
theorem OnEngine.fails (h : session.OnEngine (Engine.Idled id)) {operation : Operation}
    {address length : Nat}
    (hrange : session.subject.flash.readRange? operation = some (address, length))
    (hlength : length ≠ 0) :
    session.Answers (.engine (.operation operation)) fun outcome _ =>
      outcome.result.isOk = false := by
  obtain ⟨engine, hengine, haware, hidled⟩ := h
  rw [hengine] at hrange
  have hquiet : engine.Aware id session.quietBench :=
    haware.alike (alike_quietBench session) engine.timeouts
  rcases hidled with hnone | hunready
  · obtain ⟨outcome, reports, hanswer, -, hfails⟩ :=
      answers_of_ends hengine (Engine.ends_perform_unidentified hnone hrange)
    exact ⟨outcome, reports, hanswer, hfails⟩
  · obtain ⟨outcome, reports, hanswer, -, hread⟩ :=
      answers_of_ends hengine (Engine.ends_perform_aware hquiet hrange)
    refine ⟨outcome, reports, hanswer, Bool.eq_false_iff.mpr fun hok => ?_⟩
    exact ((hread hok).2.2 hlength).2 hunready

/-- In a session without sleep, an engine that has a device shares the width with a chip that is
awake, a read that succeeds delivers what is stored, and after a reset no read does until the device
is brought up again. -/
theorem reads_deliver (hsteps : ∀ step ∈ steps, step.Asks EngineRequest.Wakeful) :
    let session := ((start id timeouts false).takeAll steps).2
    (session.subject.flash.device?.isSome = true → session.bench.chip.asleep = false ∧
      ∃ bus, session.bench.bus = some bus ∧
        ∀ width, session.bench.chip.listens width = true ↔ width = bus.width) ∧
    (∀ operation address length,
      session.subject.flash.readRange? operation = some (address, length) →
      session.Answers (.engine (.operation operation)) fun outcome after =>
        outcome.result.isOk = true →
          outcome.delivered? = some (session.bench.chip.memory.read address length) ∧
            after.bench.chip.memory = session.bench.chip.memory ∧
            (length ≠ 0 → address + length ≤ session.bench.chip.memory.size)) ∧
    session.Answers (.engine (.operation .reset)) fun outcome after => outcome.result.isOk = true →
      ∀ later, (∀ step ∈ later, step.Asks IdleRequest) →
        let session := (after.takeAll later).2
        ∀ operation address length,
          session.subject.flash.readRange? operation = some (address, length) → length ≠ 0 →
          session.Answers (.engine (.operation operation)) fun outcome _ =>
            outcome.result.isOk = false := by
  intro session
  have h : session.OnEngine (Engine.Aware id) := onEngine_aware_takeAll hsteps
  refine ⟨h.shares, fun _ _ _ => h.reads, ?_⟩
  obtain ⟨engine, hengine, haware⟩ := h
  have hquiet : engine.Aware id session.quietBench :=
    haware.alike (alike_quietBench session) engine.timeouts
  obtain ⟨outcome, reports, hanswer, hsubject, hreset⟩ :=
    answers_of_ends hengine (Engine.ends_reset_idled hquiet)
  refine ⟨outcome, reports, hanswer, fun hok later hlater => ?_⟩
  intro last operation address length hrange
  exact (onEngine_idled_takeAll hlater ⟨engine, hsubject, hreset hok⟩).fails hrange

/-- A reset that is refused leaves the device readable. -/
theorem reads_deliver_after_refused_reset :
    let steps := [.request (.engine .bringUp), .failing 1 1,
      .request (.engine (.operation .reset))]
    (∀ step ∈ steps, step.Asks EngineRequest.Wakeful) ∧
      let session := ((start ⟨0xEF, 0x4015⟩ .standard false).takeAll steps).2
      session.subject.flash.device?.isSome = true ∧ session.bench.chip.asleep = false ∧
        session.Answers (.engine (.operation (.read 0 2))) fun outcome _ =>
          outcome.result.isOk = true →
            outcome.delivered? = some (session.bench.chip.memory.read 0 2) := by
  intro steps
  have hsteps : ∀ step ∈ steps, step.Asks EngineRequest.Wakeful := by
    simp [steps, Step.Asks, Step.preparesOnly, EngineRequest.Wakeful, EngineRequest.sleeps]
  obtain ⟨hshares, hreads, -⟩ := @reads_deliver ⟨0xEF, 0x4015⟩ .standard steps hsteps
  have hdevice : ((start ⟨0xEF, 0x4015⟩ .standard false).takeAll
      steps).2.subject.flash.device?.isSome = true := by
    decide +kernel
  obtain ⟨outcome, reports, hanswer, hread⟩ := hreads (.read 0 2) 0 2 rfl
  exact ⟨hsteps, hdevice, (hshares hdevice).1, outcome, reports, hanswer, fun hok => (hread hok).1⟩

/-! ## Where the width gets lost -/

/-- The step that brings the device up. -/
def bringUp : Step :=
  .request (.engine .bringUp)

/-- A step without sleep keeps the chip settled. -/
theorem onEngine_settled_take {step : Step} (hstep : step.Asks EngineRequest.Wakeful)
    (h : session.OnEngine fun _ bench => bench.Settled id) :
    (session.take step).2.OnEngine fun _ bench => bench.Settled id :=
  h.take (fun _ _ _ _ halike hsettled => halike.settled hsettled)
    (fun _ _ _ hwakeful hsettled => Engine.ends_serve_settled hsettled hwakeful) hstep

/-- A step keeps track of the width, unless it brings the device up and loses it in that. -/
theorem tracked_take {step : Step} (hstep : step.Asks EngineRequest.Wakeful)
    (h : session.OnEngine fun _ bench => bench.Settled id) (htracked : session.bench.Tracked) :
    (session.take step).2.bench.Tracked ↔
      (step = bringUp → ¬session.bench.Strands (session.take step).2.bench) := by
  obtain ⟨engine, hengine, hsettled⟩ := h
  have hquiet := alike_quietBench session
  obtain ⟨hprepares, hbench, -⟩ | ⟨request, rfl, hwakeful⟩ := take_asks hengine hstep
  · refine ⟨fun _ hstep => ?_, fun _ => hbench.tracked_iff.mpr htracked⟩
    subst hstep
    simp [bringUp, Step.preparesOnly] at hprepares
  · rw [take_engine hengine]
    -- Any other request keeps track, and is not the one the condition is about.
    by_cases hup : request = .bringUp
    · subst hup
      have hended := @Engine.ends_bringUp_tracked session.quietBench engine id
        (hquiet.settled hsettled) (hquiet.tracked_iff.mpr htracked)
      have hserve : (engine.serve .bringUp).Ends Bench.environment
          (fun _ after => after.Tracked ↔ ¬session.quietBench.Strands after)
          session.quietBench :=
        (Program.ends_bind ..).mpr (hended.mono fun _ _ h => h)
      exact hserve.trans ⟨fun h _ => h, fun h => h rfl⟩
    · have hended := @Engine.ends_serve_tracked session.quietBench engine id request
        (hquiet.settled hsettled) (hquiet.tracked_iff.mpr htracked) hwakeful hup
      exact ⟨fun _ hbringUp => absurd (by simpa [bringUp] using hbringUp) hup,
        fun _ => hended.1.tracked⟩

/-- A session in which no request to bring the device up loses the width keeps track of it. -/
theorem tracked_takeAll (hsteps : ∀ step ∈ steps, step.Asks EngineRequest.Wakeful)
    (h : session.OnEngine fun _ bench => bench.Settled id) (htracked : session.bench.Tracked)
    (hkept : ∀ before rest, steps = before ++ bringUp :: rest →
      let session := (session.takeAll before).2
      ¬session.bench.Strands (session.take bringUp).2.bench) :
    (session.takeAll steps).2.bench.Tracked := by
  induction steps generalizing session with
  | nil => exact htracked
  | cons step rest ih =>
      have hstep := hsteps step List.mem_cons_self
      refine ih (fun other hother => hsteps other (List.mem_cons_of_mem step hother))
        (onEngine_settled_take hstep h) ?_ fun before later hsplit => ?_
      · refine (tracked_take hstep h htracked).mpr fun hup => ?_
        subst hup
        exact hkept [] rest rfl
      · exact hkept (step :: before) later (congrArg (step :: ·) hsplit)

/-- In a session without sleep, the engine knows after every step the width the chip listens on,
exactly if no request to bring the device up loses it. -/
theorem tracked_iff_not_strands (hsteps : ∀ step ∈ steps, step.Asks EngineRequest.Wakeful) :
    (∀ before rest, steps = before ++ rest →
      ((start id timeouts false).takeAll before).2.bench.Tracked) ↔
    ∀ before rest, steps = before ++ bringUp :: rest →
      let session := ((start id timeouts false).takeAll before).2
      ¬session.bench.Strands (session.take bringUp).2.bench := by
  have hbefore : ∀ before rest, steps = before ++ rest →
      ∀ step ∈ before, step.Asks EngineRequest.Wakeful :=
    fun before rest hsplit step hstep => hsteps step (hsplit ▸ List.mem_append_left _ hstep)
  have hsettled : ∀ before : List Step, (∀ step ∈ before, step.Asks EngineRequest.Wakeful) →
      ((start id timeouts false).takeAll before).2.OnEngine fun _ bench => bench.Settled id := by
    intro before hbefore
    obtain ⟨engine, hengine, haware⟩ := @onEngine_aware_takeAll id timeouts before hbefore
    exact ⟨engine, hengine, haware.settled⟩
  have hwakeful : bringUp.Asks EngineRequest.Wakeful := rfl
  constructor
  · intro hall before rest hsplit
    have hafter := hall (before ++ [bringUp]) rest (by simp [hsplit])
    rw [takeAll_append] at hafter
    exact (tracked_take hwakeful (hsettled before (hbefore before _ hsplit))
      (hall before _ hsplit)).mp hafter rfl
  · intro hkept before rest hsplit
    refine tracked_takeAll (hbefore before rest hsplit) (hsettled [] (by simp))
      ⟨.fresh, rfl, rfl⟩ fun first second hfirst => ?_
    exact hkept first (second ++ rest) (by simp [hsplit, hfirst])

/-- The command that sets the dummy cycles is the sixth of a first request to bring a Winbond device
up. If it is refused, the width is lost. -/
theorem strands_of_sixth_refused :
    let steps := [.failing 5 1, bringUp]
    (∀ step ∈ steps, step.Asks EngineRequest.Wakeful) ∧
      ¬∀ before rest, steps = before ++ rest →
        ((start ⟨0xEF, 0x4015⟩ .standard false).takeAll before).2.bench.Tracked := by
  intro steps
  have hsteps : ∀ step ∈ steps, step.Asks EngineRequest.Wakeful := by
    simp [steps, Step.Asks, Step.preparesOnly, bringUp, EngineRequest.Wakeful,
      EngineRequest.sleeps]
  refine ⟨hsteps, fun hall => ?_⟩
  have hkept := (tracked_iff_not_strands hsteps).mp hall [.failing 5 1] [] rfl
  exact hkept (.inl (by decide +kernel))

end Session

end NorFlash
