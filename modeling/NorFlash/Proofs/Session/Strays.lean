import Mathlib.Logic.Function.Iterate
import NorFlash.Proofs.Bench.Latch
import NorFlash.Proofs.Engine.Deferral
import NorFlash.Proofs.Engine.Disturbance
import NorFlash.Proofs.Session.Tracking

/-!
# Stray completions

A controller may report a completion that nobody waits for: by setting the event between two
requests, or at any time by the token of an operation that is no longer the newest.
`Session.takeAmid` is a step amid such strays, which also come between the requests of its program.
A late report is not heeded at all, `Event.signalLate_eq`, and a latch that was set between two
requests is cleared before anyone waits. So `takeAllAmid_eq_takeAll`: strays change no answer, no
call to the controller and nothing in the chip.
-/

namespace NorFlash

/-- How many operations were issued after one whose token differs from the newest. Tokens are
numbers of 64 bits, which come round. -/
structure Age where
  value : Nat
  pos : 0 < value
  lt : value < UInt64.size

namespace Event

/-- The token of the operation after which so many others were issued. -/
def earlier (event : Event) (age : Nat) : Token :=
  ⟨event.token.number - UInt64.ofNat age⟩

/-- Reports an operation complete that is no longer the newest. -/
def signalLate (event : Event) (age : Age) : Event :=
  event.signalFor (event.earlier age.value)

variable (event : Event)

/-- With each new operation the earlier ones are one further back. -/
theorem earlier_arm (age : Nat) : event.arm.earlier (age + 1) = event.earlier age := by
  have hnumber (number : UInt64) :
      number + 1 - UInt64.ofNat (age + 1) = number - UInt64.ofNat age := by
    rw [UInt64.ofNat_add]
    grind
  exact congrArg Token.mk (hnumber event.token.number)

/-- The operation after which so many others were issued is the one that was the newest then. -/
theorem earlier_iterate_arm (age : Nat) : (arm^[age] event).earlier age = event.token := by
  induction age with
  | zero => simp [earlier]
  | succ age ih => rw [Function.iterate_succ_apply', earlier_arm, ih]

/-- Only the newest operation has its token. -/
theorem token_ne_earlier (age : Age) : event.token ≠ event.earlier age.value := by
  intro heq
  have hnumber : event.token.number = event.token.number - UInt64.ofNat age.value :=
    congrArg Token.number heq
  have hzero : UInt64.ofNat age.value = 0 := by grind
  have hmod := congrArg UInt64.toNat hzero
  have hpos := age.pos
  have hlt := age.lt
  simp only [UInt64.size] at hlt
  simp at hmod
  omega

/-- A late report is not heeded. -/
theorem signalLate_eq (age : Age) : event.signalLate age = event :=
  signalFor_of_ne (event.token_ne_earlier age)

/-- No number of late reports is heeded. -/
theorem foldl_signalLate (ages : List Age) : ages.foldl signalLate event = event := by
  induction ages with
  | nil => rfl
  | cons age rest ih => rw [List.foldl_cons, signalLate_eq, ih]

end Event

/-- A completion that is reported between two requests. -/
inductive Stray where
  /-- The newest operation is reported complete, whether anyone waits for it or not. -/
  | signal
  /-- An operation that is no longer the newest is reported complete. -/
  | late (age : Age)

/-- The event after a stray. -/
def Event.strayed (event : Event) : Stray → Event
  | .signal => event.signal
  | .late age => event.signalLate age

/-- Strays can do no more than set the latch. -/
theorem Event.foldl_strayed (event : Event) (strays : List Stray) :
    ∃ done, strays.foldl strayed event = { event with done } := by
  induction strays generalizing event with
  | nil => exact ⟨event.done, rfl⟩
  | cons stray rest ih =>
      cases stray with
      | signal => exact ih event.signal
      | late age =>
          rw [List.foldl_cons, strayed, signalLate_eq]
          exact ih event

/-- The strays around a step: those before it, and late ones before each request of its program. -/
structure Strays where
  before : List Stray
  during : Nat → List Age

/-- The bench after late reports. -/
def Bench.amidLate (bench : Bench) (ages : List Age) : Bench :=
  { bench with event := ages.foldl Event.signalLate bench.event }

/-- Late reports change nothing of the bench. -/
theorem Bench.amidLate_eq (bench : Bench) (ages : List Age) : bench.amidLate ages = bench := by
  simp [amidLate, Event.foldl_signalLate]

namespace Session

/-- The session after strays. -/
def amid (session : Session) (strays : List Stray) : Session :=
  { session with
    bench := { session.bench with event := strays.foldl Event.strayed session.bench.event } }

/-- Takes a step amid strays. -/
def takeAmid (session : Session) (strays : Strays) : Step → StepAnswer × Session
  | .request request =>
      let session := session.amid strays.before
      match session.subject.serve? request with
      | none => (.misfit, session)
      | some program =>
          let disturb count (bench : Bench) := bench.amidLate (strays.during count)
          let ((outcome, subject), bench, _) :=
            program.run (Bench.environment.disturbed disturb) (session.quietBench, 0)
          (.outcome outcome (shownReports request bench), { session with bench, subject })
  | step => (session.amid strays.before).take step

/-- Takes steps one after the other, each amid strays of its own. -/
def takeAllAmid (session : Session) : List (Strays × Step) → List StepAnswer × Session
  | [] => ([], session)
  | (strays, step) :: rest =>
      let (answer, session) := session.takeAmid strays step
      let (answers, session) := session.takeAllAmid rest
      (answer :: answers, session)

/-- The session with the completion event set or not. -/
def withLatch (session : Session) (done : Bool) : Session :=
  { session with bench := session.bench.withLatch done }

variable {session : Session} {engine : Engine}

/-- Strays in the middle of a request are all late, so only those before the step remain. -/
theorem takeAmid_eq (session : Session) (strays : Strays) (step : Step) :
    ∃ done, session.takeAmid strays step = (session.withLatch done).take step := by
  obtain ⟨done, hbefore⟩ := session.bench.event.foldl_strayed strays.before
  have hamid : session.amid strays.before = session.withLatch done := by
    simp [amid, withLatch, Bench.withLatch, hbefore]
  refine ⟨done, ?_⟩
  cases step with
  | request request =>
      cases hserve : (session.withLatch done).subject.serve? request with
      | none => simp only [takeAmid, hamid, hserve, take, takeRequest]
      | some program =>
          have hrun := Program.run_disturbed (fun count bench =>
            Bench.amidLate_eq bench (strays.during count)) Bench.environment program
              (session.withLatch done).quietBench 0
          rw [take_request hserve, ← hrun]
          simp only [takeAmid, hamid, hserve]
  | _ =>
      rw [← hamid]
      rfl

/-- Whatever the latch was, a step is answered alike. -/
theorem take_withLatch (hengine : session.subject = .engine engine) {step : Step}
    (hstep : step.Asks fun _ => True) (done : Bool) :
    ∃ later, (session.withLatch done).take step =
      ((session.take step).1, (session.take step).2.withLatch later) := by
  cases step with
  | request request =>
      cases request with
      | engine request =>
          have hfollows := Engine.settles_serve engine request .clear id
          obtain ⟨hvalue, later, hbench⟩ := hfollows.run_withLatch
            (⟨done, rfl⟩ : Phase.clear.Agrees session.quietBench
              (session.withLatch done).quietBench)
          have hlatched : (session.withLatch done).subject = .engine engine := hengine
          refine ⟨later, ?_⟩
          rw [take_engine hengine, take_engine hlatched]
          simp only [hvalue, hbench]
          rfl
      | device request => simp [Step.Asks, Step.preparesOnly] at hstep
  | signal => exact ⟨true, rfl⟩
  | setTimeouts timeouts =>
      refine ⟨done, ?_⟩
      simp only [take, withLatch, hengine]
  | isOpen | geometry =>
      refine ⟨done, ?_⟩
      simp only [take, withLatch, hengine]
  | readMapped address length =>
      refine ⟨done, ?_⟩
      simp only [take, withLatch, Bench.withLatch]
      split <;> rfl
  | failing | setCompletion | setEcho | timeouts | info | chipSize | chipText | peek =>
      exact ⟨done, rfl⟩
  | _ => simp [Step.Asks, Step.preparesOnly] at hstep

/-- A run amid stray reports differs in the latch alone. -/
theorem takeAllAmid_withLatch (hengine : session.subject = .engine engine)
    {entries : List (Strays × Step)} (hentries : ∀ entry ∈ entries, entry.2.Asks fun _ => True)
    (done : Bool) :
    ∃ later, (session.withLatch done).takeAllAmid entries =
      ((session.takeAll (entries.map Prod.snd)).1,
        (session.takeAll (entries.map Prod.snd)).2.withLatch later) := by
  induction entries generalizing session engine done with
  | nil => exact ⟨done, rfl⟩
  | cons entry rest ih =>
      obtain ⟨strays, step⟩ := entry
      have hstep : step.Asks fun _ => True := hentries _ List.mem_cons_self
      obtain ⟨before, hbefore⟩ := takeAmid_eq (session.withLatch done) strays step
      obtain ⟨after, hafter⟩ := take_withLatch hengine hstep before
      have htaken : (session.withLatch done).takeAmid strays step =
          ((session.take step).1, (session.take step).2.withLatch after) :=
        hbefore.trans hafter
      obtain ⟨next, hnext⟩ : ∃ next, (session.take step).2.subject = .engine next := by
        have hkept : session.OnEngine fun _ _ => True := ⟨engine, hengine, trivial⟩
        obtain ⟨next, hnext, -⟩ := hkept.take (fun _ _ _ _ _ _ => trivial)
          (fun _ _ _ _ _ => Program.ends_of_forall _ fun _ _ => trivial) hstep
        exact ⟨next, hnext⟩
      obtain ⟨later, hlater⟩ := ih hnext
        (fun other hother => hentries other (List.mem_cons_of_mem _ hother)) after
      refine ⟨later, ?_⟩
      simp only [takeAllAmid, htaken, hlater, List.map_cons, takeAll]

/-- A session of an engine goes the same amid any strays: its steps are answered alike, the same
calls are made to the controller in the same order, and the chip ends in the same state. -/
theorem takeAllAmid_eq_takeAll (hengine : session.subject = .engine engine)
    {entries : List (Strays × Step)} (hentries : ∀ entry ∈ entries, entry.2.Asks fun _ => True) :
    let plain := session.takeAll (entries.map Prod.snd)
    let amid := session.takeAllAmid entries
    amid.1 = plain.1 ∧ amid.2.bench.trace = plain.2.bench.trace ∧
      amid.2.bench.chip = plain.2.bench.chip ∧ amid.2.subject = plain.2.subject := by
  intro plain amid
  obtain ⟨later, hlater⟩ := takeAllAmid_withLatch hengine hentries session.bench.event.done
  have hamid : amid = (plain.1, plain.2.withLatch later) := hlater
  rw [hamid]
  exact ⟨rfl, rfl, rfl, rfl⟩

/-- Reports come before every request and everywhere in it, also while completions are lost. -/
theorem takeAllAmid_eq_takeAll_of_lost_completion :
    let strays : Strays := ⟨[.signal, .late ⟨1, by decide, by decide⟩],
      fun _ => [⟨1, by decide, by decide⟩, ⟨2, by decide, by decide⟩]⟩
    let steps := [bringUp, .setCompletion .never, .request (.engine (.operation (.write 0 [0]))),
      .request (.engine (.operation (.read 0 1)))]
    let session := start ⟨0xEF, 0x4015⟩ .standard false
    (∀ step ∈ steps, step.Asks fun _ => True) ∧
      (session.takeAllAmid (steps.map (strays, ·))).1 = (session.takeAll steps).1 ∧
      (session.takeAllAmid (steps.map (strays, ·))).2.bench.trace =
        (session.takeAll steps).2.bench.trace ∧
      (session.takeAllAmid (steps.map (strays, ·))).2.bench.chip =
        (session.takeAll steps).2.bench.chip := by
  intro strays steps session
  have hsteps : ∀ step ∈ steps, step.Asks fun _ => True := by
    simp [steps, Step.Asks, Step.preparesOnly, bringUp]
  have hentries : ∀ entry ∈ steps.map (strays, ·), entry.2.Asks fun _ => True := by
    simpa using hsteps
  have hplain : (steps.map (strays, ·)).map Prod.snd = steps := rfl
  have hengine : session.subject = .engine (.fresh .standard) := rfl
  obtain ⟨hanswers, htrace, hchip, -⟩ := takeAllAmid_eq_takeAll hengine hentries
  rw [hplain] at hanswers htrace hchip
  exact ⟨hsteps, hanswers, htrace, hchip⟩

end Session

end NorFlash
