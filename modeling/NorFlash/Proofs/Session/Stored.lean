import NorFlash.Proofs.Engine.Latching
import NorFlash.Proofs.Session.Tracking

/-!
# What stays stored in a session

Quad enable is meant to be set in the volatile copy of status register 2 only, so what is stored
should outlast every session. `keepsStored_iff` says exactly when it does: as long as no request to
bring the device up finds write enable set and writes the register then. Only a program or an erase
leaves write enable set, and only if a command of it is refused.
-/

namespace NorFlash

namespace Bench.Alike

variable {bench after : Bench} {id : JedecId} {stored : Status2}

/-- Benches that are alike store the same. -/
theorem stores (h : bench.Alike after) (hstores : bench.Stores id stored) :
    after.Stores id stored := by
  have hmode := h.mode
  obtain ⟨plan, completion, hchip⟩ := h.chip
  obtain ⟨⟨bus, hbus, -⟩, ⟨hstrict, hid, hvendor, hbits, hagrees⟩, hmirrors⟩ := hstores
  refine ⟨⟨bus, h.bus.trans hbus, trivial⟩, ?_, hmirrors.of_mode hmode⟩
  rw [hchip]
  exact ⟨hstrict, hid, hvendor, hbits, hagrees⟩

/-- Benches that are alike have the same write enable latch. -/
theorem writeEnable (h : bench.Alike after) :
    after.chip.latches.writeEnable = bench.chip.latches.writeEnable := by
  obtain ⟨plan, completion, hchip⟩ := h.chip
  rw [hchip]

end Bench.Alike

namespace Session

variable {session : Session} {id : JedecId} {timeouts : Timeouts} {stored : Status2}
  {enabled : Bool} {step : Step} {steps : List Step}

/-- A chip that stores this value in status register 2 is on the bench, with an engine. -/
def Stores (id : JedecId) (stored : Status2) (session : Session) : Prop :=
  session.OnEngine fun _ bench => bench.Stores id stored

/-- The step is to program or erase, and it fails of a command that is refused. -/
def Refuses (session : Session) (step : Step) : Prop :=
  ∃ request, step = .request (.engine request) ∧ request.altersMemory = true ∧
    session.Answers (.engine request) fun outcome _ => outcome.result = .error (.bus .injected)

/-- After each of the steps, what is stored in status register 2 is what was stored before them. -/
def KeepsStored (session : Session) (steps : List Step) : Prop :=
  ∀ before rest, steps = before ++ rest →
    (session.takeAll before).2.bench.chip.registers.storedStatus2 =
      session.bench.chip.registers.storedStatus2

/-- What a session stores is what its chip stores. -/
theorem Stores.stored_eq (h : session.Stores id stored) :
    session.bench.chip.registers.storedStatus2 = stored := by
  obtain ⟨engine, -, hstores⟩ := h
  exact hstores.mirrors.stored_eq

/-- What is kept over all the steps is kept over all but the first. -/
theorem KeepsStored.tail (h : session.KeepsStored (step :: steps)) :
    (session.take step).2.KeepsStored steps := by
  intro before rest hsplit
  have hstep := h [step] steps rfl
  exact (h (step :: before) rest (congrArg (step :: ·) hsplit)).trans hstep.symm

section Steps

variable (hvendor : Vendor.ofManufacturer id.manufacturer = .winbond)

include hvendor

/-- Bringing the device up keeps what is stored, unless the record says otherwise. -/
theorem Stores.bringUp (h : session.Stores id stored) :
    session.bench.Accounts stored (session.take bringUp).2.bench ∧
      (¬session.bench.Imprints (session.take bringUp).2.bench →
        (session.take bringUp).2.Stores id stored) := by
  obtain ⟨engine, hengine, hstores⟩ := h
  have hquiet := (alike_quietBench session).stores hstores
  obtain ⟨bus, hbus, -⟩ := hquiet.free
  have horderly := engine.orderly_serve .bringUp
  have haccounts : (engine.serve .bringUp).Ends Bench.environment
      (fun _ after => session.quietBench.Accounts stored after) session.quietBench :=
    (Program.ends_bind ..).mpr
      ((Engine.ends_bringUp_accounts hquiet.sound hvendor hbus hquiet.mirrors).mono fun _ _ h => h)
  have hfree := horderly.free hquiet.free
  have hsound := horderly.sound hquiet.free hquiet.sound
  rw [Session.bringUp, take_engine hengine]
  refine ⟨⟨haccounts.imprinted, haccounts.kept, haccounts.unset⟩, fun hkept => ?_⟩
  exact ⟨_, rfl, hfree, hsound, haccounts.kept hkept⟩

/-- So does every step, unless it brings the device up and the record says otherwise. -/
theorem Stores.take (hstep : step.Asks fun _ => True) (h : session.Stores id stored)
    (hkept : step = Session.bringUp → ¬session.bench.Imprints (session.take step).2.bench) :
    (session.take step).2.Stores id stored := by
  obtain ⟨engine, hengine, hstores⟩ := h
  obtain ⟨-, hbench, timeouts, hretimed⟩ | ⟨request, rfl, -⟩ := take_asks hengine hstep
  · exact ⟨_, hretimed, hbench.stores hstores⟩
  · by_cases hup : request = .bringUp
    · subst hup
      exact (Stores.bringUp hvendor ⟨engine, hengine, hstores⟩).2 (hkept rfl)
    · rw [take_engine hengine]
      exact ⟨_, rfl, Engine.ends_serve_stores ((alike_quietBench session).stores hstores) hup⟩

/-- What is stored is kept over steps, if each time the device is brought up keeps it. -/
theorem Stores.takeAll (hsteps : ∀ step ∈ steps, step.Asks fun _ => True)
    (h : session.Stores id stored)
    (hkept : ∀ before rest, steps = before ++ Session.bringUp :: rest →
      let session := (session.takeAll before).2
      ¬session.bench.Imprints (session.take Session.bringUp).2.bench) :
    (session.takeAll steps).2.Stores id stored := by
  induction steps generalizing session with
  | nil => exact h
  | cons step rest ih =>
      have hstep := hsteps step List.mem_cons_self
      refine ih (fun other hother => hsteps other (List.mem_cons_of_mem step hother)) ?_
        fun before later hsplit => ?_
      · refine h.take hvendor hstep fun hup => ?_
        subst hup
        exact hkept [] rest rfl
      · exact hkept (step :: before) later (congrArg (step :: ·) hsplit)

/-- As long as what is stored is kept, no request to bring the device up has written it. -/
theorem Stores.not_imprints (hsteps : ∀ step ∈ steps, step.Asks fun _ => True)
    (h : session.Stores id stored) (hkeeps : session.KeepsStored steps)
    (before rest : List Step) (hsplit : steps = before ++ Session.bringUp :: rest) :
    let session := (session.takeAll before).2
    ¬session.bench.Imprints (session.take Session.bringUp).2.bench := by
  have hfirst {session : Session} {rest : List Step} (h : session.Stores id stored)
      (hkeeps : session.KeepsStored (Session.bringUp :: rest)) :
      ¬session.bench.Imprints (session.take Session.bringUp).2.bench := fun himprints =>
    (h.bringUp hvendor).1.imprinted himprints
      ((hkeeps [Session.bringUp] rest rfl).trans h.stored_eq)
  induction before generalizing session steps with
  | nil =>
      subst hsplit
      exact hfirst h hkeeps
  | cons step before ih =>
      subst hsplit
      have hstep := hsteps step List.mem_cons_self
      have htaken : (session.take step).2.Stores id stored := by
        refine h.take hvendor hstep fun hup => ?_
        subst hup
        exact hfirst h hkeeps
      exact ih (fun other hother => hsteps other (List.mem_cons_of_mem step hother)) htaken
        hkeeps.tail rfl

/-- Only a step to program or erase sets write enable, and it fails then of a refused command. -/
theorem Stores.writeEnable_take (hstep : step.Asks fun _ => True) (h : session.Stores id stored)
    (hunset : session.bench.chip.latches.writeEnable = false) (hrefuses : ¬session.Refuses step) :
    (session.take step).2.bench.chip.latches.writeEnable = false := by
  obtain ⟨engine, hengine, hstores⟩ := h
  obtain ⟨-, hbench, -⟩ | ⟨request, rfl, -⟩ := take_asks hengine hstep
  · exact hbench.writeEnable.trans hunset
  · have hquiet := (alike_quietBench session).stores hstores
    have hended := @Engine.ends_serve_unset engine session.quietBench id stored request hquiet
      hvendor hunset
    rw [take_engine hengine]
    refine hended fun hrefused => hrefuses ⟨request, rfl, hrefused.1, ?_⟩
    unfold Answers
    rw [take_engine hengine]
    exact ⟨_, _, rfl, hrefused.2⟩

/-- As long as no program and no erase is refused, write enable is clear after every step, so that
nothing is stored. -/
theorem Stores.takeAll_of_not_refuses (hsteps : ∀ step ∈ steps, step.Asks fun _ => True)
    (h : session.Stores id stored) (hunset : session.bench.chip.latches.writeEnable = false)
    (hrefuses : ∀ before step rest, steps = before ++ step :: rest →
      ¬(session.takeAll before).2.Refuses step) :
    (session.takeAll steps).2.Stores id stored := by
  induction steps generalizing session with
  | nil => exact h
  | cons step rest ih =>
      have hstep := hsteps step List.mem_cons_self
      have himprints : ¬session.bench.Imprints (session.take step).2.bench :=
        fun himprints => by simp [himprints.1] at hunset
      refine ih (fun other hother => hsteps other (List.mem_cons_of_mem step hother))
        (h.take hvendor hstep fun _ => himprints)
        (h.writeEnable_take hvendor hstep hunset (hrefuses [] step rest rfl)) ?_
      exact fun before other later hsplit =>
        hrefuses (step :: before) other later (congrArg (step :: ·) hsplit)

end Steps

/-- A new engine on a new chip that has quad enable stored, or not. -/
def startStoring (id : JedecId) (timeouts : Timeouts) (enabled : Bool) : Session :=
  ((start id timeouts false).take (.setQuadEnable enabled)).2

/-- A session stores at its start what its chip was given. -/
theorem stores_startStoring (id : JedecId) (timeouts : Timeouts) (enabled : Bool) :
    (startStoring id timeouts enabled).Stores id
      (startStoring id timeouts enabled).bench.chip.registers.storedStatus2 :=
  ⟨.fresh timeouts, rfl, ⟨.fresh, rfl, trivial⟩,
    ⟨rfl, rfl, rfl, rfl, (Chip.sound_fresh id).agrees⟩, rfl, fun h => h⟩

/-- What a Winbond chip has stored in status register 2 is kept exactly if no request to bring the
device up finds write enable set and writes the register then. So it is kept if no program and no
erase fails of a command that is refused. -/
theorem keepsStored_iff (hvendor : Vendor.ofManufacturer id.manufacturer = .winbond)
    (hsteps : ∀ step ∈ steps, step.Asks fun _ => True) :
    let first := startStoring id timeouts enabled
    (first.KeepsStored steps ↔ ∀ before rest, steps = before ++ bringUp :: rest →
      let session := (first.takeAll before).2
      ¬session.bench.Imprints (session.take bringUp).2.bench) ∧
    ((∀ before step rest, steps = before ++ step :: rest →
      ¬(first.takeAll before).2.Refuses step) → first.KeepsStored steps) := by
  intro first
  have hfirst : first.Stores id first.bench.chip.registers.storedStatus2 :=
    stores_startStoring id timeouts enabled
  have hbefore : ∀ before rest, steps = before ++ rest →
      ∀ step ∈ before, step.Asks fun _ => True :=
    fun before rest hsplit step hstep => hsteps step (hsplit ▸ List.mem_append_left _ hstep)
  refine ⟨⟨hfirst.not_imprints hvendor hsteps, fun hkept before rest hsplit => ?_⟩,
    fun hrefuses before rest hsplit => ?_⟩
  · refine (hfirst.takeAll hvendor (hbefore before rest hsplit) ?_).stored_eq
    exact fun earlier later hearlier => hkept earlier (later ++ rest) (by simp [hsplit, hearlier])
  · refine (hfirst.takeAll_of_not_refuses hvendor (hbefore before rest hsplit) rfl ?_).stored_eq
    exact fun earlier step later hearlier =>
      hrefuses earlier step (later ++ rest) (by simp [hsplit, hearlier])

/-- A program that is refused leaves write enable set. The chip is reset, and when it is brought up
again, quad enable is stored. -/
theorem keepsStored_iff_refused_program :
    let steps := [bringUp, .request (.engine (.operation .reset)), .failing 1 1,
      .request (.engine (.operation (.write 0 [0]))), bringUp]
    Vendor.ofManufacturer 0xEF = .winbond ∧ (∀ step ∈ steps, step.Asks fun _ => True) ∧
      ¬(startStoring ⟨0xEF, 0x4015⟩ .standard false).KeepsStored steps := by
  intro steps
  have hvendor : Vendor.ofManufacturer 0xEF = .winbond := by decide
  have hsteps : ∀ step ∈ steps, step.Asks fun _ => True := by
    simp [steps, Step.Asks, Step.preparesOnly, bringUp]
  refine ⟨hvendor, hsteps, fun hkeeps => ?_⟩
  have himprints := (@keepsStored_iff ⟨0xEF, 0x4015⟩ .standard false steps hvendor
    hsteps).1.mp hkeeps (steps.take 4) [] rfl
  exact himprints (by decide +kernel)

end Session

end NorFlash
