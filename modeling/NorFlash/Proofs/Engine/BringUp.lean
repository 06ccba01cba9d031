import NorFlash.Proofs.Bench.Invariants
import NorFlash.Proofs.Engine.Identification
import NorFlash.Proofs.Engine.QuadEntry
import NorFlash.Proofs.Engine.Recovery

/-!
# Bringing a device up on a bench

Bringing up looks for the device, with recovery in between if it does not answer, and then enters
quad mode. `ends_find` and `ends_bringUp` say how each of the two can end from any state of the chip
and the bus: a device that was brought up serves reads in quad protocol, and the engine knows both
the device and the width. On a responsive bench nothing fails but the lookup in the catalog.
-/

namespace NorFlash

namespace Engine

open QuadEntry

variable {bench middle after : Bench} {engine : Engine} {bus : BusState} {id : JedecId}

/-- Identifies the device, after waking and resetting it if it does not answer at first. -/
def find (engine : Engine) : Action Identity :=
  tryCatch engine.identify fun _ => do
    engine.recover
    engine.identify

/-- A device is acquired by finding it and bringing it into quad mode. -/
theorem acquireDevice_eq (engine : Engine) :
    engine.acquireDevice = (do
      let identity ← engine.find
      engine.enterQuad identity
      return identity) :=
  rfl

/-- What the search for a device did to the bus and the protocol, and what it sent for that:
nothing, or a whole recovery. -/
inductive Course (bench : Bench) (bus : BusState) (after : Bench) : Prop where
  | answered (hheard : bench.chip.Hears .single) (hmode : after.chip.mode = bench.chip.mode)
      (hbus : after.bus = some ⟨bus.width, false⟩) (hcommands : after.commands = bench.commands)
  | recovered (wake enable reset : Bool) (hbus : after.bus = some ⟨.single, false⟩)
      (h : Recovered bench wake enable reset (oneLine wakeSequence) after)

/-- The bench after the search for a device. -/
structure Searched (id : JedecId) (bench : Bench) (bus : BusState) (after : Bench) : Prop where
  course : Course bench bus after
  sound : Chip.Sound id after.chip
  responsive : bench.chip.Responsive → after.chip.Responsive
  idReads : after.idReads ≤ bench.idReads + 2

/-- The bench after a recovery that ended at a refused command. -/
structure Stopped (bench : Bench) (bus : BusState) (after : Bench) : Prop where
  bus_eq : after.bus = some ⟨bus.width, false⟩
  recovered : ∃ wake enable reset carried refused rest,
    wakeSequence = carried ++ refused :: rest ∧
      Recovered bench wake enable reset
        (oneLine carried ++ [(.instruct refused.code .single, true)]) after
  notResponsive : ¬bench.chip.Responsive
  idReads : after.idReads ≤ bench.idReads + 2

/-- A question asked before does not matter to recovery. -/
theorem Recovered.of_questioned {wake enable reset : Bool} {sent : List (Command × Bool)}
    (hstrict : bench.chip.strict = true) (hasked : bench.Questioned bus middle)
    (h : Recovered middle wake enable reset sent after) :
    Recovered bench wake enable reset sent after := by
  refine ⟨hasked.commands ▸ h.commands, fun hasleep => ?_⟩
  have hquad : middle.chip.quad = bench.chip.quad := congrArg Chip.Mode.quad hasked.chip.mode
  rw [h.quad ((congrArg Chip.Mode.asleep hasked.chip.mode).trans hasleep), hquad]
  -- The question could have ended an enabled reset, but a chip in quad protocol did not hear it.
  cases hprotocol : bench.chip.quad with
  | false => rfl
  | true =>
      have hunheard : ¬bench.chip.Hears .single := by
        simp [Chip.hears_single hstrict, hprotocol]
      rw [Chip.keepsQuad, hasked.latches hunheard]
      rfl

/-- Nor does one that is asked afterwards. -/
theorem Recovered.asked {wake enable reset : Bool} {sent : List (Command × Bool)} {last : BusState}
    {idReads : Nat} (h : Recovered bench wake enable reset sent middle)
    (hasked : middle.Asked last idReads after) :
    Recovered bench wake enable reset sent after :=
  ⟨hasked.commands.trans h.commands, fun hasleep =>
    (congrArg Chip.Mode.quad hasked.chip.mode).trans (h.quad hasleep)⟩

/-- Recovery does not ask for the identification. -/
theorem ends_recoverKeeping (hsound : Chip.Sound id bench.chip) (hbus : bench.bus = some bus) :
    engine.recover.run.Ends Bench.environment
      (fun _ after => Chip.Sound id after.chip ∧ after.idReads = bench.idReads) bench := by
  have horderly : engine.recover.Orderly (BusCall.Among wakeRepertoire) (fun _ => True) false :=
    engine.orderly_recover trivial
  have hfree : bench.Free fun _ => True := ⟨bus, hbus, trivial⟩
  exact (Program.Orderly.sound horderly hfree hsound).and
    (Program.Orderly.idReads horderly hfree (by decide))

/-- A device is found only awake on one line. On a responsive bench it is always found if the
catalog knows it, and otherwise that is what the search fails of. -/
theorem ends_find (hsound : Chip.Sound id bench.chip) (hbus : bench.bus = some bus) :
    engine.find.Ends Bench.environment
      (fun identity after => Searched id bench bus after ∧ after.chip.Hears .single ∧
        Catalog.Knows id identity)
      (fun fault after => Stopped bench bus after ∨ Searched id bench bus after ∧
        (bench.chip.Responsive → Catalog.identify? id.manufacturer id.device = none ∧
          fault = .unsupported id.manufacturer id.device)) bench := by
  unfold find
  rw [Action.ends_tryCatch]
  refine (ends_identify hsound hbus).mono ?_ ?_
  · rintro identity after ⟨hasked, hheard, hknows⟩
    have hreads := hasked.idReads
    exact ⟨⟨.answered hheard hasked.chip.mode hasked.bus hasked.commands, hasked.chip.sound hsound,
      hasked.chip.responsive, by omega⟩, hheard.of_mode hasked.chip.mode, hknows⟩
  · -- Whatever the first question failed of, the engine recovers and asks again.
    rintro _ first ⟨hfirst, -⟩
    have hfirstSound := hfirst.chip.sound hsound
    have hfirstReads := hfirst.idReads
    rw [Action.ends_bind]
    refine ((ends_recover hfirstSound.strict hfirst.bus).and_run
      (ends_recoverKeeping hfirstSound hfirst.bus)).mono ?_ ?_
    · rintro _ second ⟨⟨hbus, ⟨wake, enable, reset, hrecovered⟩, hresponsive⟩, hsecond, hreads⟩
      have hcourse := hrecovered.of_questioned hsound.strict hfirst
      have hheard : bench.chip.Responsive →
          second.chip.Hears .single ∧ second.chip.Responsive :=
        fun hbench => hresponsive (hfirst.chip.responsive hbench)
      have hsearched : ∀ after, second.Questioned ⟨.single, false⟩ after →
          Searched id bench bus after := by
        intro after hasked
        have hlastReads := hasked.idReads
        exact ⟨.recovered wake enable reset hasked.bus (hcourse.asked hasked.toAsked),
          hasked.chip.sound hsecond, fun hbench => hasked.chip.responsive (hheard hbench).2,
          by omega⟩
      refine (ends_identify hsecond hbus).mono ?_ ?_
      · exact fun identity after h =>
          ⟨hsearched after h.1, h.2.1.of_mode h.1.chip.mode, h.2.2⟩
      · exact fun fault after h =>
          .inr ⟨hsearched after h.1, fun hbench => h.2 (hheard hbench).2 (hheard hbench).1⟩
    · rintro _ after ⟨⟨hbus, hunresponsive, wake, enable, reset, carried, refused, rest, hsplit,
        hrecovered⟩, -, hreads⟩
      exact .inl ⟨hbus, ⟨wake, enable, reset, carried, refused, rest, hsplit,
        hrecovered.of_questioned hsound.strict hfirst⟩, mt hfirst.chip.responsive hunresponsive,
          by omega⟩

/-- The device was brought up: the engine knows it, and it serves reads on four lines. -/
structure BroughtUp (id : JedecId) (bench : Bench) (bus : BusState) (identity : Identity)
    (after : Bench) : Prop where
  knows : Catalog.Knows id identity
  bus_eq : after.bus = some ⟨.quad, false⟩
  sound : Chip.Sound id after.chip
  hears : after.chip.Hears .quad
  serves : after.chip.Serves 8
  entered : ∃ middle, Searched id bench bus middle ∧ middle.chip.Hears .single ∧
    middle.Leads after ∧ middle.Adds quadRepertoire after
  idReads : after.idReads ≤ bench.idReads + 2

/-- Bringing the device up failed, in the search or after it. -/
inductive Abandoned (id : JedecId) (bench : Bench) (bus : BusState) (fault : Fault)
    (after : Bench) : Prop where
  | stopped (h : Stopped bench bus after)
  | searching (h : Searched id bench bus after)
      (hfault : bench.chip.Responsive → Catalog.identify? id.manufacturer id.device = none ∧
        fault = .unsupported id.manufacturer id.device)
  | entering (middle : Bench) (last : BusState) (h : Searched id bench bus middle)
      (hlast : middle.bus = some last) (hheard : middle.chip.Hears .single)
      (hbus : after.bus = some ⟨last.width, false⟩) (hhalted : Halted middle after)
      (hsent : middle.Adds quadRepertoire after)
      (hresponsive : ¬bench.chip.Responsive) (hreads : after.idReads ≤ bench.idReads + 2)

/-- The identification is read twice at most before a device is given up. -/
theorem Abandoned.idReads {fault : Fault} (h : Abandoned id bench bus fault after) :
    after.idReads ≤ bench.idReads + 2 := by
  cases h with
  | stopped h => exact h.idReads
  | searching h _ => exact h.idReads
  | entering middle last _ _ _ _ _ _ _ hreads => exact hreads

/-- The bus is free again at the end of a course. -/
theorem Course.bus_eq (h : Course bench bus after) : ∃ last, after.bus = some last := by
  cases h with
  | answered _ _ hbus _ => exact ⟨_, hbus⟩
  | recovered _ _ _ hbus _ => exact ⟨_, hbus⟩

/-- Acquiring a device brings it up, or gives it up with the chip as it was left. -/
theorem ends_acquireDevice (hsound : Chip.Sound id bench.chip) (hbus : bench.bus = some bus) :
    engine.acquireDevice.Ends Bench.environment (BroughtUp id bench bus)
      (Abandoned id bench bus) bench := by
  rw [acquireDevice_eq, Action.ends_bind]
  refine (ends_find hsound hbus).mono ?_ ?_
  · rintro identity middle ⟨hsearched, hheard, hknows⟩
    obtain ⟨last, hlast⟩ := hsearched.course.bus_eq
    have hplain := (Chip.hears_single hsearched.sound.strict).mp hheard
    have hfree : middle.Free fun _ => True := ⟨last, hlast, trivial⟩
    have horderly : (engine.enterQuad identity).Orderly (BusCall.Among quadRepertoire)
        (fun _ => True) false := engine.orderly_enterQuad (fun _ => trivial) identity
    have hrun := (Program.Orderly.sound horderly hfree hsearched.sound).and
      ((Program.Orderly.idReads horderly hfree (by decide)).and
        (Program.Orderly.sends horderly hfree))
    have hmost := hsearched.idReads
    rw [Action.ends_bind]
    refine ((ends_enterQuad hsearched.sound hknows hplain.1 hplain.2 hlast).and_run hrun).mono
      ?_ ?_
    · rintro _ after ⟨⟨hafter, hleads, hhears, hserves⟩, hsound, hkept, hadds⟩
      have hfew : after.idReads ≤ bench.idReads + 2 := by omega
      exact ⟨hknows, hafter, hsound, hhears, hserves,
        ⟨middle, hsearched, hheard, hleads, hadds⟩, hfew⟩
    · rintro fault after ⟨⟨hafter, hhalted⟩, -, hkept, hadds⟩
      have hunresponsive : ¬bench.chip.Responsive := by
        obtain ⟨command, hstops, -⟩ := hhalted
        exact mt hsearched.responsive hstops.notResponsive
      exact .entering middle last hsearched hlast hheard hafter hhalted hadds hunresponsive
        (by omega)
  · rintro fault after (hstopped | ⟨hsearched, hfault⟩)
    · exact .stopped hstopped
    · exact .searching hsearched hfault

/-- Bringing up leaves the engine with the device and the chip in quad protocol, or without a
device. -/
theorem ends_bringUp (hsound : Chip.Sound id bench.chip) (hbus : bench.bus = some bus) :
    engine.bringUp.Ends Bench.environment
      (fun ended after =>
        (∃ identity, ended = (.ok (), { engine with identity := some identity }) ∧
          BroughtUp id bench bus identity after) ∨
        ∃ fault, ended = (.error fault, engine.forget) ∧ Abandoned id bench bus fault after)
      bench := by
  refine (Program.ends_bind ..).mpr (Program.Ends.mono (ends_acquireDevice hsound hbus) ?_)
  rintro (fault | identity) after hafter
  · exact .inr ⟨fault, rfl, hafter⟩
  · exact .inl ⟨identity, rfl, hafter⟩

end Engine

end NorFlash
