import NorFlash.Proofs.Engine.BringUp
import NorFlash.Proofs.Engine.Service

/-!
# What requests make of a chip that never fails

On a responsive bench the requests alone decide what becomes of the chip. `Posture` is what matters
of chip and bus, `Posture.after` what a request makes of it, and `ends_serve_posed` says that every
request does just that. The width gets lost in one way only: a chip that is asleep in quad protocol
ignores a reset, after which the engine takes it to listen on one line.
-/

namespace NorFlash

/-- The protocol the chip is in, whether it is asleep, and whether the engine knows its width. -/
inductive Posture where
  /-- The engine has recorded the width the chip listens on. -/
  | known (quad asleep : Bool)
  /-- The chip is asleep in quad protocol, and the engine takes it to listen on one line. -/
  | lost
  deriving DecidableEq

namespace Posture

/-- The chip is in quad protocol. -/
def quad : Posture → Bool
  | known quad _ => quad
  | lost => true

/-- The chip is asleep. -/
def asleep : Posture → Bool
  | known _ asleep => asleep
  | lost => true

/-- The width that the engine has recorded. -/
def width : Posture → BusWidth
  | known true _ => .quad
  | known false _ => .single
  | lost => .single

/-- What a request makes of a posture, if nothing fails. -/
def after (posture : Posture) (request : EngineRequest) : Posture :=
  match request, posture with
  | .bringUp, _ => known true false
  | .shutDown, known _ _ => known false false
  | .operation (.sleep enter), known quad _ => known quad enter
  | .operation .reset, known _ false => known false false
  | .operation .reset, known true true => lost
  | _, posture => posture

/-- Putting to sleep and waking keep the width of the bus. -/
theorem width_after_sleep (posture : Posture) (enter : Bool) :
    (posture.after (.operation (.sleep enter))).width = posture.width := by
  cases posture with
  | known quad asleep => cases quad <;> rfl
  | lost => rfl

/-- A reset sets the bus to one line. -/
theorem width_after_reset (posture : Posture) :
    (posture.after (.operation .reset)).width = .single := by
  cases posture with
  | known quad asleep => cases quad <;> cases asleep <;> rfl
  | lost => rfl

/-- Shutting down is waking the chip and resetting it. -/
theorem after_shutDown (posture : Posture) :
    posture.after .shutDown =
      (posture.after (.operation (.sleep false))).after (.operation .reset) := by
  cases posture <;> rfl

/-- No other operation makes a difference. -/
theorem after_operation (posture : Posture) {operation : Operation} (hreset : operation ≠ .reset)
    (hsleep : ∀ enter, operation ≠ .sleep enter) :
    posture.after (.operation operation) = posture := by
  cases operation with
  | reset => exact absurd rfl hreset
  | sleep enter => exact absurd rfl (hsleep enter)
  | _ => cases posture <;> rfl

/-- What a run of requests makes of a new chip. -/
def ofRun (requests : List EngineRequest) : Posture :=
  requests.foldl after (known false false)

end Posture

/-- The instruction that puts a chip to sleep or wakes it. -/
def Engine.sleepCode (enter : Bool) : UInt8 :=
  (if enter then Opcode.powerDown else Opcode.releasePowerDown).code

namespace Chip

variable {chip other : Chip} {posture : Posture} {width : BusWidth}

/-- The chip is in the posture, and its registers are as after a reset unless it is in quad
protocol. -/
structure Poses (posture : Posture) (chip : Chip) : Prop where
  quad : chip.quad = posture.quad
  asleep : chip.asleep = posture.asleep
  registers : posture.quad = false →
    chip.registers = .afterReset chip.registers.storedStatus2

/-- A posture depends on nothing of the chip but its mode. -/
theorem Poses.of_mode (h : chip.Poses posture) (hmode : other.mode = chip.mode) :
    other.Poses posture := by
  have hregisters : other.registers = chip.registers := congrArg Mode.registers hmode
  refine ⟨(congrArg Mode.quad hmode).trans h.quad, (congrArg Mode.asleep hmode).trans h.asleep, ?_⟩
  rw [hregisters]
  exact h.registers

/-- A command that the chip does not hear leaves its mode alone, unless it is to wake it. -/
theorem mode_sent_of_not_hears {code : UInt8} (h : ¬chip.Hears width)
    (hcode : code ≠ Opcode.releasePowerDown.code) (refused : Bool) :
    (chip.sent (.instruct code width) refused).mode = chip.mode := by
  cases refused with
  | true => rfl
  | false =>
      show (chip.accept (.instruct code width)).2.mode = chip.mode
      cases hlisten : chip.listens width with
      | false =>
          rw [accept_of_not_listens hlisten]
          rfl
      | true =>
          rw [accept_of_asleep (asleep_of_not_hears h hlisten) hcode]
          rfl

/-- A chip told to sleep on its own width is asleep. -/
theorem sent_sleep (hlisten : chip.listens width = true) :
    (chip.sent (.instruct Opcode.powerDown.code width) false).mode =
      { chip.mode with asleep := true } := by
  cases hasleep : chip.asleep with
  | true =>
      have hunheard : ¬chip.Hears width := fun h => by simp [h.1] at hasleep
      rw [mode_sent_of_not_hears hunheard (by decide)]
      simp [mode, hasleep]
  | false =>
      have hdecode := Instruction.decode?_of_shared
        (show Instruction.shared.lookup Opcode.powerDown.code = some .sleep by decide) chip.vendor
      rw [sent_of_hears ⟨hasleep, hlisten⟩ hdecode]
      rfl

/-- An awake chip told to reset on its own width does so, and a sleeping one ignores that. -/
theorem sent_restart (hstrict : chip.strict = true) (hwidth : width = chip.width) :
    ((chip.sent (.instruct Opcode.enableReset.code width) false).sent
        (.instruct Opcode.reset.code width) false).mode =
      if chip.asleep then chip.mode else chip.mode.reset := by
  cases hasleep : chip.asleep with
  | true =>
      have hunheard : ∀ other : Chip, other.mode = chip.mode → ¬other.Hears width := by
        intro other hmode h
        have hother : other.asleep = chip.asleep := congrArg Mode.asleep hmode
        simp [h.1, hasleep] at hother
      have hfirst := mode_sent_of_not_hears (hunheard chip rfl)
        (show Opcode.enableReset.code ≠ Opcode.releasePowerDown.code by decide) false
      exact (mode_sent_of_not_hears (hunheard _ hfirst) (by decide) false).trans hfirst
  | false =>
      have hhears := (hears_iff hstrict width).mpr ⟨hasleep, hwidth⟩
      obtain ⟨hmode, hlatch⟩ := sent_enableReset false hhears
      have hreset := sent_reset false (hhears.of_mode hmode)
      rw [hlatch] at hreset
      exact hreset.trans (congrArg Mode.reset hmode)

/-- A chip that is known listens on the width recorded. -/
theorem Poses.width_eq {quad asleep : Bool} (h : chip.Poses (.known quad asleep)) :
    (Posture.known quad asleep).width = chip.width := by
  have hquad : chip.quad = quad := h.quad
  rw [Chip.width, hquad]
  cases quad <;> rfl

/-- A chip that is lost listens on four lines. -/
theorem Poses.width_ne (h : chip.Poses .lost) : Posture.lost.width ≠ chip.width := by
  have hquad : chip.quad = true := h.quad
  rw [Chip.width, hquad]
  decide

/-- What a command to sleep or to wake does. -/
theorem Poses.slept (hstrict : chip.strict = true) (h : chip.Poses posture) (enter : Bool) :
    (chip.sent (.instruct (Engine.sleepCode enter) posture.width) false).Poses
      (posture.after (.operation (.sleep enter))) := by
  cases posture with
  | known quad asleep =>
      have hlisten : chip.listens (Posture.known quad asleep).width = true := by
        simp [listens, h.width_eq]
      have hmode : (chip.sent (.instruct (Engine.sleepCode enter)
          (Posture.known quad asleep).width) false).mode = { chip.mode with asleep := enter } := by
        cases enter with
        | true => exact sent_sleep hlisten
        | false => exact (sent_wake false hlisten (.inr rfl)).1
      have hnext : Poses (.known quad enter) { chip with asleep := enter } :=
        ⟨h.quad, rfl, h.registers⟩
      exact hnext.of_mode hmode
  | lost => exact h.of_mode (mode_sent_of_ne hstrict h.width_ne)

/-- What the commands of a reset do. -/
theorem Poses.restarted (hstrict : chip.strict = true) (h : chip.Poses posture) :
    ((chip.sent (.instruct Opcode.enableReset.code posture.width) false).sent
      (.instruct Opcode.reset.code posture.width) false).Poses
        (posture.after (.operation .reset)) := by
  cases posture with
  | known quad asleep =>
      have hmode := sent_restart hstrict h.width_eq
      have hasleep : chip.asleep = asleep := h.asleep
      rw [hasleep] at hmode
      cases asleep with
      | true =>
          refine Poses.of_mode ?_ hmode
          cases quad with
          | true => exact ⟨h.quad, h.asleep, fun hnever => absurd hnever (by decide)⟩
          | false => exact h
      | false =>
          have hreset : chip.reset.Poses (.known false false) := ⟨rfl, h.asleep, fun _ => rfl⟩
          exact hreset.of_mode hmode
  | lost =>
      have hfirst := @mode_sent_of_ne chip (.instruct Opcode.enableReset.code Posture.lost.width)
        false hstrict h.width_ne
      have hother : (chip.sent (.instruct Opcode.enableReset.code Posture.lost.width)
          false).strict = true := (congrArg Mode.strict hfirst).trans hstrict
      have hposes := h.of_mode hfirst
      exact hposes.of_mode (mode_sent_of_ne hother hposes.width_ne)

end Chip

namespace Bench

/-- Between two requests of a run without failures: chip and bus are in the posture. -/
structure Posed (id : JedecId) (posture : Posture) (bench : Bench) : Prop where
  free : bench.Free (· = posture.width)
  sound : Chip.Sound id bench.chip
  responsive : bench.chip.Responsive
  poses : bench.chip.Poses posture

/-- A new chip is awake and listens on one line, as the engine takes it to. -/
theorem posed_fresh (id : JedecId) :
    (Bench.ofChip (Chip.fresh id)).attach.Posed id (.known false false) :=
  ⟨⟨.fresh, rfl, rfl⟩, Chip.sound_fresh id, ⟨rfl, rfl⟩, ⟨rfl, rfl, fun _ => rfl⟩⟩

end Bench

namespace Engine

variable {bench after : Bench} {engine : Engine} {bus : BusState} {id : JedecId}
  {posture : Posture} {request : EngineRequest}

/-- On a responsive bench the chip is sent to sleep or woken. -/
theorem ends_sleep_sent (hbus : bench.bus = some bus) (enter : Bool) :
    (engine.sleep enter).Ends Bench.environment
      (fun _ after => after.bus = some ⟨bus.width, false⟩ ∧
        ∃ start, Chip.Idle bench.chip start ∧
          after.chip = start.sent (.instruct (sleepCode enter) bus.width) false)
      (fun _ _ => ¬bench.chip.Responsive) bench := by
  have hcode : Instruction.hasOnSome (· == .readQuad) (sleepCode enter) = false := by
    cases enter <;> decide
  refine ends_withBus hbus fun start htaken => ?_
  dsimp only
  rw [BusAction.ends_bind, BusAction.ends_width]
  refine BusAction.ends_sent hcode (fun after hafter => ?_) fun after hafter => ?_
  · exact ⟨rfl, start.chip, htaken.chip, hafter.chip_of_accepted⟩
  · exact mt htaken.chip.responsive hafter.not_responsive

/-- On a responsive bench a reset is sent, and the engine takes the chip to listen on one line. -/
theorem ends_reset_sent (hbus : bench.bus = some bus) :
    engine.reset.Ends Bench.environment
      (fun _ after => after.bus = some ⟨.single, false⟩ ∧
        ∃ start, Chip.Idle bench.chip start ∧
          after.chip = (start.sent (.instruct Opcode.enableReset.code bus.width) false).sent
            (.instruct Opcode.reset.code bus.width) false)
      (fun _ _ => ¬bench.chip.Responsive) bench := by
  have hcode := not_readQuad_of_wakeRepertoire
  refine ends_withBus hbus fun start htaken => ?_
  rw [BusAction.ends_bind, BusAction.ends_width, BusAction.ends_bind]
  refine BusAction.ends_sent (hcode _ (by decide)) (fun middle hmiddle => ?_) fun after hafter => ?_
  · rw [BusAction.ends_bind]
    refine BusAction.ends_sent (hcode _ (by decide)) (fun after hafter => ?_) fun after hafter => ?_
    · refine ⟨rfl, start.chip, htaken.chip, hafter.chip_of_accepted.trans ?_⟩
      exact congrArg (fun chip => Chip.sent chip _ false) hmiddle.chip_of_accepted
    · exact mt (fun h => hmiddle.responsive (htaken.chip.responsive h)) hafter.not_responsive
  · exact mt htaken.chip.responsive hafter.not_responsive

section Posed

variable (h : bench.Posed id posture)

include h

/-- An action that sends only the instructions listed keeps the chip sound and responsive, so that
it only has to be said what it makes of the posture. -/
theorem ends_posed {α : Type} {action : Action α} {codes : List UInt8} {next : Posture}
    (horderly : action.Orderly (BusCall.Among codes) (fun _ => True) false)
    (hends : action.Ends Bench.environment
      (fun _ after => after.Free (· = next.width) ∧ after.chip.Poses next)
      (fun _ _ => ¬bench.chip.Responsive) bench) :
    action.Ends Bench.environment (fun _ after => after.Posed id next)
      (fun _ _ => False) bench := by
  obtain ⟨bus, hbus, -⟩ := h.free
  have hfree : bench.Free fun _ => True := ⟨bus, hbus, trivial⟩
  refine (hends.and_run ((Program.Orderly.sound horderly hfree h.sound).and
    (Program.Orderly.sameBuild horderly hfree))).mono ?_ ?_
  · intro _ after hafter
    obtain ⟨⟨hafter, hposes⟩, hsound, hbuild⟩ := hafter
    exact ⟨hafter, hsound, hbuild.responsive h.responsive, hposes⟩
  · exact fun fault after hfailed => hfailed.1 h.responsive

/-- Putting to sleep and waking take the posture one step on. -/
theorem ends_sleep_posed (enter : Bool) :
    (engine.sleep enter).Ends Bench.environment
      (fun _ after => after.Posed id (posture.after (.operation (.sleep enter))))
      (fun _ _ => False) bench := by
  obtain ⟨bus, hbus, hwidth⟩ := h.free
  refine ends_posed h (engine.orderly_sleep enter)
    ((ends_sleep_sent hbus enter).mono ?_ fun _ _ hfailed => hfailed)
  intro _ after hsent
  obtain ⟨hafter, start, hidle, hchip⟩ := hsent
  refine ⟨⟨_, hafter, hwidth.trans (posture.width_after_sleep enter).symm⟩, ?_⟩
  rw [hchip, hwidth]
  exact (h.poses.of_mode hidle.mode).slept (hidle.sound h.sound).strict enter

/-- A reset takes the posture one step on. -/
theorem ends_reset_posed :
    engine.reset.Ends Bench.environment
      (fun _ after => after.Posed id (posture.after (.operation .reset)))
      (fun _ _ => False) bench := by
  obtain ⟨bus, hbus, hwidth⟩ := h.free
  refine ends_posed h (engine.orderly_reset trivial)
    ((ends_reset_sent hbus).mono ?_ fun _ _ hfailed => hfailed)
  intro _ after hsent
  obtain ⟨hafter, start, hidle, hchip⟩ := hsent
  refine ⟨⟨_, hafter, posture.width_after_reset.symm⟩, ?_⟩
  rw [hchip, hwidth]
  exact (h.poses.of_mode hidle.mode).restarted (hidle.sound h.sound).strict

/-- Shutting down succeeds, and the engine forgets its device, whether the chip heard it or not. -/
theorem ends_shutDown_posed :
    engine.shutDown.Ends Bench.environment
      (fun ended after => ended = (.ok (), engine.forget) ∧
        after.Posed id (posture.after .shutDown)) bench := by
  unfold shutDown
  refine (Program.ends_bind ..).mpr ((Program.ends_bind ..).mpr
    (Program.Ends.mono (ends_sleep_posed h false) ?_))
  intro woken middle hmiddle
  cases woken with
  | error fault => exact False.elim hmiddle
  | ok _ =>
      refine (Program.ends_pure ..).mpr ((Program.ends_bind ..).mpr
        (Program.Ends.mono (ends_reset_posed hmiddle) ?_))
      intro restarted after hafter
      cases restarted with
      | error fault => exact False.elim hafter
      | ok _ => exact ⟨rfl, posture.after_shutDown ▸ hafter⟩

/-- A device that the catalog knows is brought up from any posture. -/
theorem ends_bringUp_posed {identity : Identity} (hknows : Catalog.Knows id identity) :
    engine.bringUp.Ends Bench.environment
      (fun _ after => after.Posed id (posture.after .bringUp)) bench := by
  obtain ⟨bus, hbus, -⟩ := h.free
  have hfree : bench.Free fun _ => True := ⟨bus, hbus, trivial⟩
  have hbuild : engine.bringUp.Ends Bench.environment
      (fun _ after => Chip.SameBuild bench.chip after.chip) bench :=
    (engine.orderly_bringUp fun _ => trivial).sameBuild hfree
  refine ((ends_bringUp h.sound hbus).and hbuild).mono ?_
  intro ended after hended
  obtain ⟨⟨found, -, hup⟩ | ⟨fault, -, hdown⟩, hbuild⟩ := hended
  · obtain ⟨hasleep, hquad⟩ := (Chip.hears_quad hup.sound.strict).mp hup.hears
    exact ⟨⟨_, hup.bus_eq, rfl⟩, hup.sound, hbuild.responsive h.responsive,
      ⟨hquad, hasleep, fun hnever => absurd hnever (by simp [Posture.after, Posture.quad])⟩⟩
  · exfalso
    cases hdown with
    | stopped hstopped => exact hstopped.notResponsive h.responsive
    | searching _ hfault =>
        have hunknown := (hfault h.responsive).1
        unfold Catalog.Knows at hknows
        rw [hunknown] at hknows
        simp at hknows
    | entering _ _ _ _ _ _ _ _ hunresponsive _ => exact hunresponsive h.responsive

/-- An operation that neither resets the chip nor is about sleep changes nothing of the posture, not
even for a chip that does not hear it. -/
theorem ends_perform_posed {operation : Operation} (hreset : operation ≠ .reset)
    (hsleep : ∀ enter, operation ≠ .sleep enter) :
    (engine.perform operation).Ends Bench.environment
      (fun _ after => after.Posed id posture) bench := by
  have horderly : (engine.perform operation).Orderly (BusCall.Among operation.repertoire)
      (· = posture.width) false (fun _ => True) false :=
    engine.orderly_perform operation fun hnot => absurd hnot hreset
  refine ((horderly.free h.free).and ((horderly.sound h.free h.sound).and
    ((horderly.sameBuild h.free).and (horderly.mode_of_not_wake h.free
      (Operation.keepsMode hreset (hsleep true)) (Operation.not_wakes (hsleep false)))))).mono ?_
  intro outcome after hended
  obtain ⟨hafter, hsound, hbuild, hmode⟩ := hended
  exact ⟨hafter, hsound, hbuild.responsive h.responsive, h.poses.of_mode hmode⟩

/-- Every request makes of the posture what `Posture.after` says. -/
theorem ends_serve_posed {identity : Identity} (hknows : Catalog.Knows id identity)
    (request : EngineRequest) :
    (engine.serve request).Ends Bench.environment
      (fun _ after => after.Posed id (posture.after request)) bench := by
  have hunit : ∀ {action : Action Unit} {next : Posture},
      action.Ends Bench.environment (fun _ after => after.Posed id next) (fun _ _ => False) bench →
      (Outcome.ofUnit <$> action.run).Ends Bench.environment
        (fun _ after => after.Posed id next) bench := by
    intro action next hends
    refine (Program.ends_map ..).mpr (Program.Ends.mono hends ?_)
    intro result after hafter
    cases result with
    | error fault => exact False.elim hafter
    | ok _ => exact hafter
  cases request with
  | bringUp => exact (Program.ends_bind ..).mpr (ends_bringUp_posed h hknows)
  | shutDown =>
      exact (Program.ends_bind ..).mpr ((ends_shutDown_posed h).mono fun _ _ hafter => hafter.2)
  | operation operation =>
      refine (Program.ends_bind ..).mpr ?_
      by_cases hreset : operation = .reset
      · subst hreset
        exact hunit (ends_reset_posed h)
      · by_cases hsleep : ∃ enter, operation = .sleep enter
        · obtain ⟨enter, rfl⟩ := hsleep
          exact hunit (ends_sleep_posed h enter)
        · have hother : ∀ enter, operation ≠ .sleep enter := fun enter heq => hsleep ⟨enter, heq⟩
          rw [posture.after_operation hreset hother]
          exact ends_perform_posed h hreset hother

end Posed

end Engine

end NorFlash
