import NorFlash.Proofs.Bench.Invariants
import NorFlash.Proofs.Engine.Recovery

/-!
# What a request leaves behind

Between two requests nobody holds the bus, and a chip that is never put to sleep is awake: `Settled`
says so, and `ends_serve_settled` that every request but one for sleep keeps it. If the engine knows
the width the chip listens on, `ends_serve_tracked` says that it still does after any request but
bringing up, and that such a request either leaves the chip's mode alone or resets it.
-/

namespace NorFlash

namespace Chip

/-- The mode after a reset. -/
def Mode.reset (mode : Mode) : Mode :=
  { mode with quad := false, registers := .afterReset mode.registers.storedStatus2 }

/-- A reset of a chip is a reset of its mode. -/
theorem mode_reset (chip : Chip) : chip.reset.mode = chip.mode.reset :=
  rfl

end Chip

namespace EngineRequest

/-- The request is to put the chip to sleep. -/
def sleeps : EngineRequest → Bool
  | operation (.sleep true) => true
  | _ => false

/-- The request is not for sleep. -/
def Wakeful (request : EngineRequest) : Prop :=
  request.sleeps = false

/-- The request is to return the chip to its default state. -/
def resets : EngineRequest → Bool
  | shutDown | operation .reset => true
  | _ => false

/-- The instruction bytes that a request may have a chip carry out. -/
def repertoire : EngineRequest → List UInt8
  | bringUp => Engine.bringUpRepertoire
  | shutDown => Engine.shutDownRepertoire
  | operation asked => asked.repertoire

/-- Only a request for sleep sends the chip to sleep. -/
theorem keepsAwake {request : EngineRequest} (h : request.sleeps = false) :
    Instruction.NoneAmong (· == .sleep) request.repertoire := by
  cases request with
  | bringUp => decide
  | shutDown => decide
  | operation operation =>
      refine Operation.keepsAwake ?_
      rintro rfl
      simp [sleeps] at h

end EngineRequest

namespace Bench

/-- The engine has recorded the width the chip listens on, and nobody holds the bus. -/
def Tracked (bench : Bench) : Prop :=
  bench.Free (· = bench.chip.width)

/-- What holds between two requests: the bus is free, and the chip is sound and awake. -/
structure Settled (id : JedecId) (bench : Bench) : Prop where
  free : bench.Free fun _ => True
  sound : Chip.Sound id bench.chip
  awake : bench.chip.asleep = false

variable {bench : Bench} {id : JedecId} {bus : BusState}

/-- A settled chip hears the width of its protocol and no other. -/
theorem Settled.hears_iff (h : bench.Settled id) (width : BusWidth) :
    bench.chip.Hears width ↔ width = bench.chip.width := by
  simp [Chip.hears_iff h.sound.strict, h.awake]

/-- A bench is tracked when its bus is at the width of the chip. -/
theorem tracked_iff (hbus : bench.bus = some bus) :
    bench.Tracked ↔ bus.width = bench.chip.width := by
  simp [Tracked, Free, hbus]

/-- Whether the width is known depends on the bus and the mode only. -/
theorem Tracked.of_mode {after : Bench} {mapped : Bool} (h : bench.Tracked)
    (hbus : bench.bus = some bus) (hafter : after.bus = some ⟨bus.width, mapped⟩)
    (hmode : after.chip.mode = bench.chip.mode) : after.Tracked := by
  have hquad : after.chip.quad = bench.chip.quad := congrArg Chip.Mode.quad hmode
  rw [tracked_iff hafter]
  rw [tracked_iff hbus] at h
  simpa only [Chip.width, hquad] using h

end Bench

namespace Engine

variable {bench after : Bench} {engine : Engine} {bus : BusState} {id : JedecId}
  {request : EngineRequest}

/-- A request keeps to its repertoire. -/
theorem orderly_serve (engine : Engine) (request : EngineRequest) :
    (engine.serve request).Orderly (BusCall.Among request.repertoire) (fun _ => True) false
      (fun _ => True) false := by
  cases request with
  | bringUp =>
      have h : engine.bringUp.Orderly (BusCall.Among bringUpRepertoire) (fun _ => True) false
          (fun _ => True) false := engine.orderly_bringUp fun _ => trivial
      exact Program.Orderly.bind h fun _ _ => ⟨rfl, trivial⟩
  | shutDown =>
      have h : engine.shutDown.Orderly (BusCall.Among shutDownRepertoire) (fun _ => True) false
          (fun _ => True) false := engine.orderly_shutDown trivial
      exact Program.Orderly.bind h fun _ _ => ⟨rfl, trivial⟩
  | operation operation =>
      have h : (engine.perform operation).Orderly (BusCall.Among operation.repertoire)
          (fun _ => True) false (fun _ => True) false :=
        engine.orderly_perform operation fun _ => trivial
      exact Program.Orderly.bind h fun _ _ => ⟨rfl, trivial⟩

/-- Whatever happens in a request, it settles again. -/
theorem ends_serve_settled (h : bench.Settled id) (hsleep : request.sleeps = false) :
    (engine.serve request).Ends Bench.environment (fun _ after => after.Settled id) bench := by
  have horderly := engine.orderly_serve request
  refine ((horderly.free h.free).and ((horderly.sound h.free h.sound).and
    (horderly.awake h.free (EngineRequest.keepsAwake hsleep) h.awake))).mono ?_
  exact fun _ after hafter => ⟨hafter.1, hafter.2.1, hafter.2.2⟩

/-- A reset that is heard is carried out, or it fails and changes nothing. -/
theorem ends_reset (hbus : bench.bus = some bus) (hhears : bench.chip.Hears bus.width) :
    engine.reset.Ends Bench.environment
      (fun _ after => after.bus = some ⟨.single, false⟩ ∧
        after.chip.mode = bench.chip.mode.reset)
      (fun _ after => after.bus = some ⟨bus.width, false⟩ ∧
        after.chip.mode = bench.chip.mode) bench := by
  refine ends_withBus hbus fun start htaken => ?_
  have hstart := hhears.of_mode htaken.chip.mode
  rw [BusAction.ends_bind, BusAction.ends_width, BusAction.ends_bind]
  refine BusAction.ends_sent (not_readQuad_of_wakeRepertoire _ (by decide))
    (fun middle hmiddle => ?_) fun after hafter => ⟨rfl, ?_⟩
  · obtain ⟨hmode, hlatch⟩ := Chip.sent_enableReset false hstart
    have hchip : middle.chip = _ := hmiddle.chip_of_accepted
    have hmiddleMode := (congrArg Chip.mode hchip).trans hmode
    have hmiddleLatch := (congrArg (·.latches.resetEnable) hchip).trans hlatch
    have hheard := hstart.of_mode hmiddleMode
    rw [BusAction.ends_bind]
    refine BusAction.ends_sent (not_readQuad_of_wakeRepertoire _ (by decide))
      (fun after hafter => ⟨rfl, ?_⟩) fun after hafter => ⟨rfl, ?_⟩
    · have hreset := Chip.sent_reset false hheard
      rw [hmiddleLatch, if_pos (by rfl), Chip.mode_reset, hmiddleMode, htaken.chip.mode] at hreset
      exact (congrArg Chip.mode hafter.chip_of_accepted).trans hreset
    · exact hafter.idle.mode.trans (hmiddleMode.trans htaken.chip.mode)
  · exact hafter.idle.mode.trans htaken.chip.mode

/-- What an operation other than a reset or for sleep does: the width and the mode stay. -/
theorem ends_perform_kept {operation : Operation} (hsettled : bench.Settled id)
    (hbus : bench.bus = some bus) (hreset : operation ≠ .reset)
    (hsleep : operation ≠ .sleep true) :
    (engine.perform operation).Ends Bench.environment
      (fun _ after => after.Free (· = bus.width) ∧ after.chip.mode = bench.chip.mode) bench := by
  have horderly : (engine.perform operation).Orderly (BusCall.Among operation.repertoire)
      (· = bus.width) false (fun _ => True) false :=
    engine.orderly_perform operation fun h => absurd h hreset
  have hfree : bench.Free (· = bus.width) := ⟨bus, hbus, rfl⟩
  exact (horderly.free hfree).and
    (horderly.mode hfree (Operation.keepsMode hreset hsleep) hsettled.awake)

/-- The engine still knows the width, and the chip keeps its mode or has been reset. -/
structure Kept (bench after : Bench) : Prop where
  tracked : after.Tracked
  mode : after.chip.mode = bench.chip.mode ∨ after.chip.mode = bench.chip.mode.reset

/-- What leaves the mode and the width alone keeps a bench tracked. -/
theorem kept_of_mode (h : bench.Tracked) (hbus : bench.bus = some bus)
    (hafter : after.Free (· = bus.width)) (hmode : after.chip.mode = bench.chip.mode) :
    Kept bench after := by
  obtain ⟨⟨width, mapped⟩, hlast, rfl⟩ := hafter
  exact ⟨h.of_mode hbus hlast hmode, .inl hmode⟩

/-- A reset leaves the chip listening on one line, and that is what the engine records. One that
fails leaves the chip as it was. -/
theorem ends_reset_kept (hsettled : bench.Settled id) (htracked : bench.Tracked) :
    engine.reset.run.Ends Bench.environment
      (fun result after => Kept bench after ∧
        (result.isOk = true → after.chip.mode = bench.chip.mode.reset) ∧
        (result.isOk = false → after.chip.mode = bench.chip.mode)) bench := by
  obtain ⟨bus, hbus, hwidth⟩ := htracked
  refine Program.Ends.mono (ends_reset hbus ((hsettled.hears_iff _).mpr hwidth)) ?_
  rintro (fault | _) after ⟨hafter, hmode⟩
  · refine ⟨kept_of_mode ⟨bus, hbus, hwidth⟩ hbus ⟨_, hafter, rfl⟩ hmode, ?_, fun _ => hmode⟩
    simp [Except.isOk, Except.toBool]
  · have hquad : after.chip.quad = false := congrArg Chip.Mode.quad hmode
    refine ⟨⟨⟨_, hafter, ?_⟩, .inr hmode⟩, fun _ => hmode,
      fun hfailed => absurd hfailed.symm Bool.false_ne_true⟩
    simp [Chip.width, hquad]

/-- Shutting down resets the chip, or it fails and leaves the chip as it was. -/
theorem ends_shutDown_kept (hsettled : bench.Settled id) (htracked : bench.Tracked) :
    engine.shutDown.Ends Bench.environment
      (fun ended after => Kept bench after ∧
        (ended.1.isOk = true → after.chip.mode = bench.chip.mode.reset) ∧
        (ended.1.isOk = false → after.chip.mode = bench.chip.mode)) bench := by
  obtain ⟨bus, hbus, hwidth⟩ := htracked
  have hfree : bench.Free (· = bus.width) := ⟨bus, hbus, rfl⟩
  have horderly : (engine.sleep false).Orderly (BusCall.Among (Operation.repertoire (.sleep false)))
      (· = bus.width) false := engine.orderly_sleep false
  have hwoken := (Program.Orderly.free horderly hfree).and
    ((Program.Orderly.mode horderly hfree (by decide) hsettled.awake).and
      (Program.Orderly.sound horderly hfree hsettled.sound))
  refine (Program.ends_bind ..).mpr ((Program.ends_bind ..).mpr (hwoken.mono ?_))
  rintro result middle ⟨⟨⟨_, mapped⟩, hmiddle, rfl⟩, hmode, hsound⟩
  have hawake : middle.chip.asleep = false :=
    (congrArg Chip.Mode.asleep hmode).trans hsettled.awake
  have hknown : middle.Tracked := Bench.Tracked.of_mode ⟨bus, hbus, hwidth⟩ hbus hmiddle hmode
  have hreset := @ends_reset_kept middle engine id ⟨⟨_, hmiddle, trivial⟩, hsound, hawake⟩ hknown
  refine (Program.ends_pure ..).mpr ((Program.ends_bind ..).mpr (hreset.mono ?_))
  rintro result after ⟨⟨htracked, hkept⟩, hended⟩
  rw [hmode] at hkept hended
  exact ⟨⟨htracked, hkept⟩, hended⟩

/-- The engine keeps track of the width in any request but bringing up. -/
theorem ends_serve_tracked (hsettled : bench.Settled id) (htracked : bench.Tracked)
    (hsleep : request.sleeps = false) (hup : request ≠ .bringUp) :
    (engine.serve request).Ends Bench.environment
      (fun ended after => Kept bench after ∧
        (request.resets = true → ended.1.result.isOk →
          after.chip.mode = bench.chip.mode.reset)) bench := by
  cases request with
  | bringUp => exact absurd rfl hup
  | shutDown =>
      refine (Program.ends_bind ..).mpr ((ends_shutDown_kept hsettled htracked).mono ?_)
      rintro ⟨fault | _, last⟩ after ⟨hkept, hok, -⟩
      · exact ⟨hkept, fun _ h => hok h⟩
      · exact ⟨hkept, fun _ h => hok h⟩
  | operation operation =>
      refine (Program.ends_bind ..).mpr ?_
      by_cases hreset : operation = .reset
      · subst hreset
        refine (Program.ends_map ..).mpr ((ends_reset_kept hsettled htracked).mono ?_)
        rintro (fault | _) after ⟨hkept, hok, -⟩
        · exact ⟨hkept, fun _ h => hok h⟩
        · exact ⟨hkept, fun _ h => hok h⟩
      · have hawake : operation ≠ .sleep true := by
          rintro rfl
          simp [EngineRequest.sleeps] at hsleep
        obtain ⟨bus, hbus, hwidth⟩ := htracked
        refine (ends_perform_kept hsettled hbus hreset hawake).mono ?_
        rintro outcome after ⟨hafter, hmode⟩
        refine ⟨kept_of_mode ⟨bus, hbus, hwidth⟩ hbus hafter hmode, fun hresets => ?_⟩
        cases operation <;> simp_all [EngineRequest.resets]

end Engine

end NorFlash
