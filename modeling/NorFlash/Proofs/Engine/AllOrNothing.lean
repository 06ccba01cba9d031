import NorFlash.Proofs.Bench.Shadow
import NorFlash.Proofs.Engine.Availability
import NorFlash.Proofs.Engine.Quota

/-!
# Bringing up is all or nothing

Failures and lost completions can hit any call of bringing a device up, and some of them are
tolerated. `bringUp_allOrNothing` says that the result tells the truth however they come and go:
after success the engine and the chip are ready for reads (`Engine.Ready`), and after a fault the
engine knows no device and denies every operation that needs one (`Engine.Unidentified`).
-/

namespace NorFlash

namespace Operation

/-- The operation needs a device to be identified. -/
def needsDevice : Operation → Bool
  | readId | sleep _ | reset | exitMapped => false
  | _ => true

end Operation

namespace Engine

/-- The engine knows nothing of a device, and it denies what needs one without a request to its
surroundings. -/
structure Unidentified (engine : Engine) : Prop where
  device? : engine.device? = none
  manufacturerName : engine.manufacturerName = ""
  deviceName : engine.deviceName = ""
  sectorSize : engine.sectorSize = 0
  sectorCount : engine.sectorCount = 0
  capacity : engine.capacity = 0
  denies : ∀ operation : Operation, operation.needsDevice = true →
    engine.perform operation = .done ⟨.error .notIdentified, operation.buffer?⟩

/-- The engine knows the device of the chip, which is awake in quad protocol, as the engine knows
too, and which accepts the engine's reads. -/
structure Ready (engine : Engine) (id : JedecId) (identity : Identity) (bench : Bench) : Prop where
  identity_eq : engine.identity = some identity
  knows : Catalog.Knows id identity
  asleep : bench.chip.asleep = false
  quad : bench.chip.quad = true
  bus : bench.bus = some ⟨.quad, false⟩
  accepts : Accepts identity bench

/-- An engine that has identified no device knows nothing of one. -/
theorem unidentified_of_none {engine : Engine} (h : engine.identity = none) :
    engine.Unidentified := by
  obtain ⟨timeouts, identity⟩ := engine
  subst h
  refine ⟨rfl, rfl, rfl, rfl, rfl, rfl, fun operation hneeds => ?_⟩
  cases operation with
  | readId | sleep | reset | exitMapped => simp [Operation.needsDevice] at hneeds
  | _ => rfl

end Engine

variable {settings : Nat → Chip → FailurePlan × CompletionMode} {bench : Bench} {engine : Engine}
  {bus : BusState} {id : JedecId}

/-- Setting failures up anew leaves a sound chip sound. -/
theorem Chip.Sound.upset {chip : Chip} (h : Sound id chip)
    (setting : FailurePlan × CompletionMode) : Sound id (chip.upset setting) :=
  ⟨h.strict, h.id_eq, h.vendor_eq, h.bits_eq, h.agrees⟩

/-- Taking failures back leaves a sound chip sound. -/
theorem Chip.Sound.calm {chip : Chip} (h : Sound id chip) : Sound id chip.calm :=
  h.upset (.none, .immediate)

/-- However failures come and go, the chip stays the chip it is, and the bus is free again. -/
theorem Program.Orderly.sound_upsetting {α : Type} {calls : BusCall → Prop}
    {values : α → Prop} {program : Program α}
    (h : program.Orderly calls (fun _ => True) false values false)
    (hsound : Chip.Sound id bench.chip) (hbus : bench.bus = some bus) (count : Nat) :
    program.Ends (Bench.upsetting settings)
      (fun _ after => Chip.Sound id after.1.chip ∧ ∃ last, after.1.bus = some last)
      (bench, count) := by
  refine (h.keeps_upsetting (fun request _ _ hchip => hchip.answer request)
    (fun _ setting hchip => hchip.upset setting) ⟨bus, hbus, trivial⟩ hsound count).mono ?_
  rintro _ after ⟨hafter, last, hlast, -⟩
  exact ⟨hafter, last, hlast⟩

namespace QuadEntry

/-- A register that is read has been read as on a calm bench. -/
theorem shadows_readRegister (code : UInt8) (width : BusWidth) :
    (readRegister code width).Shadows settings :=
  (Action.shadows_call _).bind fun _ => Action.shadows_pure _

/-- A register that is written has been written as on a calm bench. -/
theorem shadows_writeRegister (code : UInt8) (width : BusWidth) (value : UInt8) :
    (writeRegister code width value).Shadows settings :=
  (Action.shadows_call _).discard

/-- An instruction that is carried out has been carried out as on a calm bench. -/
theorem shadows_instruct (code : UInt8) : (QuadEntry.instruct code).Shadows settings :=
  (Action.shadows_call _).discard

/-- A Winbond chip that was brought into quad mode was so as on a calm bench. -/
theorem shadows_enterWinbond (device : Descriptor) :
    (enterWinbond device).Shadows settings := by
  unfold enterWinbond
  split
  · exact Action.shadows_throw _
  · refine (shadows_readRegister _ _).bind fun status => ?_
    have hswitch (value : UInt8) : Action.Shadows settings (do
        QuadEntry.instruct WinbondOpcode.enterQuadProtocol.code
        writeRegister WinbondOpcode.setReadParameters.code .quad value
        return BusWidth.quad) :=
      (shadows_instruct _).bind fun _ => (shadows_writeRegister _ _ value).bind fun _ =>
        Action.shadows_pure _
    dsimp only
    split
    · exact hswitch _
    · exact (shadows_instruct _).bind fun _ => (shadows_writeRegister _ _ _).bind fun _ =>
        hswitch _

/-- A Micron chip that was brought into quad mode was so as on a calm bench. -/
theorem shadows_enterMicron (device : Descriptor) :
    (enterMicron device).Shadows settings := by
  refine (shadows_readRegister _ _).bind fun enhanced => ?_
  dsimp only
  split
  · exact Action.shadows_pure _
  · refine (shadows_readRegister _ _).bind fun config => ?_
    split
    · exact Action.shadows_throw _
    · exact (shadows_instruct _).bind fun _ => (shadows_writeRegister _ _ _).bind fun _ =>
        (shadows_instruct _).bind fun _ => (shadows_writeRegister _ _ _).bind fun _ =>
          Action.shadows_pure _

end QuadEntry

namespace Engine

/-- A device that is identified is the one identified on a calm bench. -/
theorem shadows_identify : engine.identify.Shadows settings := by
  have hread : engine.readId.Shadows settings :=
    shadows_withBus ((BusAction.shadows_transfer _ _).bind fun _ => BusAction.shadows_pure _)
  refine hread.bind fun id => ?_
  split
  · exact Action.shadows_pure _
  · exact Action.shadows_throw _

/-- A chip that was brought into quad mode was so as on a calm bench. -/
theorem shadows_enterQuad (identity : Identity) : (engine.enterQuad identity).Shadows settings := by
  have henter : (identity.manufacturer.quadEntry.enter identity.device).Shadows settings := by
    cases identity.manufacturer.quadEntry with
    | winbond => exact QuadEntry.shadows_enterWinbond _
    | micron => exact QuadEntry.shadows_enterMicron _
  exact shadows_withBus ((BusAction.shadows_lift henter).bind fun _ =>
    BusAction.shadows_modify _)

/-- However failures come and go, only a chip that hears the question is identified, as the device
that the catalog has for it. -/
theorem ends_identify_upsetting (hsound : Chip.Sound id bench.chip) (hbus : bench.bus = some bus)
    (count : Nat) :
    engine.identify.Ends (Bench.upsetting settings)
      (fun identity after => Catalog.Knows id identity ∧ after.1.chip.Hears .single ∧
        Chip.Sound id after.1.chip ∧ ∃ last, after.1.bus = some last)
      (fun _ after => Chip.Sound id after.1.chip ∧ ∃ last, after.1.bus = some last)
      (bench, count) := by
  have hcalm := @ends_identify bench.calmed engine bus id hsound.calm hbus
  refine ((shadows_identify.ends hcalm count).and_run
    (engine.orderly_identify.sound_upsetting hsound hbus count)).mono ?_ ?_
  · rintro identity after ⟨⟨calm, hafter, hasked, hhears, hknows⟩, hsound, hfree⟩
    have hmode : after.1.chip.mode = bench.chip.mode :=
      (congrArg Chip.mode hafter.chip).symm.trans hasked.chip.mode
    exact ⟨hknows, Chip.Hears.of_mode hhears hmode, hsound, hfree⟩
  · exact fun _ after h => h.2

/-- However failures come and go, a device that is found is the chip's, and the chip is awake in
single-line protocol then. -/
theorem ends_find_upsetting (hsound : Chip.Sound id bench.chip) (hbus : bench.bus = some bus)
    (count : Nat) :
    engine.find.Ends (Bench.upsetting settings)
      (fun identity after => Catalog.Knows id identity ∧ after.1.chip.Hears .single ∧
        Chip.Sound id after.1.chip ∧ ∃ last, after.1.bus = some last)
      (fun _ _ => True) (bench, count) := by
  unfold find
  rw [Action.ends_tryCatch]
  refine (ends_identify_upsetting hsound hbus count).mono (fun _ _ h => h) ?_
  rintro _ ⟨first, counted⟩ ⟨hfirst, last, hlast⟩
  rw [Action.ends_bind]
  -- Whatever recovery came to, it left the chip sound and the bus free for the second question.
  refine Program.Ends.mono
    ((engine.orderly_recover trivial).sound_upsetting hfirst hlast counted) ?_
  rintro (fault | _) ⟨second, recounted⟩ ⟨hsecond, last, hlast⟩
  · trivial
  · exact (ends_identify_upsetting hsecond hlast recounted).mono (fun _ _ h => h)
      fun _ _ _ => trivial

/-- However failures come and go, entering quad mode fails, or the chip serves reads then. -/
theorem ends_enterQuad_upsetting {identity : Identity} (hsound : Chip.Sound id bench.chip)
    (hknows : Catalog.Knows id identity) (hhears : bench.chip.Hears .single)
    (hbus : bench.bus = some bus) (count : Nat) :
    (engine.enterQuad identity).Ends (Bench.upsetting settings)
      (fun _ after => after.1.bus = some ⟨.quad, false⟩ ∧ after.1.chip.asleep = false ∧
        after.1.chip.quad = true ∧ Accepts identity after.1)
      (fun _ _ => True) (bench, count) := by
  obtain ⟨hasleep, hquad⟩ := (Chip.hears_single hsound.strict).mp hhears
  have hcalm := @ends_enterQuad bench.calmed engine identity id bus hsound.calm hknows hasleep
    hquad hbus
  refine (((shadows_enterQuad identity).ends hcalm count).and_run
    ((engine.orderly_enterQuad (fun _ => trivial) identity).sound_upsetting hsound hbus
      count)).mono ?_ fun _ _ _ => trivial
  rintro _ after ⟨⟨calm, hafter, hgiven, -, hheard, hserves⟩, hafterSound, -⟩
  have hmode : after.1.chip.mode = calm.chip.mode := (congrArg Chip.mode hafter.chip).symm
  obtain ⟨hasleep, hquad⟩ := (Chip.hears_quad hafterSound.strict).mp (hheard.of_mode hmode)
  refine ⟨hafter.bus.symm.trans hgiven, hasleep, hquad, ?_⟩
  unfold Accepts
  rw [Chip.checkRead_of_mode hmode]
  exact hserves _ ((Chip.latency_readCommand ..).trans hknows.readCycles_eq)

/-- However failures come and go, acquiring a device fails or makes the engine ready for it. -/
theorem ends_acquireDevice_upsetting (hsound : Chip.Sound id bench.chip)
    (hbus : bench.bus = some bus) (count : Nat) :
    engine.acquireDevice.Ends (Bench.upsetting settings)
      (fun identity after =>
        { engine with identity := some identity }.Ready id identity after.1)
      (fun _ _ => True) (bench, count) := by
  rw [acquireDevice_eq, Action.ends_bind]
  refine (ends_find_upsetting hsound hbus count).mono ?_ fun _ _ _ => trivial
  rintro identity ⟨found, counted⟩ ⟨hknows, hhears, hfound, last, hlast⟩
  rw [Action.ends_bind]
  refine (ends_enterQuad_upsetting hfound hknows hhears hlast counted).mono ?_ fun _ _ _ => trivial
  rintro _ after ⟨hgiven, hasleep, hquad, haccepts⟩
  exact ⟨rfl, hknows, hasleep, hquad, hgiven, haccepts⟩

/-- Bringing up a chip in any state succeeds, and everything is ready for reads, or it fails, and
nothing is known of a device. This holds however failures and completions are set up before each
request, and the identification is asked for twice at most. -/
theorem bringUp_allOrNothing (settings : Nat → Chip → FailurePlan × CompletionMode)
    (engine : Engine) (hchip : Chip.Reachable id bench.chip) (hbus : bench.bus = some bus) :
    let ended := engine.bringUp.run (Bench.upsetting settings) (bench, 0)
    (match ended.1 with
      | (.ok (), after) => ∃ identity, after = { engine with identity := some identity } ∧
          after.Ready id identity ended.2.1
      | (.error _, after) => after = engine.forget ∧ after.Unidentified) ∧
    (engine.bringUp.dialogue (Bench.upsetting settings) (bench, 0)).countP
      (Interaction.isCallOf BusCall.readsId) ≤ 2 := by
  refine ⟨?_, engine.callsAtMost_bringUp.countP_dialogue_le _ _⟩
  have hended : engine.bringUp.Ends (Bench.upsetting settings)
      (fun ended after => match ended with
        | (.ok (), later) => ∃ identity, later = { engine with identity := some identity } ∧
            later.Ready id identity after.1
        | (.error _, later) => later = engine.forget ∧ later.Unidentified) (bench, 0) := by
    refine (Program.ends_bind ..).mpr
      (Program.Ends.mono (ends_acquireDevice_upsetting hchip.sound hbus 0) ?_)
    rintro (fault | identity) after hafter
    · exact ⟨rfl, unidentified_of_none rfl⟩
    · exact ⟨identity, rfl, hafter⟩
  exact hended

/-- A new chip whose first answer is lost, and which refuses one command of the recovery. -/
theorem bringUp_allOrNothing_of_lost_answer :
    let id : JedecId := ⟨0xEF, 0x4015⟩
    let bench := Bench.ofChip (Chip.fresh id)
    let settings (count : Nat) (_ : Chip) : FailurePlan × CompletionMode :=
      (if count = 8 then ⟨0, 1⟩ else .none, if count = 2 then .never else .immediate)
    let ended := (fresh .standard).bringUp.run (Bench.upsetting settings) (bench, 0)
    Chip.Reachable id bench.chip ∧ bench.bus = some .fresh ∧ ended.1.1.isOk = true ∧
      ended.2.1.chip.aborts = 1 ∧ ∃ identity, ended.1.2.Ready id identity ended.2.1 := by
  intro id bench settings ended
  have hended : ended.1.1.isOk = true ∧ ended.2.1.chip.aborts = 1 := by decide +kernel
  have h : match ended.1 with
      | (.ok (), after) => ∃ identity, after = _ ∧ after.Ready id identity ended.2.1
      | (.error _, after) => after = _ ∧ after.Unidentified :=
    (bringUp_allOrNothing settings (fresh .standard) (.fresh : Chip.Reachable id bench.chip)
      (rfl : bench.bus = some .fresh)).1
  -- The run is not to be carried out to compare its ends.
  generalize ended = ended at h hended ⊢
  obtain ⟨⟨fault | _, engine⟩, after⟩ := ended
  · simp [Except.isOk, Except.toBool] at hended
  · obtain ⟨identity, -, hready⟩ := h
    exact ⟨.fresh, rfl, rfl, hended.2, identity, hready⟩

end Engine

end NorFlash
