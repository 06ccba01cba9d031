import NorFlash.Proofs.Engine.BringUp
import NorFlash.Proofs.Engine.Service
import NorFlash.Proofs.Engine.Writing

/-!
# What an engine is aware of

An engine that was new when the chip was new, and that nobody put the chip to sleep under, knows the
chip's width whenever it has identified a device: `Aware` says so, and `ends_serve_aware` that every
request but one for sleep keeps it. A read by such an engine either fails or delivers what is
stored, `ends_perform_aware`, and after a reset every read fails, `ends_reset_idled`.
-/

namespace NorFlash

/-- A chip in its default state expects other dummy cycles than the engine's reads have. -/
theorem Chip.readDummyCycles_of_reset {chip : Chip} {stored : Status2} (hquad : chip.quad = false)
    (hregisters : chip.registers = .afterReset stored) :
    chip.readDummyCycles = 6 ∨ chip.readDummyCycles = 10 := by
  have hconfig : (Registers.afterReset stored).volatileConfig.dummyCycles = 15 := by
    show VolatileConfig.dummyCycles ⟨0xFB⟩ = 15
    decide
  unfold Chip.readDummyCycles
  rw [hregisters, hquad]
  cases chip.vendor with
  | winbond => exact .inl rfl
  | micron => simp [hconfig]
  | other => exact .inl rfl

namespace Engine

variable {bench after : Bench} {engine : Engine} {request : EngineRequest} {id : JedecId}

/-- An operation is served by performing it, and leaves the engine as it is. -/
theorem ends_serve_operation {operation : Operation} (post : Outcome × Engine → Bench → Prop) :
    (engine.serve (.operation operation)).Ends Bench.environment post bench ↔
      (engine.perform operation).Ends Bench.environment
        (fun outcome => post (outcome, engine)) bench :=
  Program.ends_bind ..

/-- Only bringing up gives an engine another device. -/
theorem ends_serve_engine (hup : request ≠ .bringUp) :
    (engine.serve request).Ends Bench.environment
      (fun ended _ => ended.2 = engine ∨ ended.2 = engine.forget) bench := by
  cases request with
  | bringUp => exact absurd rfl hup
  | shutDown =>
      refine (Program.ends_bind ..).mpr ((Program.ends_bind ..).mpr ?_)
      refine Program.ends_of_forall _ fun _ _ => (Program.ends_bind ..).mpr ?_
      exact Program.ends_of_forall _ fun _ _ => .inr rfl
  | operation operation =>
      exact (Program.ends_bind ..).mpr (Program.ends_of_forall _ fun _ _ => .inl rfl)

/-- Nothing was put to sleep, and a device that was identified listens where the engine thinks. -/
structure Aware (id : JedecId) (engine : Engine) (bench : Bench) : Prop where
  settled : bench.Settled id
  knows : ∀ identity, engine.identity = some identity → Catalog.Knows id identity
  tracked : engine.identity ≠ none → bench.Tracked

/-- Without a device there is nothing to be aware of. -/
theorem aware_of_none (hsettled : bench.Settled id) (hidentity : engine.identity = none) :
    Aware id engine bench :=
  ⟨hsettled, by simp [hidentity], fun hsome => absurd hidentity hsome⟩

/-- An engine with a device serves it at the width it has recorded. -/
theorem Aware.serving {identity : Identity} (h : engine.Aware id bench)
    (hidentity : engine.identity = some identity) :
    ∃ bus, bench.bus = some bus ∧ engine.Serving id identity bus.width bench := by
  obtain ⟨bus, hbus, hwidth⟩ := h.tracked (by simp [hidentity])
  exact ⟨bus, hbus, ⟨hidentity, ⟨bus, hbus, rfl⟩, (h.settled.hears_iff _).mpr hwidth⟩,
    h.knows identity hidentity, h.settled.sound.bits_eq⟩

/-- A program that changes neither a mode nor the width leaves the engine aware. -/
theorem Aware.ends_orderly {α : Type} {codes : List UInt8} {program : Program α}
    (h : engine.Aware id bench)
    (horderly : ∀ width, program.Orderly (BusCall.Among codes) (· = width) false
      (fun _ => True) false)
    (hcodes : Instruction.NoneAmong Instruction.changesMode codes) :
    program.Ends Bench.environment (fun _ after => Aware id engine after) bench := by
  obtain ⟨bus, hbus, -⟩ := h.settled.free
  have hfree : bench.Free (· = bus.width) := ⟨bus, hbus, rfl⟩
  refine (((horderly _).free hfree).and (((horderly _).sound hfree h.settled.sound).and
    ((horderly _).mode hfree hcodes h.settled.awake))).mono ?_
  rintro _ after ⟨⟨⟨width, mapped⟩, hafter, rfl⟩, hsound, hmode⟩
  refine ⟨⟨⟨_, hafter, trivial⟩, hsound, ?_⟩, h.knows, fun hidentity => ?_⟩
  · exact (congrArg Chip.Mode.asleep hmode).trans h.settled.awake
  · exact (h.tracked hidentity).of_mode hbus hafter hmode

/-- The engine that brought a chip up has recorded the width it listens on. -/
theorem BroughtUp.tracked {bus : BusState} {identity : Identity}
    (h : BroughtUp id bench bus identity after) : after.Tracked :=
  (Bench.tracked_iff h.bus_eq).mpr ((Chip.hears_iff h.sound.strict _).mp h.hears).2

/-- An engine stays aware of the chip in every request but for sleep. -/
theorem ends_serve_aware (hwakeful : request.Wakeful) (h : engine.Aware id bench) :
    (engine.serve request).Ends Bench.environment (fun ended after => Aware id ended.2 after)
      bench := by
  have hsettled := @ends_serve_settled bench engine id request h.settled hwakeful
  by_cases hup : request = .bringUp
  · subst hup
    obtain ⟨bus, hbus, -⟩ := h.settled.free
    have hended : (engine.serve .bringUp).Ends Bench.environment
        (fun ended after => ended.2.identity = none ∨ ∃ identity,
          ended.2.identity = some identity ∧ BroughtUp id bench bus identity after) bench := by
      refine (Program.ends_bind ..).mpr ((ends_bringUp h.settled.sound hbus).mono ?_)
      rintro ended after (⟨identity, rfl, hbroughtUp⟩ | ⟨fault, rfl, -⟩)
      · exact .inr ⟨identity, rfl, hbroughtUp⟩
      · exact .inl rfl
    refine (hsettled.and hended).mono ?_
    rintro ended after ⟨hsettled, hnone | ⟨identity, hidentity, hbroughtUp⟩⟩
    · exact aware_of_none hsettled hnone
    · refine ⟨hsettled, fun other hother => ?_, fun _ => hbroughtUp.tracked⟩
      obtain rfl := Option.some.inj (hidentity.symm.trans hother)
      exact hbroughtUp.knows
  · -- No other request identifies a device, so without one there is nothing to keep track of.
    have hengine := @ends_serve_engine bench engine request hup
    by_cases hidentity : engine.identity = none
    · refine (hsettled.and hengine).mono ?_
      rintro ended after ⟨hsettled, hended⟩
      refine aware_of_none hsettled ?_
      rcases hended with h | h <;> simp [h, hidentity, forget]
    · refine (hsettled.and (hengine.and (ends_serve_tracked h.settled (h.tracked hidentity)
        hwakeful hup))).mono ?_
      rintro ended after ⟨hsettled, hended, hkept, -⟩
      refine ⟨hsettled, fun other hother => ?_, fun _ => hkept.tracked⟩
      rcases hended with hsame | hforgotten
      · exact h.knows other (hsame ▸ hother)
      · simp [hforgotten, forget] at hother

/-- A chip that accepts no read of a device in the catalog, as after a reset. -/
def Unready (bench : Bench) : Prop :=
  ∀ command : Command, command.latency = 8 →
    bench.chip.checkRead command ≠ .ok ()

/-- Whether a chip is unready depends on its mode only. -/
theorem Unready.of_mode (h : Unready bench) (hmode : after.chip.mode = bench.chip.mode) :
    Unready after := by
  intro command hcycles
  rw [Chip.checkRead_of_mode hmode]
  exact h command hcycles

/-- A chip that has been reset is unready. -/
theorem unready_of_reset {mode : Chip.Mode} (h : bench.chip.mode = mode.reset) :
    Unready bench := by
  intro command hcycles
  have hquad : bench.chip.quad = false := congrArg Chip.Mode.quad h
  have hregisters : bench.chip.registers = .afterReset mode.registers.storedStatus2 :=
    congrArg Chip.Mode.registers h
  rw [ne_eq, Chip.checkRead_eq_ok_iff, Chip.Expects, hcycles]
  rcases Chip.readDummyCycles_of_reset hquad hregisters with h | h <;> simp [h]

/-- The device is not identified, or the chip has been reset since. -/
def Idled (id : JedecId) (engine : Engine) (bench : Bench) : Prop :=
  Aware id engine bench ∧ (engine.identity = none ∨ Unready bench)

/-- An engine idles on in every request but to be brought up. -/
theorem ends_serve_idled (hwakeful : request.Wakeful) (hup : request ≠ .bringUp)
    (h : engine.Idled id bench) :
    (engine.serve request).Ends Bench.environment (fun ended after => Idled id ended.2 after)
      bench := by
  obtain ⟨haware, hidled⟩ := h
  have hafter := @ends_serve_aware bench engine request id hwakeful haware
  have hengine := @ends_serve_engine bench engine request hup
  by_cases hidentity : engine.identity = none
  · refine (hafter.and hengine).mono ?_
    rintro ended after ⟨haware, hended⟩
    refine ⟨haware, .inl ?_⟩
    rcases hended with h | h <;> simp [h, hidentity, forget]
  · refine (hafter.and (ends_serve_tracked haware.settled (haware.tracked hidentity) hwakeful
      hup)).mono ?_
    rintro ended after ⟨haware, hkept, -⟩
    refine ⟨haware, .inr ?_⟩
    rcases hkept.mode with hsame | hreset
    · exact (hidled.resolve_left hidentity).of_mode hsame
    · exact unready_of_reset hreset

/-- After a reset that succeeded, the chip has been reset if there is a device. -/
theorem ends_reset_idled (h : engine.Aware id bench) :
    (engine.perform .reset).Ends Bench.environment
      (fun outcome after => outcome.result.isOk = true → Idled id engine after) bench := by
  have hup : EngineRequest.operation .reset ≠ .bringUp := by simp
  have hwakeful : (EngineRequest.operation .reset).Wakeful := rfl
  have hafter := (ends_serve_operation _).mp (@ends_serve_aware bench engine _ id hwakeful h)
  by_cases hidentity : engine.identity = none
  · exact hafter.mono fun _ _ haware _ => ⟨haware, .inl hidentity⟩
  · have hserve :=
      @ends_serve_tracked bench engine id _ h.settled (h.tracked hidentity) hwakeful hup
    refine (hafter.and ((ends_serve_operation _).mp hserve)).mono ?_
    rintro outcome after ⟨haware, hkept, hreset⟩ hok
    exact ⟨haware, .inr (unready_of_reset (hreset rfl hok))⟩

/-- A read by an engine that is aware of the width delivers what is stored, if it succeeds. -/
theorem ends_perform_aware {operation : Operation} {address length : Nat}
    (h : engine.Aware id bench) (hrange : engine.readRange? operation = some (address, length)) :
    (engine.perform operation).Ends Bench.environment
      (fun outcome after => outcome.result.isOk = true →
        outcome.delivered? = some (bench.chip.memory.read address length) ∧
          after.chip.memory = bench.chip.memory ∧
          (length ≠ 0 → address + length ≤ bench.chip.memory.size ∧ ¬Unready bench)) bench := by
  cases hidentity : engine.identity with
  | none =>
      refine (ends_perform_unidentified hidentity hrange).mono fun outcome after hfails hok => ?_
      simp [hfails] at hok
  | some identity =>
      obtain ⟨bus, hbus, hserving⟩ := h.serving hidentity
      refine (ends_perform hserving.attuned hserving.knows.capacity_le hrange).mono ?_
      rintro outcome after (⟨bytes, hdelivered, hdelivers⟩ | ⟨⟨fault, hfault⟩, -⟩) hok
      · refine ⟨hdelivered.trans (congrArg some hdelivers.bytes_eq),
          hdelivers.unchanged.chip.memory, fun hlength => ⟨?_, fun hunready => ?_⟩⟩
        · exact hserving.size_eq ▸ hdelivers.within hlength
        · exact hunready _ ((Chip.latency_readCommand ..).trans hserving.knows.readCycles_eq)
            (hdelivers.accepts hlength)
      · simp [hfault, Except.isOk, Except.toBool] at hok

end Engine

end NorFlash
