import NorFlash.Proofs.Engine.BringUp
import NorFlash.Proofs.Engine.Reading

/-!
# Bringing up whatever is found

A chip may have been left in any state by an earlier session: asleep, in quad protocol, with latches
set and with any register contents. `Chip.Reachable` is what calls of the controller and the hooks
of a test can make of a new chip. `bringUp_of_reachable` says that a responsive chip is brought up
from any such state, whatever the engine believes before, and that its reads then deliver what is
stored.
-/

namespace NorFlash

namespace Chip

/-- The states that a new chip can be brought into, by calls and by the hooks of a test. -/
inductive Reachable (id : JedecId) : Chip → Prop where
  | fresh : Reachable id (fresh id)
  | answer {chip : Chip} (h : Reachable id chip) (request : BusCall) :
      Reachable id (chip.answer request).2
  | asleep {chip : Chip} (h : Reachable id chip) (asleep : Bool) :
      Reachable id { chip with asleep }
  | quadEnable {chip : Chip} (h : Reachable id chip) (enabled : Bool) :
      Reachable id (chip.withQuadEnable enabled)
  | overwrite {chip : Chip} (h : Reachable id chip) (address : UInt32) (bytes : Bytes) :
      Reachable id (chip.overwrite address bytes)
  | failing {chip : Chip} (h : Reachable id chip) (spared failures : Nat) :
      Reachable id (chip.failing spared failures)
  | completing {chip : Chip} (h : Reachable id chip) (completion : CompletionMode) :
      Reachable id { chip with completion }

/-- A chip that can be reached is sound. -/
theorem Reachable.sound {id : JedecId} {chip : Chip} (h : Reachable id chip) : Sound id chip := by
  induction h with
  | fresh => exact sound_fresh id
  | answer _ request ih => exact ih.answer request
  | asleep _ _ ih => exact ⟨ih.strict, ih.id_eq, ih.vendor_eq, ih.bits_eq, ih.agrees⟩
  | quadEnable _ _ ih =>
      exact ⟨ih.strict, ih.id_eq, ih.vendor_eq, ih.bits_eq, ih.agrees.congr rfl rfl rfl⟩
  | overwrite _ _ _ ih =>
      exact ⟨ih.strict, ih.id_eq, ih.vendor_eq, (Memory.bits_overwrite ..).trans ih.bits_eq,
        ih.agrees⟩
  | failing _ _ _ ih => exact ⟨ih.strict, ih.id_eq, ih.vendor_eq, ih.bits_eq, ih.agrees⟩
  | completing _ _ ih => exact ⟨ih.strict, ih.id_eq, ih.vendor_eq, ih.bits_eq, ih.agrees⟩

/-- A chip that accepts a read expects just the cycles that the read leaves. -/
theorem readDummyCycles_of_checkRead {chip : Chip} {command : Command}
    (h : chip.checkRead command = .ok ()) :
    chip.readDummyCycles = command.modeCycles + command.dummyCycles := by
  have hexpects : chip.Expects command := checkRead_eq_ok_iff.mp h
  exact ((Command.latency_eq_iff _).mp hexpects.2).2.symm

end Chip

namespace Engine

variable {bench after : Bench} {engine : Engine} {bus : BusState} {id : JedecId}
  {identity : Identity}

/-- A chip that was brought up accepts the engine's reads. -/
theorem BroughtUp.accepts (h : BroughtUp id bench bus identity after) : Accepts identity after :=
  h.serves _ ((Chip.latency_readCommand ..).trans h.knows.readCycles_eq)

/-- The engine that brought a device up is ready to read from it. -/
theorem BroughtUp.attuned (h : BroughtUp id bench bus identity after) :
    Attuned { engine with identity := some identity } identity .quad after :=
  ⟨rfl, ⟨_, h.bus_eq, rfl⟩, h.hears⟩

/-- A responsive chip is brought up from any state it can be in, if the catalog knows it. -/
theorem bringUp_of_reachable (hchip : Chip.Reachable id bench.chip)
    (hresponsive : bench.chip.Responsive) (hbus : bench.bus = some bus) :
    let ended := engine.bringUp.run Bench.environment bench
    let after := ended.2
    after.idReads ≤ bench.idReads + 2 ∧ after.chip.memory = bench.chip.memory ∧
      match Catalog.identify? id.manufacturer id.device with
      | none =>
          ended.1 = (.error (.unsupported bench.chip.id.manufacturer bench.chip.id.device),
            engine.forget)
      | some (manufacturer, device) =>
          let ready := { engine with identity := some ⟨manufacturer, device⟩ }
          ended.1 = (.ok (), ready) ∧ after.chip.asleep = false ∧ after.chip.quad = true ∧
            after.bus = some ⟨.quad, false⟩ ∧
            after.chip.readDummyCycles =
              (readCommand device .quad).modeCycles + (readCommand device .quad).dummyCycles ∧
            ∀ operation address length, ready.readRange? operation = some (address, length) →
              address + length ≤ after.chip.memory.size →
              ((ready.perform operation).run Bench.environment after).1.delivered? =
                some (bench.chip.memory.read address length) := by
  have hsound := hchip.sound
  have hbuild : engine.bringUp.Ends Bench.environment
      (fun _ after => Chip.SameBuild bench.chip after.chip) bench :=
    (engine.orderly_bringUp fun _ => trivial).sameBuild
      (⟨bus, hbus, trivial⟩ : bench.Free fun _ => True)
  have hmemory : engine.bringUp.Ends Bench.environment
      (fun _ after => after.chip.memory = bench.chip.memory) bench :=
    Program.Orderly.memory (engine.orderly_bringUp fun _ => trivial)
      (⟨bus, hbus, trivial⟩ : bench.Free fun _ => True) (by decide)
  have hended := @ends_bringUp bench engine bus id hsound hbus
  unfold Program.Ends at hbuild hmemory hended
  generalize engine.bringUp.run Bench.environment bench = ended at *
  obtain ⟨ended, after⟩ := ended
  dsimp only at *
  rw [hsound.id_eq]
  obtain ⟨identity, rfl, hup⟩ | ⟨fault, rfl, hdown⟩ := hended
  · refine ⟨hup.idReads, hmemory, ?_⟩
    have hknows := hup.knows
    unfold Catalog.Knows at hknows
    rw [hknows]
    obtain ⟨hasleep, hquad⟩ := (Chip.hears_quad hup.sound.strict).mp hup.hears
    refine ⟨rfl, hasleep, hquad, hup.bus_eq,
      Chip.readDummyCycles_of_checkRead hup.accepts, ?_⟩
    intro operation address length hrange hwithin
    have hsize : identity.device.capacity = after.chip.memory.size := by
      rw [hup.knows.capacity_eq, Memory.size, Memory.size, hup.sound.bits_eq]
    have hread := ends_perform hup.attuned hup.knows.capacity_le hrange
    obtain ⟨bytes, hdelivered, hdelivers⟩ | ⟨-, hdenies⟩ := hread
    · rw [hdelivered, hdelivers.bytes_eq, hmemory]
    · exact absurd (hsize ▸ hwithin)
        (hdenies.outside (hbuild.responsive hresponsive) hup.accepts)
  · refine ⟨hdown.idReads, hmemory, ?_⟩
    cases hdown with
    | searching hsearched hfault =>
        obtain ⟨hunknown, rfl⟩ := hfault hresponsive
        rw [hunknown]
    | stopped hstopped => exact absurd hresponsive hstopped.notResponsive
    | entering _ _ _ _ _ _ _ _ hunresponsive _ => exact absurd hresponsive hunresponsive

/-- A chip asleep in quad protocol, found by an engine that takes it for mapped on one line. -/
theorem bringUp_of_reachable_asleep :
    let id : JedecId := ⟨0xEF, 0x4015⟩
    let enabled := (Chip.fresh id).withQuadEnable true
    let quad := (enabled.answer (.command
      (.instruct WinbondOpcode.enterQuadProtocol.code .single))).2
    let bench := { Bench.ofChip { quad with asleep := true } with bus := some ⟨.single, true⟩ }
    let ended := (fresh .standard).bringUp.run Bench.environment bench
    quad.quad = true ∧ Chip.Reachable id bench.chip ∧ bench.chip.Responsive ∧
      ended.1.1 = .ok () ∧ ended.2.chip.quad = true ∧ ended.2.idReads ≤ 2 := by
  intro id enabled quad bench
  have hreachable : Chip.Reachable id bench.chip :=
    .asleep (.answer (.quadEnable .fresh true) _) true
  have hresponsive : bench.chip.Responsive :=
    Chip.Responsive.answer (show enabled.Responsive from ⟨rfl, rfl⟩) _
  have hentered : quad.quad = true := by decide
  clear_value quad
  have h := @bringUp_of_reachable bench (fresh .standard) _ id hreachable hresponsive rfl
  -- The run is not to be carried out to compare its ends.
  dsimp only at h ⊢
  generalize (fresh .standard).bringUp.run Bench.environment bench = ended at h ⊢
  obtain ⟨hreads, -, hended⟩ := h
  have hknown : Catalog.identify? id.manufacturer id.device ≠ none := by decide
  split at hended
  · rename_i hunknown
    exact absurd hunknown hknown
  · obtain ⟨hresult, -, hquad, -⟩ := hended
    exact ⟨hentered, hreachable, hresponsive, congrArg Prod.fst hresult, hquad, hreads⟩

end Engine

end NorFlash
