import NorFlash.Proofs.Engine.Unheard

/-!
# A write that succeeds has stored its data

A chip can be in any state when a write begins: asleep, in quad protocol, with latches set, failures
to come, or completions that arrive late or never. `write_takes_effect` says that a write which
succeeds was heard throughout and stored all of its data, whatever the state was, and that no write
changes anything outside its range.
-/

namespace NorFlash

namespace Operation

/-- The address and the data of a write, whichever way it reports progress. -/
def written? : Operation → Option (UInt32 × Bytes)
  | write address bytes | writeReporting address bytes | writeMetered address bytes =>
      some (address, bytes)
  | _ => none

end Operation

/-- What holds of an operation without value when its action succeeds, and what when it fails. -/
theorem Action.ends_ofUnit {σ : Type} {environment : Environment σ} {action : Action Unit}
    {good bad : σ → Prop} {state : σ}
    (h : action.Ends environment (fun _ after => good after) (fun _ after => bad after) state) :
    (Outcome.ofUnit <$> action.run).Ends environment
      (fun outcome after => (outcome.result.isOk = true → good after) ∧
        (outcome.result.isOk = false → bad after)) state := by
  rw [Program.ends_map]
  refine Program.Ends.mono h ?_
  rintro result after hafter
  rw [Outcome.isOk_ofUnit]
  cases result with
  | ok _ =>
      exact ⟨fun _ => hafter, fun hfailed => by simp [Except.isOk, Except.toBool] at hfailed⟩
  | error fault =>
      exact ⟨fun hok => by simp [Except.isOk, Except.toBool] at hok, fun _ => hafter⟩

/-- As `Action.ends_ofUnit`, where what holds of a failure holds in any case. -/
theorem Action.ends_outcome {action : Action Unit} {good always : Bench → Prop} {bench : Bench}
    (h : action.Ends Bench.environment (fun _ after => good after) (fun _ after => always after)
      bench) (hgood : ∀ after, good after → always after) :
    (Outcome.ofUnit <$> action.run).Ends Bench.environment
      (fun outcome after => (outcome.result.isOk → good after) ∧ always after) bench := by
  refine (Action.ends_ofUnit h).mono fun outcome after hafter => ⟨hafter.1, ?_⟩
  cases hresult : outcome.result.isOk with
  | true => exact hgood after (hafter.1 hresult)
  | false => exact hafter.2 hresult

namespace Engine

variable {engine : Engine} {identity : Identity} {bench : Bench}

/-- The engine has identified the chip on the bench, whose memory is as large as its identification
says. The chip's state does not matter. -/
structure Identified (engine : Engine) (identity : Identity) (bench : Bench) : Prop where
  identity_eq : engine.identity = some identity
  knows : Catalog.Knows bench.chip.id identity
  bits : bench.chip.memory.bits = (Memory.blank bench.chip.id.capacityCode).bits

namespace Identified

variable (h : engine.Identified identity bench)

include h

/-- The memory is as large as the device that was identified. -/
theorem size_eq : bench.chip.memory.size = identity.device.capacity := by
  rw [h.knows.capacity_eq, Memory.size, Memory.size, h.bits]

/-- An engine that gets through to the chip it has identified serves it. -/
theorem serving {bus : BusState} (hbus : bench.bus = some bus)
    (hhears : bench.chip.Hears bus.width) :
    engine.Serving bench.chip.id identity bus.width bench :=
  ⟨⟨h.identity_eq, ⟨bus, hbus, rfl⟩, hhears⟩, h.knows, h.bits⟩

end Identified

/-- A write took effect: there was room for the data, and it was programmed. -/
structure Wrote (address : Nat) (bytes : Bytes) (bench after : Bench) : Prop where
  room : bytes ≠ [] → address + bytes.length ≤ bench.chip.memory.size
  masked : Memory.Masked address bytes bench.chip.memory after.chip.memory

/-- A write stores its data or fails, and changes nothing outside its range. -/
theorem ends_writeReporting_identified (h : engine.Identified identity bench)
    (htruthful : bench.Truthful) (address : UInt32) (bytes : Bytes) :
    (engine.writeReporting address bytes).Ends Bench.environment
      (fun _ after => Wrote address.toNat bytes bench after)
      (fun _ after => Memory.Within address.toNat (address.toNat + bytes.length)
        bench.chip.memory after.chip.memory) bench := by
  by_cases hreaches : bench.Reaches
  · obtain ⟨bus, hbus, hhears⟩ := hreaches
    refine (ends_writeReporting (h.serving hbus hhears) address bytes).mono ?_ ?_
    · exact fun _ after hafter => ⟨hafter.2.2, hafter.2.1⟩
    · exact fun fault after hafter => hafter.memory
  · unfold writeReporting
    rw [requireDevice_of_identity h.identity_eq, Action.ends_bind, Action.ends_discard,
      Action.ends_ofExcept]
    show Action.Ends _ (if _ then _ else _) _ _ _
    split
    · rename_i hempty
      subst hempty
      exact ⟨fun hne => absurd rfl hne, Memory.masked_nil ..⟩
    · rename_i hbytes
      rw [Action.ends_bind, Action.ends_ofExcept]
      cases engine.checkRange address bytes.length with
      | error fault => exact .refl ..
      | ok _ =>
          show Action.Ends _ (_ >>= _) _ _ _
          rw [Action.ends_bind, Action.ends_report, Page.cut_of_ne_nil _ hbytes]
          -- The first page already fails, so nothing is programmed.
          show Action.Ends _ (engine.programPiece address.toNat _ >>= fun _ => _) _ _ _
          unfold programPiece
          rw [Action.ends_bind, Action.ends_bind]
          have hunreached : ¬(bench.withReports (bench.reports.push 0)).Reaches := hreaches
          refine (ends_pageProgram_unheard hunreached (htruthful.congr rfl rfl rfl) _ _).mono ?_ ?_
          · exact fun _ _ hnever => absurd hnever id
          · exact fun fault after hafter => .of_eq hafter

/-- A write that succeeds has stored its data, and no write changes anything outside its range. -/
theorem write_takes_effect (h : engine.Identified identity bench) (htruthful : bench.Truthful)
    {operation : Operation} {address : UInt32} {bytes : Bytes}
    (hoperation : operation.written? = some (address, bytes)) :
    (engine.perform operation).Ends Bench.environment
      (fun outcome after =>
        (outcome.result.isOk →
          (bytes ≠ [] → address.toNat + bytes.length ≤ bench.chip.memory.size) ∧
            ∀ offset (_ : offset < bytes.length),
              after.chip.memory.byteAt (address.toNat + offset) =
                bench.chip.memory.byteAt (address.toNat + offset) &&& bytes[offset]) ∧
        Memory.Within address.toNat (address.toNat + bytes.length) bench.chip.memory
          after.chip.memory) bench := by
  have hreporting := ends_writeReporting_identified h htruthful address bytes
  have hwithin : ∀ after, Wrote address.toNat bytes bench after →
      Memory.Within address.toNat (address.toNat + bytes.length) bench.chip.memory
        after.chip.memory := fun after hafter => hafter.masked.toWithin
  have hsilenced : (engine.writeReporting address bytes).silenced.Ends Bench.environment
      (fun _ after => Wrote address.toNat bytes bench after)
      (fun _ after => Memory.Within address.toNat (address.toNat + bytes.length)
        bench.chip.memory after.chip.memory) bench := by
    refine Action.ends_silenced (hreporting.mono ?_ ?_)
    · exact fun _ after hafter => ⟨hafter.room, hafter.masked⟩
    · exact fun fault after hafter => hafter
  have hperform : (engine.perform operation).Ends Bench.environment
      (fun outcome after =>
        (outcome.result.isOk → Wrote address.toNat bytes bench after) ∧
        Memory.Within address.toNat (address.toNat + bytes.length) bench.chip.memory
          after.chip.memory) bench := by
    cases operation with
    | write | writeMetered =>
        obtain ⟨rfl, rfl⟩ := Prod.mk.inj (Option.some.inj hoperation)
        exact Action.ends_outcome hsilenced hwithin
    | writeReporting =>
        obtain ⟨rfl, rfl⟩ := Prod.mk.inj (Option.some.inj hoperation)
        exact Action.ends_outcome hreporting hwithin
    | _ => simp [Operation.written?] at hoperation
  refine hperform.mono fun outcome after hafter => ⟨fun hok => ?_, hafter.2⟩
  obtain ⟨hroom, hmasked⟩ := hafter.1 hok
  exact ⟨hroom, fun offset hoffset => hmasked.byteAt_eq hoffset⟩

/-- Data across the end of a page, over bytes that are not erased, on a chip that will fail later
and with a completion of an earlier operation still on its way. -/
theorem write_takes_effect_over_stored :
    let identity : Identity :=
      ⟨Catalog.winbond, ⟨0x4015, "W25Q16DV", 4096, false, 8, some .quad⟩⟩
    let chip := { (Chip.fresh ⟨0xEF, 0x4015⟩).overwrite 0x1FE [0xF0, 0x0F, 0x33] with
      quad := true, plan := ⟨9, 1⟩, completion := .delayed 3 }
    let bench := { Bench.ofChip chip with bus := some ⟨.quad, true⟩, deliveries := [⟨⟨0⟩, 5⟩] }
    let ended := ((Engine.mk .standard (some identity)).perform
      (.writeReporting 0x1FE [0x3C, 0x3C, 0x3C])).run Bench.environment bench
    ended.1.result.isOk = true ∧ ended.2.chip.memory.byteAt 0x1FE = 0x30 ∧
      ended.2.chip.memory.byteAt 0x1FF = 0x0C ∧ ended.2.chip.memory.byteAt 0x200 = 0x30 ∧
      ended.2.chip.memory.byteAt 0x201 = Bytes.erased := by
  intro identity chip bench ended
  have hidentified : (Engine.mk .standard (some identity)).Identified identity bench :=
    ⟨rfl, rfl, rfl⟩
  have htruthful : bench.Truthful :=
    ⟨⟨rfl, by decide⟩, ⟨rfl, by decide⟩⟩
  have h := write_takes_effect hidentified htruthful
    (show (Operation.writeReporting 0x1FE [0x3C, 0x3C, 0x3C]).written? = _ from rfl)
  have hok : ended.1.result.isOk = true := by decide +kernel
  obtain ⟨heffect, hwithin⟩ := h
  obtain ⟨-, hstored⟩ := heffect hok
  exact ⟨hok, (hstored 0 (by decide)).trans (by decide), (hstored 1 (by decide)).trans (by decide),
    (hstored 2 (by decide)).trans (by decide),
    (hwithin.byteAt 0x201 (by decide) (by decide)).trans (by decide)⟩

end Engine

end NorFlash
