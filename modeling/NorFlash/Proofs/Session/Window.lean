import NorFlash.Proofs.Chip.Timing
import NorFlash.Proofs.Engine.Mapping
import NorFlash.Proofs.Engine.Variants
import NorFlash.Proofs.Session.Step

/-!
# The mapped window shows what reads deliver

What is stored can be looked at through the mapped window, or read. The two are checked apart: the
chip checks the mapping when it is made, and each read when it comes. A mapping succeeds only on a
chip that would hear and accept the reads of the engine, so `window_shows_reads` holds in every
state of a session, whatever has happened before: a read that nothing interferes with delivers what
the window shows, and ends the mapping.
-/

namespace NorFlash

namespace Chip

variable {chip : Chip} {device : Descriptor} {width : BusWidth}

/-- The command that reads of the mapped window issue is judged as the reads of an engine are. -/
theorem checkRead_mapping :
    chip.checkRead ((Engine.readCommand device width).atAddress 0 .quad) =
      chip.checkRead (Engine.readCommand device .quad) := by
  unfold Engine.readCommand
  cases device.modeWidth <;> rfl

/-- A mapping is made at the width of the bus. -/
theorem width_mapping : ((Engine.readCommand device width).atAddress 0 .quad).width = width := by
  unfold Engine.readCommand
  cases device.modeWidth <;> rfl

/-- A mapping is accepted if nothing makes it fail, and the chip would accept the reads that the
mapped window issues. -/
theorem isOk_map {command : Command} :
    (chip.map command).1.isOk = true ↔
      chip.refuses = false ∧ chip.Hears command.width ∧ chip.checkRead command = .ok () := by
  cases hrefuses : chip.refuses with
  | true =>
      have hdraw : chip.plan.next.1 = true := hrefuses
      simp [map, drawFailure, hdraw, Except.isOk, Except.toBool]
  | false =>
      by_cases hhears : chip.Hears command.width
      · simp [isOk_iff_verdict, verdict_map hhears hrefuses, hhears]
      · have hdeaf : (chip.asleep || !chip.listens command.width) = true := by
          cases hasleep : chip.asleep <;> simp_all [Hears]
        rw [map_eq hrefuses, hdeaf]
        simp [hhears, Except.isOk, Except.toBool]

/-- A mapping changes nothing that reads depend on. -/
theorem unrecorded_map (command : Command) :
    ∃ mapped, (chip.map command).2 = { chip.drawn with mapped } := by
  unfold map drawFailure drawn
  cases chip.plan.next.1 with
  | true => exact ⟨chip.mapped, rfl⟩
  | false =>
      dsimp only
      split
      · exact ⟨chip.mapped, rfl⟩
      · split
        · exact ⟨chip.mapped, rfl⟩
        · exact ⟨true, rfl⟩

/-- A chip that was mapped would answer reads from its memory. -/
theorem source_of_map
    (h : (chip.map ((Engine.readCommand device width).atAddress 0 .quad)).1.isOk = true) :
    let after := (chip.map ((Engine.readCommand device width).atAddress 0 .quad)).2
    after.source device width = .ok after.memory := by
  intro after
  obtain ⟨mapped, hafter⟩ := chip.unrecorded_map
    ((Engine.readCommand device width).atAddress 0 .quad)
  obtain ⟨-, hhears, hcheck⟩ := isOk_map.mp h
  rw [width_mapping] at hhears
  rw [checkRead_mapping] at hcheck
  show after.source device width = _
  rw [show after = { chip.drawn with mapped } from hafter]
  show (if chip.Hears width then
    (chip.checkRead (Engine.readCommand device .quad)).map fun _ => chip.memory else _) = _
  rw [if_pos hhears, hcheck]
  rfl

end Chip

namespace Engine

variable {engine : Engine} {device : Descriptor} {bench : Bench}

/-- The engine has mapped its device, whose reads would be answered from the chip's memory. -/
structure Windowed (engine : Engine) (device : Descriptor) (bench : Bench) : Prop where
  found : engine.requireDevice = .ok device
  mapped : bench.chip.mapped = true
  bus : ∃ width, bench.bus = some ⟨width, true⟩
  source : bench.footing.source device = .ok bench.chip.memory

/-- A mapping that the chip accepts is one whose reads it would answer. -/
theorem windowed_of_map {width : BusWidth} {start : Bench}
    (hdevice : engine.requireDevice = .ok device)
    (h : (start.chip.map ((readCommand device width).atAddress 0 .quad)).1.isOk = true)
    (hchip : bench.chip = (start.chip.map ((readCommand device width).atAddress 0 .quad)).2)
    (hbus : bench.bus = some ⟨width, true⟩) : engine.Windowed device bench := by
  refine ⟨hdevice, ?_, ⟨width, hbus⟩, ?_⟩
  · have hmapped := start.chip.mapped_answer (.map ((readCommand device width).atAddress 0 .quad))
    rw [hchip]
    refine hmapped.trans ?_
    show BusCall.maps _ _ (start.chip.map _).1 = true
    cases hreply : (start.chip.map ((readCommand device width).atAddress 0 .quad)).1 with
    | error cause => simp [hreply, Except.isOk, Except.toBool] at h
    | ok received => rfl
  · have hsource := Chip.source_of_map h
    rw [← hchip] at hsource
    unfold Footing.source
    simp only [Bench.footing, hbus]
    show (bench.chip.source device width).mapError Fault.bus = _
    rw [hsource]
    rfl

/-- Whatever the chip's state, a mapping that succeeds is one whose reads would be answered. -/
theorem ends_enterMapped :
    engine.enterMapped.Ends Bench.environment
      (fun _ after => ∃ device, engine.Windowed device after) (fun _ _ => True) bench := by
  unfold enterMapped
  rw [Action.ends_bind, Action.ends_ofExcept]
  cases hdevice : engine.requireDevice with
  | error fault => trivial
  | ok device =>
      cases hbus : bench.bus with
      | none => exact ends_withBus_busy hbus trivial
      | some bus =>
          refine (ends_withBus_taken hbus).mpr ?_
          rw [BusAction.ends_bind, BusAction.ends_width]
          dsimp only
          rw [BusAction.ends_bind, BusAction.ends_discard]
          unfold BusAction.call
          rw [BusAction.ends_lift, Action.ends_iff, Action.run_call]
          cases hreply : ((bench.taken bus).chip.answer
              (.map ((readCommand device bus.width).atAddress 0 .quad))).1.reply with
          | error cause => trivial
          | ok received =>
              have hok : ((bench.taken bus).chip.map
                  ((readCommand device bus.width).atAddress 0 .quad)).1.isOk = true := by
                rw [show ((bench.taken bus).chip.map _).1 = .ok received from hreply]
                rfl
              exact ⟨device, windowed_of_map hdevice hok (Bench.chip_call ..) rfl⟩

/-- How calls fail and complete makes no difference to the window. -/
theorem Windowed.alike {after : Bench} (h : engine.Windowed device bench)
    (hafter : bench.Alike after) : engine.Windowed device after := by
  obtain ⟨plan, completion, hchip⟩ := hafter.chip
  obtain ⟨width, hbus⟩ := h.bus
  have hsource := h.source
  refine ⟨h.found, ?_, ⟨width, hafter.bus.trans hbus⟩, ?_⟩
  · rw [hchip]
    exact h.mapped
  · simp only [Footing.source, Bench.footing, hafter.bus, hbus, hchip] at hsource ⊢
    exact hsource

/-- On a responsive bench a read delivers what the window shows, and ends the mapping. -/
theorem Windowed.run_read (h : engine.Windowed device bench)
    (hresponsive : bench.chip.Responsive) (address : UInt32) {length : Nat} (hlength : length ≠ 0)
    (hrange : address.toNat + length ≤ engine.capacity) :
    let ended := (engine.perform (.read address length)).run Bench.environment bench
    ended.1 = ⟨.ok (.bytes (bench.chip.memory.read address.toNat length)), none⟩ ∧
      ended.2.chip.mapped = false ∧ ∃ width, ended.2.bus = some ⟨width, false⟩ := by
  obtain ⟨width, hbus⟩ := h.bus
  have hgives := gives_read h.found (checkRange_eq_ok_iff.mpr hrange) hlength
    (show bench.footing.chip.Responsive from hresponsive)
  rw [h.source] at hgives
  obtain ⟨houtcome, hfooting⟩ := run_of_gives hgives
  have hsettled : bench.footing.settled device =
      ⟨{ bench.chip.unrecorded.attended width with mapped := false }, some ⟨width, false⟩⟩ := by
    simp only [Footing.settled, Bench.footing, hbus, Bool.not_true, Bool.and_false,
      Bool.false_and]
  rw [hsettled] at hfooting
  exact ⟨houtcome, congrArg (·.chip.mapped) hfooting, width, congrArg Footing.bus hfooting⟩

end Engine

namespace Session

variable {session : Session}

/-- An operation of the engine is carried out alike below a block device. -/
theorem take_operation (session : Session) (operation : Operation) :
    session.take (.request (.engine (.operation operation))) =
      let ended := (session.subject.flash.perform operation).run Bench.environment
        session.quietBench
      (.outcome ended.1 (shownReports (.engine (.operation operation)) ended.2),
        { session with bench := ended.2 }) := by
  obtain ⟨bench, subject, timeouts⟩ := session
  cases subject with
  | engine flash =>
      rw [take_request rfl, Program.run_bind]
      unfold Engine.serve
      rw [Program.run_bind]
      rfl
  | device blocks =>
      rw [take_request rfl, Program.run_bind]
      unfold BlockDevice.serve
      rw [Program.run_bind]
      rfl

/-- A session that has been answered that the device is mapped. -/
theorem windowed_of_enterMapped (session : Session)
    (h : (session.take (.request (.engine (.operation .enterMapped)))).1.isOk = true) :
    ∃ device, session.subject.flash.Windowed device
      (session.take (.request (.engine (.operation .enterMapped)))).2.bench := by
  rw [take_operation] at h ⊢
  have hended : ((Outcome.ofUnit <$> session.subject.flash.enterMapped.run).Ends Bench.environment
      (fun outcome after => outcome.result.isOk = true →
        ∃ device, session.subject.flash.Windowed device after) session.quietBench) := by
    rw [Program.ends_map]
    refine Program.Ends.mono session.subject.flash.ends_enterMapped ?_
    rintro (fault | _) after hafter hok
    · cases hok
    · exact hafter
  exact hended h

/-- The session once nothing is made to fail any more, and completions are reported at once. -/
def calmed (session : Session) : Session :=
  (session.takeAll [.failing 0 0, .setCompletion .immediate]).2

/-- In any state in which the device can be mapped, the window shows at every address what a read
there delivers that nothing interferes with, and the read ends the mapping. -/
theorem window_shows_reads (session : Session)
    (henter : (session.take (.request (.engine (.operation .enterMapped)))).1.isOk = true)
    {address : UInt32} {length : Nat} (hlength : length ≠ 0)
    (hrange : address.toNat + length ≤ session.subject.flash.capacity) :
    let entered := (session.take (.request (.engine (.operation .enterMapped)))).2
    ∃ bytes, (entered.take (.readMapped address length)).1 = .bytes bytes ∧
      entered.calmed.Answers (.engine (.operation (.read address length))) fun outcome after =>
        outcome = ⟨.ok (.bytes bytes), none⟩ ∧
          (after.take (.readMapped address length)).1 = .unmapped ∧
          ∃ width, after.bench.bus = some ⟨width, false⟩ := by
  intro entered
  obtain ⟨device, hwindowed⟩ := session.windowed_of_enterMapped henter
  have hflash : entered.subject.flash = session.subject.flash :=
    congrArg (·.2.subject.flash) (session.take_operation .enterMapped)
  have halike : entered.bench.Alike entered.calmed.quietBench :=
    ⟨rfl, rfl, ⟨0, 0⟩, .immediate, rfl⟩
  obtain ⟨houtcome, hmapped, hbus⟩ :=
    (hwindowed.alike halike).run_read ⟨rfl, rfl⟩ address hlength hrange
  refine ⟨entered.bench.chip.memory.read address.toNat length, ?_, ?_⟩
  · have hshown : entered.bench.chip.readMapped address length =
        some (entered.bench.chip.memory.read address.toNat length) := if_pos hwindowed.mapped
    simp only [take, hshown]
  · unfold Answers
    rw [take_operation]
    have hcalmed : entered.calmed.subject.flash = session.subject.flash := hflash
    rw [hcalmed]
    refine ⟨_, _, rfl, houtcome, ?_, hbus⟩
    have hhidden : Chip.readMapped _ address length = none :=
      if_neg (Bool.not_eq_true _ ▸ hmapped)
    simp only [take, hhidden]

/-- A device that has slept, and a failure that waits for the call after the mapping. -/
theorem window_shows_reads_after_sleep :
    let steps := [.request (.engine .bringUp), .poke 0x1FFFFF [0x5A],
      .request (.engine (.operation (.sleep true))),
      .request (.engine (.operation (.sleep false))), .failing 1 1]
    let session := ((start ⟨0xEF, 0x4015⟩ .standard false).takeAll steps).2
    let entered := (session.take (.request (.engine (.operation .enterMapped)))).2
    ∃ bytes, (entered.take (.readMapped 0x1FFFFF 1)).1 = .bytes bytes ∧
      entered.calmed.Answers (.engine (.operation (.read 0x1FFFFF 1))) fun outcome after =>
        outcome = ⟨.ok (.bytes bytes), none⟩ ∧
          (after.take (.readMapped 0x1FFFFF 1)).1 = .unmapped ∧
          ∃ width, after.bench.bus = some ⟨width, false⟩ := by
  intro steps session
  have henter : (session.take (.request (.engine (.operation .enterMapped)))).1.isOk = true := by
    decide +kernel
  have hrange : (0x1FFFFF : UInt32).toNat + 1 ≤ session.subject.flash.capacity := by
    decide +kernel
  exact window_shows_reads session henter Nat.one_ne_zero hrange

end Session

end NorFlash
