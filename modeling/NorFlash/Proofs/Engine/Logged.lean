import NorFlash.Proofs.Chip.Discipline
import NorFlash.Proofs.Engine.Writing
import NorFlash.Proofs.Page

/-!
# Operations that nothing gets in the way of

On a responsive bench whose chip hears the engine, a page program and an erase succeed, and the chip
logs the one change that each of them makes. `Bench.Logs` says what was added to the log; a write
logs the pages of its data one after the other, `Engine.ends_write_logs`. What such an operation
does to the memory is known from how it ends on any bench.
-/

namespace NorFlash

/-! ## What is logged of a write -/

namespace Memory

variable {memory : Memory} {start stop : Nat} {piece : PagePiece}

/-- Where the data can be stored as it is, the course of programming it depends only on whether all
of it falls on erased bytes. -/
theorem course_programs {start : Nat} (offset : Nat) (course : Programming) (bytes : Bytes)
    (hpage : start % pageSize + offset + bytes.length ≤ pageSize)
    (hsize : start + offset + bytes.length ≤ course.memory.size)
    (hfits : mask (course.memory.read (start + offset) bytes.length) bytes = bytes) :
    ((bytes.zipIdx offset).foldl (programByte start) course).ontoErased =
        (course.ontoErased &&
          (course.memory.read (start + offset) bytes.length).all (· == Bytes.erased)) ∧
      ((bytes.zipIdx offset).foldl (programByte start) course).needsErase = course.needsErase := by
  induction bytes generalizing offset course with
  | nil => exact ⟨(Bool.and_true _).symm, rfl⟩
  | cons byte rest ih =>
      rw [List.length_cons] at hpage hsize
      have hmasked := masked_programByte course byte (show start % pageSize + offset < pageSize by
        omega) (by omega)
      have hread : (programByte start course (byte, offset)).memory.read (start + (offset + 1))
          rest.length = course.memory.read (start + offset + 1) rest.length :=
        hmasked.toWithin.read_eq (by omega) (.inr (Nat.le_of_eq (Nat.add_assoc start offset 1)))
      have hsplit : course.memory.read (start + offset) (rest.length + 1) =
          course.memory.byteAt (start + offset) ::
            course.memory.read (start + offset + 1) rest.length := by
        rw [Nat.add_comm rest.length, read_add]
        rfl
      rw [List.length_cons, hsplit] at hfits ⊢
      obtain ⟨hbyte, hrest⟩ := List.cons.inj hfits
      have hcell : course.memory.programCell start offset = start + offset :=
        programCell_of_lt course.memory (by omega) (by omega)
      obtain ⟨honto, hneeds⟩ := ih (offset + 1) (programByte start course (byte, offset))
        (by omega) (by rw [hmasked.size]; omega) (by rw [hread]; exact hrest)
      rw [List.zipIdx_cons, List.foldl_cons]
      refine ⟨honto.trans ?_, hneeds.trans ?_⟩
      · rw [hread, programByte, hcell, List.all_cons, Bool.and_assoc]
      · have hkept : course.memory.byteAt (start + offset) &&& byte = byte := hbyte
        simp [programByte, hcell, hkept]

/-- The piece lies within a page of the memory, where it can be stored as it is. -/
structure Takes (memory : Memory) (piece : PagePiece) : Prop where
  page : piece.address % pageSize + piece.bytes.length ≤ pageSize
  size : piece.address + piece.bytes.length ≤ memory.size
  fits : mask (memory.read piece.address piece.bytes.length) piece.bytes = piece.bytes

/-- What a chip logs of a piece that is stored as it is: the flags tell whether all of it falls on
erased bytes, and that it needs no erase. -/
def storedEvent (memory : Memory) (piece : PagePiece) : MemoryEvent :=
  .program (UInt32.ofNat piece.address) piece.bytes.length
    ((memory.read piece.address piece.bytes.length).all (· == Bytes.erased)) false

/-- What is logged of a piece that can be stored is that it was. -/
theorem Takes.programEvent_eq (h : memory.Takes piece)
    (haddress : (UInt32.ofNat piece.address).toNat = piece.address) :
    memory.programEvent (UInt32.ofNat piece.address) piece.bytes = memory.storedEvent piece := by
  obtain ⟨honto, hneeds⟩ := course_programs 0 ⟨memory, true, false⟩ piece.bytes h.page h.size h.fits
  rw [Bool.true_and] at honto
  unfold programEvent program storedEvent
  rw [haddress]
  exact congr (congrArg _ honto) hneeds

/-- A change elsewhere makes no difference to a piece. -/
theorem read_piece {changed : Memory} (h : Within start stop memory changed)
    (hstop : stop ≤ piece.address) (hsize : piece.address + piece.bytes.length ≤ memory.size) :
    changed.read piece.address piece.bytes.length = memory.read piece.address piece.bytes.length :=
  h.read_eq hsize (.inr hstop)

/-- What changed before a piece does not matter for storing it. -/
theorem Takes.of_within {changed : Memory} (h : memory.Takes piece)
    (hwithin : Within start stop memory changed) (hstop : stop ≤ piece.address) :
    changed.Takes piece :=
  ⟨h.page, hwithin.size ▸ h.size, read_piece hwithin hstop h.size ▸ h.fits⟩

/-- What changed before a piece does not matter for what is logged of it. -/
theorem storedEvent_of_within {changed : Memory} (h : memory.Takes piece)
    (hwithin : Within start stop memory changed) (hstop : stop ≤ piece.address) :
    changed.storedEvent piece = memory.storedEvent piece := by
  unfold storedEvent
  rw [read_piece hwithin hstop h.size]

/-- The erase of an aligned unit is logged with the unit. -/
theorem eraseEvent_of_dvd (memory : Memory) {unitBits : Nat} (hdvd : addressable unitBits ∣ start)
    (hsize : start + addressable unitBits ≤ memory.size) :
    memory.eraseEvent unitBits start = .erase start (addressable unitBits) := by
  have hpos := addressable_pos unitBits
  unfold eraseEvent
  rw [Nat.min_eq_left (by omega), index_of_lt (by omega)]
  dsimp only
  rw [Nat.div_mul_cancel hdvd]

end Memory

namespace Chip

/-- As `Idle`, with the log of changes as before. -/
structure Still (before after : Chip) : Prop extends Idle before after where
  events : after.events = before.events

variable {chip : Chip} {width : BusWidth}

/-- A chip that is left alone is still. -/
theorem still_refl (chip : Chip) : Still chip chip :=
  ⟨idle_refl chip, rfl⟩

/-- To abort leaves a chip still. -/
theorem still_abort (chip : Chip) : Still chip (chip.answer .abort).2 :=
  ⟨⟨⟨rfl, rfl, rfl, rfl, fun h => h, rfl⟩, rfl, rfl, rfl, rfl⟩, rfl⟩

/-- To poll leaves a chip still. -/
theorem still_poll (chip : Chip) (poll : StatusPoll) : Still chip (chip.answer (.poll poll)).2 := by
  have hlog : Still chip (chip.drawn.log poll.instruction) :=
    ⟨⟨⟨rfl, rfl, rfl, rfl, failures_next, rfl⟩, rfl, rfl, rfl, rfl⟩, rfl⟩
  simp only [answer, Chip.poll, drawFailure]
  cases chip.plan.next.1 with
  | true => exact ⟨idle_drawn chip, rfl⟩
  | false => exact hlog

/-- A chip that hears the poll is found idle at once. -/
theorem answer_idlePoll (hresponsive : chip.Responsive) (hhears : chip.Hears width) :
    (chip.answer (.poll (Engine.idlePoll width))).1 = ⟨silent, true⟩ := by
  have hstatus : chip.drawn.polledStatus (Engine.idlePoll width) = chip.status1.value := by
    have hheard : (chip.drawn.listens width && !chip.drawn.asleep) = true :=
      (Bool.and_eq_true ..).mpr ⟨hhears.2, congrArg not hhears.1⟩
    simp [polledStatus, Engine.idlePoll, hheard]
    rfl
  have hidle : (chip.status1.value &&& Status1.busyMask == 0) = true := by
    unfold status1
    cases chip.latches.writeEnable <;> decide
  have hmatches : (chip.drawn.polledStatus (Engine.idlePoll width) &&& Status1.busyMask == 0) =
      true := hstatus ▸ hidle
  have hdraw : chip.plan.next.1 = false := not_refuses_of_responsive hresponsive
  simp only [answer, Chip.poll, drawFailure, hdraw]
  exact congrArg (Answer.mk silent) hmatches

end Chip

namespace Program

/-- A deferred call that is answered and completed is not given up. -/
theorem run_exchange_done {bench : Bench} {request : BusCall} {received : Option Bytes}
    (hcompletion : bench.chip.completion = .immediate)
    (hreply : (bench.chip.answer request).1.reply = .ok received)
    (hcompletes : (bench.chip.answer request).1.completes = true) (patience : Nat) :
    (exchange request patience).run Bench.environment bench =
      ((received, .ok ()), ((bench.arm.call request).2.await patience).2) := by
  have hdone : (bench.arm.call request).2.event.done = true :=
    Bench.done_call hcompletion hcompletes
  have harrived : ((bench.arm.call request).2.await patience).1 = true := by
    simp [Bench.await, hdone]
  rw [run_exchange_ok bench request patience hreply, if_pos harrived]

end Program

namespace BusAction

variable {bench : Bench} {bus : BusState} {command : Command} {instruction : Instruction}
  {received : Option Bytes} {patience : Nat} {bad : Fault → BusState → Bench → Prop}

/-- A transfer that the chip answers and completes at once is done. -/
theorem ends_transfer_done {request : BusCall} {ok : Option Bytes → BusState → Bench → Prop}
    (hcompletion : bench.chip.completion = .immediate)
    (hreply : (bench.chip.answer request).1.reply = .ok received)
    (hcompletes : (bench.chip.answer request).1.completes = true)
    (hok : ∀ after : Bench, after.chip = (bench.chip.answer request).2 → ok received bus after) :
    (transfer request patience).Ends Bench.environment ok bad bus bench := by
  unfold transfer
  rw [ends_bind, ends_lift, Action.ends_liftM]
  unfold Program.Ends
  rw [Program.run_exchange_done hcompletion hreply hcompletes]
  have hchip : ((bench.arm.call request).2.await patience).2.chip =
      (bench.chip.answer request).2 := by
    rw [Bench.chip_await, Bench.chip_call]
    rfl
  exact hok _ hchip

/-- A deferred command that is heard and answered with nothing takes its effect. -/
theorem ends_start_done {ok : Unit → BusState → Bench → Prop}
    (hresponsive : bench.chip.Responsive) (hhears : bench.chip.Hears command.width)
    (hdecode : Instruction.decode? bench.chip.vendor command.instruction = some instruction)
    (hreply : (bench.chip.heed instruction command).1 = Chip.silent)
    (hok : ∀ after : Bench, after.chip = (bench.chip.heed instruction command).2 →
      after.chip.Responsive → ok () bus after) :
    (discard (transfer (.start command) patience)).Ends Bench.environment ok bad bus bench := by
  have haccept : (bench.chip.accept command).1 = .ok none := by
    rw [Chip.accept_of_decode hhears hdecode, hreply]
    rfl
  have hexecute : bench.chip.execute command = bench.chip.heed instruction command := by
    rw [Chip.execute_eq, Chip.not_refuses_of_responsive hresponsive,
      Chip.accept_of_decode hhears hdecode]
    rfl
  have hanswer : (bench.chip.answer (.start command)).1.reply = .ok none :=
    (congrArg Prod.fst hexecute).trans hreply
  rw [ends_discard]
  refine ends_transfer_done hresponsive.2 hanswer (congrArg Except.isOk hanswer) fun after h => ?_
  exact hok after (h.trans (congrArg Prod.snd hexecute)) (h ▸ hresponsive.answer _)

/-- As `ends_start_done`, for a command that is carried out at once. -/
theorem ends_call_done {ok : Unit → BusState → Bench → Prop}
    (hresponsive : bench.chip.Responsive) (hhears : bench.chip.Hears command.width)
    (hdecode : Instruction.decode? bench.chip.vendor command.instruction = some instruction)
    (hreply : (bench.chip.heed instruction command).1 = Chip.silent)
    (hok : ∀ after : Bench, after.chip = (bench.chip.heed instruction command).2 →
      after.chip.Responsive → ok () bus after) :
    (discard (call (.command command))).Ends Bench.environment ok bad bus bench := by
  rw [ends_discard, call, ends_lift]
  refine Action.ends_heard hhears hdecode hreply (fun after hissued hafter =>
    hok after hafter (hissued.responsive hresponsive)) ?_
  exact fun after hissued => absurd hresponsive hissued.not_responsive

end BusAction

namespace Bench

/-- Nothing can fail, and these changes were added to the log. -/
structure Logs (logged : List MemoryEvent) (bench after : Bench) : Prop where
  responsive : after.chip.Responsive
  events : after.chip.events.toList = bench.chip.events.toList ++ logged

variable {bench middle after : Bench} {logged more : List MemoryEvent}

/-- Where nothing happens, nothing is logged. -/
theorem Logs.nothing (h : bench.chip.Responsive) : bench.Logs [] bench :=
  ⟨h, (List.append_nil _).symm⟩

/-- What is logged first stands before what is logged next. -/
theorem Logs.trans (h : bench.Logs logged middle) (hnext : middle.Logs more after) :
    bench.Logs (logged ++ more) after :=
  ⟨hnext.responsive, by rw [hnext.events, h.events, List.append_assoc]⟩

/-- Where nothing is logged, the log is as it was. -/
theorem Logs.events_eq (h : bench.Logs [] after) : after.chip.events = bench.chip.events :=
  Array.toList_inj.mp (h.events.trans (List.append_nil _))

/-- Reports are not logged by the chip. -/
theorem Logs.withReports (h : bench.Logs logged after) (reports : Array Nat) :
    bench.Logs logged (after.withReports reports) :=
  ⟨h.responsive, h.events⟩

end Bench

namespace Engine

variable {α : Type} {bench after : Bench} {engine : Engine} {bus : BusState} {identity : Identity}
  {id : JedecId} {width : BusWidth}

/-- Taking the bus changes nothing that is logged. -/
theorem ends_withBus_still {action : BusAction α} {ok : α → Bench → Prop}
    {bad : Fault → Bench → Prop} (hbus : bench.bus = some bus)
    (h : ∀ start : Bench, Chip.Still bench.chip start.chip →
      action.Ends Bench.environment
        (fun value last after => ok value { after with bus := some last })
        (fun fault last after => bad fault { after with bus := some last })
        { bus with mapped := false } start) :
    (engine.withBus action).Ends Bench.environment ok bad bench := by
  unfold withBus
  rw [ends_holdingBus hbus, BusAction.ends_bind]
  obtain ⟨width, mapped⟩ := bus
  cases mapped with
  | false => exact h _ (Chip.still_refl _)
  | true => exact h _ ((Bench.chip_call ..).symm ▸ Chip.still_abort _)

/-- The write enable latch is set and nothing else changed, which leaves the chip ready to write. -/
structure Enabled (bench after : Bench) : Prop where
  mode : after.chip.mode = bench.chip.mode
  memory : after.chip.memory = bench.chip.memory
  events : after.chip.events = bench.chip.events
  latch : after.chip.latches.writeEnable = true
  responsive : after.chip.Responsive

/-- On a responsive bench that hears it, a write is enabled. -/
theorem ends_enableWrite_done {ok : Unit → BusState → Bench → Prop}
    {bad : Fault → BusState → Bench → Prop} (hresponsive : bench.chip.Responsive)
    (hhears : bench.chip.Hears bus.width)
    (hok : ∀ after : Bench, Enabled bench after → ok () bus after) :
    enableWrite.Ends Bench.environment ok bad bus bench := by
  have hdecode := Instruction.decode?_of_shared
    (show Instruction.shared.lookup Opcode.writeEnable.code = some .enableWrite by decide)
    bench.chip.vendor
  unfold enableWrite
  rw [BusAction.ends_bind, BusAction.ends_width]
  refine BusAction.ends_call_done hresponsive hhears hdecode rfl fun after hchip hafter => ?_
  exact hok after ⟨hchip ▸ Chip.mode_heed rfl, hchip ▸ rfl, hchip ▸ rfl, hchip ▸ rfl, hafter⟩

/-- On a responsive bench that hears it, a wait finds the chip idle. -/
theorem ends_waitWhileBusy_done {ok : Unit → BusState → Bench → Prop}
    {bad : Fault → BusState → Bench → Prop} {patience : Nat}
    (hresponsive : bench.chip.Responsive) (hhears : bench.chip.Hears bus.width)
    (hok : ∀ after : Bench, Chip.Still bench.chip after.chip → ok () bus after) :
    (waitWhileBusy patience).Ends Bench.environment ok bad bus bench := by
  have hanswer := Chip.answer_idlePoll hresponsive hhears
  unfold waitWhileBusy
  rw [BusAction.ends_bind, BusAction.ends_width, BusAction.ends_discard]
  refine BusAction.ends_transfer_done hresponsive.2 (congrArg Answer.reply hanswer)
    (congrArg Answer.completes hanswer) fun after hafter => ?_
  exact hok after (hafter ▸ Chip.still_poll ..)

/-- On a responsive bench, a page program succeeds and logs its one change. -/
theorem ends_pageProgram_logs (h : engine.Attuned identity width bench)
    (hresponsive : bench.chip.Responsive) (address : UInt32) (bytes : Bytes) :
    (engine.pageProgram address bytes).Ends Bench.environment
      (fun _ after => bench.Logs [bench.chip.memory.programEvent address bytes] after)
      (fun _ _ => False) bench := by
  obtain ⟨bus, hbus, rfl⟩ := h.bus
  unfold pageProgram
  rw [requireDevice_of_identity h.identity, Action.ends_bind, Action.ends_discard,
    Action.ends_ofExcept]
  refine ends_withBus_still hbus fun start hstill => ?_
  have hstart := h.hears.of_mode hstill.mode
  rw [BusAction.ends_bind, BusAction.ends_width, BusAction.ends_bind]
  refine ends_enableWrite_done (hstill.responsive hresponsive) hstart fun ready hready => ?_
  have hheard := hstart.of_mode hready.mode
  have hdecode := Instruction.decode?_of_shared
    (show Instruction.shared.lookup Opcode.pageProgram.code = some .program by decide)
    ready.chip.vendor
  rw [BusAction.ends_bind]
  refine BusAction.ends_start_done hready.responsive hheard hdecode rfl fun done hdone hended => ?_
  have hmode : done.chip.mode = ready.chip.mode := hdone ▸ Chip.mode_heed rfl
  refine ends_waitWhileBusy_done hended (hheard.of_mode hmode) fun after hafter => ?_
  refine ⟨hafter.responsive hended, ?_⟩
  show after.chip.events.toList = _
  rw [hafter.events, hdone, Chip.events_heed_program hready.latch rfl rfl, hready.memory,
    hready.events, hstill.memory, hstill.events, Array.toList_push]

/-- On a responsive bench, an erase of a unit succeeds and logs its one change. -/
theorem ends_eraseUnit_logs (h : engine.Attuned identity width bench)
    (hresponsive : bench.chip.Responsive) {address : UInt32} (area : EraseUnit)
    (hinside : address.toNat + 1 ≤ identity.device.capacity) :
    (engine.erase address (.unit area)).Ends Bench.environment
      (fun _ after => bench.Logs [bench.chip.memory.eraseEvent area.bits address.toNat] after)
      (fun _ _ => False) bench := by
  obtain ⟨bus, hbus, rfl⟩ := h.bus
  have hcheck : engine.checkRange address 1 = .ok () :=
    (checkRange_of_identity h.identity address 1).elim And.right fun hout => absurd hinside hout.1
  rw [erase_eq, requireDevice_of_identity h.identity, Action.ends_bind, Action.ends_discard,
    Action.ends_ofExcept]
  show Action.Ends _ (_ >>= _) _ _ _
  rw [Action.ends_bind, Action.ends_ofExcept, if_neg (by simp), hcheck]
  refine ends_withBus_still hbus fun start hstill => ?_
  have hstart := h.hears.of_mode hstill.mode
  unfold eraseHeld
  rw [BusAction.ends_bind, BusAction.ends_width, BusAction.ends_bind]
  refine ends_enableWrite_done (hstill.responsive hresponsive) hstart fun ready hready => ?_
  have hheard := hstart.of_mode hready.mode
  have hdecode := Instruction.decode?_of_shared (EraseKind.unit area).lookup_opcode
    ready.chip.vendor
  rw [BusAction.ends_bind]
  refine BusAction.ends_call_done hready.responsive hheard hdecode rfl fun done hdone hended => ?_
  have hmode : done.chip.mode = ready.chip.mode := hdone ▸ Chip.mode_heed rfl
  refine ends_waitWhileBusy_done hended (hheard.of_mode hmode) fun after hafter => ?_
  refine ⟨hafter.responsive hended, ?_⟩
  show after.chip.events.toList = _
  rw [hafter.events, hdone, Chip.events_heed_erase hready.latch, hready.memory, hready.events,
    hstill.memory, hstill.events, Array.toList_push]

/-- On a responsive bench a sector of the device is erased, and that is logged. -/
theorem ends_eraseSector_logs (h : engine.Serving id identity width bench)
    (hresponsive : bench.chip.Responsive) {sector : UInt32} {start : Nat}
    (hstart : sector.toNat * sectorBytes = start)
    (hsize : start + sectorBytes ≤ bench.chip.memory.size) :
    (engine.eraseSector sector).Ends Bench.environment
      (fun _ after => bench.Logs [.erase start sectorBytes] after) (fun _ _ => False) bench := by
  have haddress : (UInt32.ofNat start).toNat = start := h.toNat_ofNat (by omega)
  have hpos := sectorBytes_pos
  have hcapacity := h.size_eq
  have hdvd : addressable EraseUnit.sector.bits ∣ start := hstart ▸ Nat.dvd_mul_left ..
  have hinside : (UInt32.ofNat start).toNat + 1 ≤ identity.device.capacity := by omega
  have hlogs := ends_eraseUnit_logs h.attuned hresponsive .sector hinside
  rw [haddress, bench.chip.memory.eraseEvent_of_dvd hdvd hsize] at hlogs
  unfold eraseSector
  rw [h.sectorAddress_eq hstart (by omega), Action.ends_bind, Action.ends_ofExcept]
  exact hlogs

/-! ## Reads -/

/-- A read that the chip refuses says why, whoever asks. -/
theorem ends_read_refused (h : engine.Attuned identity width bench)
    (hresponsive : bench.chip.Responsive) {address : UInt32} {length : Nat} {cause : BusFault}
    (hlength : length ≠ 0) (hinside : address.toNat + length ≤ identity.device.capacity)
    (hrefuses : bench.chip.checkRead (readCommand identity.device .quad) = .error cause) :
    (engine.read address length).Ends Bench.environment (fun _ _ => False)
      (fun fault _ => fault = .bus cause) bench := by
  obtain ⟨bus, hbus, rfl⟩ := h.bus
  have hfetch : (engine.fetch identity.device address length).Ends Bench.environment
      (fun ended _ => ended.2 = .error (.bus cause)) (fun _ _ => False) bench := by
    refine ends_withBus_still hbus fun start hstill => ?_
    have hreply := @Chip.accept_quadRead start.chip identity.device bus.width address length
      (h.hears.of_mode hstill.mode)
    rw [Chip.checkRead_of_mode hstill.mode, hrefuses] at hreply
    have hstart : (start.chip.answer
        (.start (quadRead identity.device bus.width address length))).1.reply = .error cause := by
      show (start.chip.execute _).1 = _
      rw [Chip.execute_eq, Chip.not_refuses_of_responsive (hstill.responsive hresponsive)]
      exact hreply
    rw [BusAction.ends_bind, BusAction.ends_width]
    dsimp only
    rw [BusAction.ends_lift, Action.ends_liftM]
    unfold Program.Ends
    show ((Program.exchange (.start (quadRead identity.device bus.width address length))
      engine.timeouts.command).run Bench.environment start).1.2 = _
    rw [Program.run_exchange_error start _ _ hstart]
  have hcheck : engine.checkRange address length = .ok () :=
    (checkRange_of_identity h.identity address length).elim And.right
      fun hout => absurd hinside hout.1
  have hbuffer : List.replicate length (0 : UInt8) ≠ [] := by simpa using hlength
  unfold read readZeroed readInto
  rw [requireDevice_of_identity h.identity, Action.ends_bind, Action.ends_discard,
    Action.ends_ofExcept]
  show Action.Ends _ (_ >>= _) _ _ _
  rw [Action.ends_bind, Action.ends_ofExcept, hcheck]
  show Action.Ends _ (_ >>= _) _ _ _
  rw [Action.ends_bind, Action.ends_liftM]
  dsimp only
  rw [if_neg hbuffer, List.length_replicate, hcheck]
  dsimp only
  rw [Program.ends_bind]
  refine Program.Ends.mono hfetch ?_
  rintro (fault | ⟨received, outcome⟩) after hended
  · exact hended.elim
  · obtain rfl : outcome = .error (.bus cause) := hended
    rfl

/-- On a responsive bench a read within the capacity delivers what is stored, if the chip accepts
it, and otherwise says why it does not. It is not logged. -/
theorem ends_read_responsive (h : engine.Attuned identity width bench)
    (hresponsive : bench.chip.Responsive) {address : UInt32} {length : Nat} (hlength : length ≠ 0)
    (hinside : address.toNat + length ≤ identity.device.capacity) :
    (engine.read address length).Ends Bench.environment
      (fun bytes after => (bench.Unchanged width after ∧ bench.Logs [] after) ∧
        Accepts identity bench ∧ bytes = bench.chip.memory.read address.toNat length)
      (fun fault after => (bench.Unchanged width after ∧ bench.Logs [] after) ∧
        ∃ cause, bench.chip.checkRead (readCommand identity.device .quad) = .error cause ∧
          fault = .bus cause) bench := by
  have hkeeps : (engine.read address length).run.Ends Bench.environment
      (fun _ after => bench.Logs [] after) bench := by
    have hcodes : Instruction.NoneAmong Instruction.changesMemory
        (Operation.repertoire (.read 0 0)) := by decide
    have hcall : ∀ request (chip : Chip) (trace : Array TraceEntry) (refused : Bool),
        BusCall.Among (Operation.repertoire (.read 0 0)) request →
        chip.Responsive ∧ chip.events = bench.chip.events →
          (chip.answer request).2.Responsive ∧
            (chip.answer request).2.events = bench.chip.events := by
      rintro request chip _ _ hrequest ⟨hchip, hevents⟩
      refine ⟨hchip.answer request, Eq.trans ?_ hevents⟩
      exact (Chip.untouched_answer fun code hcode => hcodes code (hrequest code hcode)).2
    have hfree : bench.Free (· = width) := h.bus
    refine ((engine.orderly_read address length).keeps hcall hfree ⟨hresponsive, rfl⟩).mono ?_
    rintro _ after ⟨-, ⟨hafter, hevents⟩, -⟩
    exact ⟨hafter, by rw [hevents, List.append_nil]⟩
  have hends := (ends_read h address length).and_run hkeeps
  cases hcheck : bench.chip.checkRead (readCommand identity.device .quad) with
  | ok _ =>
      refine hends.mono ?_ ?_
      · exact fun bytes after hafter => ⟨⟨hafter.1.unchanged, hafter.2⟩, hcheck, hafter.1.bytes_eq⟩
      · exact fun _ after hafter => absurd hinside (hafter.1.outside hresponsive hcheck)
  | error cause =>
      refine (hends.and_run (ends_read_refused h hresponsive hlength hinside hcheck)).mono ?_ ?_
      · exact fun _ _ hafter => hafter.2.elim
      · exact fun fault after hafter =>
          ⟨⟨hafter.1.1.unchanged, hafter.1.2⟩, cause, rfl, hafter.2⟩

/-! ## Pieces that are stored one after the other -/

/-- The piece was stored, as nothing can prevent it, and that was logged. -/
structure Stored (width : BusWidth) (piece : PagePiece) (bench after : Bench) : Prop where
  altered : bench.Altered width piece.address (piece.address + piece.bytes.length) after
  logs : bench.Logs [bench.chip.memory.storedEvent piece] after

/-- Whatever stores each of the pieces logs them in their order. -/
theorem ends_pieces_logs {store : PagePiece → Action Unit} {pieces : List PagePiece}
    (hstore : ∀ bench : Bench, ∀ piece ∈ pieces, engine.Serving id identity width bench →
      bench.chip.Responsive → bench.chip.memory.Takes piece →
        (store piece).Ends Bench.environment (fun _ after => Stored width piece bench after)
          (fun _ _ => False) bench)
    (hordered : PagePiece.Ordered pieces) (h : engine.Serving id identity width bench)
    (hresponsive : bench.chip.Responsive)
    (htakes : ∀ piece ∈ pieces, bench.chip.memory.Takes piece) :
    (pieces.forM store).Ends Bench.environment
      (fun _ after => bench.Logs (pieces.map bench.chip.memory.storedEvent) after)
      (fun _ _ => False) bench := by
  induction pieces generalizing bench with
  | nil => exact .nothing hresponsive
  | cons piece rest ih =>
      obtain ⟨hbefore, hrest⟩ := List.pairwise_cons.mp hordered
      obtain ⟨hpiece, hothers⟩ := List.forall_mem_cons.mp htakes
      show Action.Ends _ (store piece >>= fun _ => _) _ _ _
      rw [Action.ends_bind]
      refine (hstore bench piece List.mem_cons_self h hresponsive hpiece).mono ?_
        fun _ _ hnever => hnever
      intro _ middle hstored
      have hwithin := hstored.altered.memory
      -- What comes after the piece is as it was, so it is logged as it would have been.
      have hlater : ∀ other ∈ rest, middle.chip.memory.Takes other := fun other hother =>
        (hothers other hother).of_within hwithin (hbefore other hother)
      refine (ih (fun bench other hother => hstore bench other (List.mem_cons_of_mem _ hother))
        hrest (h.altered hstored.altered) hstored.logs.responsive hlater).mono ?_
        fun _ _ hnever => hnever
      intro _ after hafter
      have hsame : rest.map middle.chip.memory.storedEvent =
          rest.map bench.chip.memory.storedEvent := List.map_congr_left fun other hother =>
        Memory.storedEvent_of_within (hothers other hother) hwithin (hbefore other hother)
      rw [hsame] at hafter
      exact hstored.logs.trans hafter

/-- A piece goes to its place, whose address is within the device. -/
theorem toNat_address {piece : PagePiece} (h : engine.Serving id identity width bench)
    (htakes : bench.chip.memory.Takes piece) :
    (UInt32.ofNat piece.address).toNat = piece.address :=
  h.toNat_ofNat (by have := htakes.size; omega)

/-- On a responsive bench, a piece that can be stored is stored. -/
theorem ends_programPiece_stored (first : Nat) {piece : PagePiece}
    (h : engine.Serving id identity width bench) (hresponsive : bench.chip.Responsive)
    (htakes : bench.chip.memory.Takes piece) :
    (engine.programPiece first piece).Ends Bench.environment
      (fun _ after => Stored width piece bench after) (fun _ _ => False) bench := by
  have haddress := toNat_address h htakes
  have hprogram := @ends_pageProgram bench engine identity id width h
    (UInt32.ofNat piece.address) piece.bytes (by rw [haddress]; exact htakes.page)
    (by rw [haddress]; exact htakes.size)
  have hlogs := ends_pageProgram_logs h.attuned hresponsive (UInt32.ofNat piece.address)
    piece.bytes
  rw [haddress] at hprogram
  rw [htakes.programEvent_eq haddress] at hlogs
  unfold programPiece
  rw [Action.ends_bind]
  refine (hprogram.and_run hlogs).mono ?_ fun _ _ hnever => hnever.2
  rintro _ after ⟨⟨haltered, -⟩, hlogged⟩
  exact ⟨haltered.withReports _, Bench.Logs.withReports hlogged _⟩

/-- A write that nothing gets in the way of logs the pages of its data in ascending order. -/
theorem ends_write_logs (h : engine.Serving id identity width bench)
    (hresponsive : bench.chip.Responsive) {address : UInt32} {bytes : Bytes}
    (hsize : address.toNat + bytes.length ≤ bench.chip.memory.size)
    (htakes : ∀ piece ∈ Page.cut address.toNat bytes, bench.chip.memory.Takes piece) :
    (engine.write address bytes).Ends Bench.environment
      (fun _ after => bench.Logs
        ((Page.cut address.toNat bytes).map bench.chip.memory.storedEvent) after)
      (fun _ _ => False) bench := by
  have hcheck : engine.checkRange address bytes.length = .ok () :=
    (checkRange_of_identity h.attuned.identity address bytes.length).elim And.right
      fun hout => absurd (h.size_eq ▸ hsize) hout.1
  refine Action.ends_silenced ?_
  unfold writeReporting
  rw [requireDevice_of_identity h.attuned.identity, Action.ends_bind, Action.ends_discard,
    Action.ends_ofExcept]
  show Action.Ends _ (if _ then _ else _) _ _ _
  split
  · rename_i hempty
    rw [hempty, Page.cut_nil]
    exact (Bench.Logs.nothing hresponsive).withReports _
  · rw [Action.ends_bind, Action.ends_ofExcept, hcheck]
    show Action.Ends _ (_ >>= _) _ _ _
    rw [Action.ends_bind, Action.ends_report]
    have hreported := h.altered ((h.unchanged 0 0).withReports (bench.reports.push 0))
    refine (ends_pieces_logs (fun bench piece _ => ends_programPiece_stored _)
      (Page.ordered_cut ..) hreported hresponsive htakes).mono ?_ fun _ _ hnever => hnever
    exact fun _ after hafter => ⟨hafter.responsive, hafter.events⟩

/-- As `ends_programPiece_stored`, for a write of the piece. -/
theorem ends_write_stored {piece : PagePiece} (hbytes : piece.bytes ≠ [])
    (h : engine.Serving id identity width bench) (hresponsive : bench.chip.Responsive)
    (htakes : bench.chip.memory.Takes piece) :
    (engine.write (UInt32.ofNat piece.address) piece.bytes).Ends Bench.environment
      (fun _ after => Stored width piece bench after) (fun _ _ => False) bench := by
  have haddress := toNat_address h htakes
  have hcut := Page.cut_of_page hbytes htakes.page
  have hwrite := @ends_write bench engine identity id width h (UInt32.ofNat piece.address)
    piece.bytes
  have hlogs := @ends_write_logs bench engine identity id width h hresponsive
    (UInt32.ofNat piece.address) piece.bytes (by rw [haddress]; exact htakes.size)
    (by simpa [haddress, hcut] using htakes)
  rw [haddress] at hwrite
  rw [haddress, hcut] at hlogs
  refine (hwrite.and_run hlogs).mono ?_ fun _ _ hnever => hnever.2
  exact fun _ after hafter => ⟨hafter.1.1, hafter.2⟩

end Engine

end NorFlash
