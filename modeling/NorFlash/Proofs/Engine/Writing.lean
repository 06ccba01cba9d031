import NorFlash.Proofs.Bench.Invariants
import NorFlash.Proofs.Chip.Storage
import NorFlash.Proofs.Engine.Reading

/-!
# Writing on a bench

A chip that hears the engine programs and erases what it is told to. `ends_write` says that a write
that succeeds has programmed its data, and `ends_eraseSector` that an erase that succeeds has
cleared its sector; if they fail, they have changed nothing outside. Neither changes the width or
the chip's mode: `Bench.Altered` collects what holds however a write ends.
-/

namespace NorFlash

namespace EraseKind

/-- The command of an erase. A chip erase is sent without an address. -/
def command (kind : EraseKind) (address : UInt32) (width : BusWidth) : Command :=
  match kind with
  | .unit _ => (Command.instruct kind.opcode width).atAddress address width
  | .chip => Command.instruct kind.opcode width

/-- What a chip takes the command of an erase for. -/
def instruction : EraseKind → Instruction
  | .unit area => .erase area
  | .chip => .eraseChip

/-- The memory after an erase. -/
def clear (kind : EraseKind) (address : Nat) (memory : Memory) : Memory :=
  match kind with
  | .unit area => memory.eraseUnit area.bits address
  | .chip => memory.eraseUnit memory.bits 0

/-- Every vendor takes the opcode of an erase for that erase. -/
theorem lookup_opcode (kind : EraseKind) :
    Instruction.shared.lookup kind.opcode = some kind.instruction := by
  cases kind with
  | unit area => cases area <;> decide
  | chip => decide

/-- The command of an erase has the width it was made for. -/
theorem width_command (kind : EraseKind) (address : UInt32) (width : BusWidth) :
    (kind.command address width).width = width := by
  cases kind <;> rfl

/-- The command of an erase has its opcode. -/
theorem instruction_command (kind : EraseKind) (address : UInt32) (width : BusWidth) :
    (kind.command address width).instruction = kind.opcode := by
  cases kind <;> rfl

end EraseKind

namespace Memory

/-- What a chip logs of a page program. -/
def programEvent (memory : Memory) (address : UInt32) (bytes : Bytes) : MemoryEvent :=
  let course := memory.program address.toNat bytes
  .program address bytes.length course.ontoErased course.needsErase

/-- What a chip logs of an erase of the unit of `addressable unitBits` bytes around an address. -/
def eraseEvent (memory : Memory) (unitBits address : Nat) : MemoryEvent :=
  let size := min (addressable unitBits) memory.size
  .erase (memory.index address / size * size) size

end Memory

namespace Chip

variable {chip : Chip} {command : Command} {instruction : Instruction} {width : BusWidth}

/-- A program that is enabled puts its data into the page. -/
theorem memory_heed_program {address : UInt32} {bytes : Bytes}
    (hlatch : chip.latches.writeEnable = true) (haddress : command.address = some (address, width))
    (hdata : command.data = .write bytes) :
    (chip.heed .program command).2.memory =
      (chip.memory.program address.toNat bytes).memory := by
  simp [heed, obey, haddress, hdata, program, drawn, log, hlatch]

/-- A heard program under write enable is logged. -/
theorem events_heed_program {address : UInt32} {bytes : Bytes}
    (hlatch : chip.latches.writeEnable = true) (haddress : command.address = some (address, width))
    (hdata : command.data = .write bytes) :
    (chip.heed .program command).2.events =
      chip.events.push (chip.memory.programEvent address bytes) := by
  simp [heed, obey, haddress, hdata, program, drawn, log, hlatch, consumeWriteEnable,
    Memory.programEvent]

/-- A heard erase under write enable clears what its kind says. -/
theorem memory_heed_erase {kind : EraseKind} {address : UInt32}
    (hlatch : chip.latches.writeEnable = true) :
    (chip.heed kind.instruction (kind.command address width)).2.memory =
      kind.clear address.toNat chip.memory := by
  cases kind <;>
    simp [heed, obey, EraseKind.instruction, EraseKind.command, EraseKind.clear, Command.atAddress,
      erase, drawn, log, hlatch]

/-- A heard erase of a unit under write enable is logged. -/
theorem events_heed_erase {area : EraseUnit} {address : UInt32}
    (hlatch : chip.latches.writeEnable = true) :
    (chip.heed (EraseKind.unit area).instruction
      ((EraseKind.unit area).command address width)).2.events =
        chip.events.push (chip.memory.eraseEvent area.bits address.toNat) := by
  simp [heed, obey, EraseKind.instruction, EraseKind.command, Command.atAddress, erase, drawn, log,
    hlatch, consumeWriteEnable, Memory.eraseEvent]

/-- A command that is heard is obeyed, unless it is refused. -/
theorem answer_start_heard (hhears : chip.Hears command.width)
    (hdecode : Instruction.decode? chip.vendor command.instruction = some instruction) :
    (chip.answer (.start command)).2 =
      if chip.refuses then chip.drawn else (chip.heed instruction command).2 := by
  have hanswer : (chip.answer (.start command)).2 = (chip.execute command).2 := rfl
  rw [hanswer, execute_eq, accept_of_decode hhears hdecode]
  split <;> rfl

end Chip

namespace BusAction

variable {bench : Bench} {bus : BusState} {command : Command} {instruction : Instruction}
  {ok : Unit → BusState → Bench → Prop} {bad : Fault → BusState → Bench → Prop} {patience : Nat}

/-- A deferred command that the chip hears takes its effect on the memory, if it ends well. -/
theorem ends_transferHeard (hhears : bench.chip.Hears command.width)
    (hdecode : Instruction.decode? bench.chip.vendor command.instruction = some instruction)
    (hok : ∀ after : Bench,
      after.chip.memory = (bench.chip.heed instruction command).2.memory → ok () bus after)
    (hbad : ∀ fault (after : Bench), after.chip.memory = bench.chip.memory ∨
      after.chip.memory = (bench.chip.heed instruction command).2.memory → bad fault bus after) :
    (discard (BusAction.transfer (.start command) patience)).Ends Bench.environment ok bad bus
      bench := by
  have hanswer := Chip.answer_start_heard hhears hdecode
  rw [ends_discard]
  refine (ends_transfer bench bus (.start command) patience).mono ?_ ?_
  · rintro received _ after ⟨rfl, hafter, hreply⟩
    refine hok after (hafter.chip.memory.trans (congrArg Chip.memory ?_))
    rw [Chip.reply_start] at hreply
    split at hreply
    · simp at hreply
    · rename_i hrefuses
      rw [hanswer, if_neg hrefuses]
  · rintro fault _ after ⟨rfl, hafter, -⟩
    refine hbad fault after ?_
    rw [hafter.chip.memory, hanswer]
    split
    · exact .inl rfl
    · exact .inr rfl

end BusAction

namespace Engine

variable {bench after : Bench} {engine : Engine} {bus : BusState} {identity : Identity}
  {id : JedecId} {width : BusWidth} {ok : Unit → BusState → Bench → Prop}
  {bad : Fault → BusState → Bench → Prop}

/-- Enabling a write sets the latch, or fails, and keeps the memory. -/
theorem ends_enableWrite (hhears : bench.chip.Hears bus.width)
    (hok : ∀ after : Bench, after.chip.mode = bench.chip.mode →
      after.chip.memory = bench.chip.memory → after.chip.latches.writeEnable = true →
        ok () bus after)
    (hbad : ∀ fault (after : Bench), after.chip.memory = bench.chip.memory → bad fault bus after) :
    enableWrite.Ends Bench.environment ok bad bus bench := by
  have hdecode := Instruction.decode?_of_shared
    (show Instruction.shared.lookup Opcode.writeEnable.code = some .enableWrite by decide)
    bench.chip.vendor
  unfold enableWrite
  rw [BusAction.ends_bind, BusAction.ends_width, BusAction.ends_instruct]
  refine Action.ends_heard hhears hdecode rfl ?_ ?_
  · intro after _ hchip
    exact hok after (hchip ▸ Chip.mode_heed rfl) (hchip ▸ rfl) (hchip ▸ rfl)
  · exact fun after hissued => hbad _ after hissued.idle.memory

/-- Waiting changes nothing that matters. -/
theorem ends_waitWhileBusy {patience : Nat}
    (hok : ∀ after : Bench, Chip.Idle bench.chip after.chip → ok () bus after)
    (hbad : ∀ fault (after : Bench), Chip.Idle bench.chip after.chip → bad fault bus after) :
    (waitWhileBusy patience).Ends Bench.environment ok bad bus bench := by
  have hidle : Chip.Idle bench.chip (bench.chip.answer (.poll (idlePoll bus.width))).2 :=
    Chip.idle_answer (by simp [BusCall.code?, BusCall.command?])
  unfold waitWhileBusy
  rw [BusAction.ends_bind, BusAction.ends_width, BusAction.ends_discard]
  refine (BusAction.ends_transfer bench bus _ patience).mono ?_ ?_
  · rintro received _ after ⟨rfl, hafter, -⟩
    exact hok after (hidle.trans hafter.chip)
  · rintro fault _ after ⟨rfl, hafter, -⟩
    exact hbad fault after (hidle.trans hafter.chip)

/-- A page program that succeeds has programmed the page, and one that fails may have. -/
theorem ends_pageProgram_memory (h : engine.Attuned identity width bench) (address : UInt32)
    (bytes : Bytes) :
    (engine.pageProgram address bytes).Ends Bench.environment
      (fun _ after => after.chip.memory =
        (bench.chip.memory.program address.toNat bytes).memory)
      (fun _ after => after.chip.memory = bench.chip.memory ∨ after.chip.memory =
        (bench.chip.memory.program address.toNat bytes).memory) bench := by
  obtain ⟨bus, hbus, rfl⟩ := h.bus
  unfold pageProgram
  rw [requireDevice_of_identity h.identity, Action.ends_bind, Action.ends_discard,
    Action.ends_ofExcept]
  refine ends_withBus hbus fun start htaken => ?_
  have hstart := h.hears.of_mode htaken.chip.mode
  rw [BusAction.ends_bind, BusAction.ends_width, BusAction.ends_bind]
  refine ends_enableWrite hstart (fun middle hmode hmemory hlatch => ?_) fun fault after hafter =>
    .inl (hafter.trans htaken.chip.memory)
  have hdecode := Instruction.decode?_of_shared
    (show Instruction.shared.lookup Opcode.pageProgram.code = some .program by decide)
    middle.chip.vendor
  have hbefore := hmemory.trans htaken.chip.memory
  rw [BusAction.ends_bind]
  -- From here on the data may have been programmed even if the call fails.
  refine BusAction.ends_transferHeard (hstart.of_mode hmode) hdecode (fun done hdone => ?_)
    fun fault after hafter => ?_
  · rw [Chip.memory_heed_program hlatch rfl rfl, hbefore] at hdone
    exact ends_waitWhileBusy (fun after hafter => hafter.memory.trans hdone)
      fun fault after hafter => .inr (hafter.memory.trans hdone)
  · rw [Chip.memory_heed_program hlatch rfl rfl, hbefore] at hafter
    exact hafter

/-- How long an erase may take. -/
def erasePatience (engine : Engine) : EraseKind → Nat
  | .unit _ => engine.timeouts.erase
  | .chip => engine.timeouts.chipErase

/-- What an erase does while it holds the bus. -/
def eraseHeld (engine : Engine) (address : UInt32) (kind : EraseKind) : BusAction Unit := do
  let width ← BusAction.width
  enableWrite
  discard <| BusAction.call (.command (kind.command address width))
  waitWhileBusy (engine.erasePatience kind)

/-- The address of a chip erase does not matter, so it is not checked. -/
theorem erase_eq (engine : Engine) (address : UInt32) (kind : EraseKind) :
    engine.erase address kind = (do
      discard <| MonadExcept.ofExcept engine.requireDevice
      MonadExcept.ofExcept (if kind = .chip then .ok () else engine.checkRange address 1)
      engine.withBus (engine.eraseHeld address kind)) := by
  cases kind <;> rfl

/-- What an erase has done to the memory when it ends well, and what it has checked. -/
structure Erased (identity : Identity) (address : UInt32) (kind : EraseKind)
    (bench after : Bench) : Prop where
  memory : after.chip.memory = kind.clear address.toNat bench.chip.memory
  within : kind ≠ .chip → address.toNat + 1 ≤ identity.device.capacity

/-- An erase that succeeds has erased its unit, and one that fails may have. -/
theorem ends_erase_memory (h : engine.Attuned identity width bench) (address : UInt32)
    (kind : EraseKind) :
    (engine.erase address kind).Ends Bench.environment
      (fun _ after => Erased identity address kind bench after)
      (fun _ after => after.chip.memory = bench.chip.memory ∨
        Erased identity address kind bench after) bench := by
  obtain ⟨bus, hbus, rfl⟩ := h.bus
  rw [erase_eq, requireDevice_of_identity h.identity, Action.ends_bind, Action.ends_discard,
    Action.ends_ofExcept]
  show Action.Ends _ (_ >>= _) _ _ _
  rw [Action.ends_bind, Action.ends_ofExcept]
  have hheld : (kind ≠ .chip → address.toNat + 1 ≤ identity.device.capacity) →
      (engine.withBus (engine.eraseHeld address kind)).Ends Bench.environment
        (fun _ after => Erased identity address kind bench after)
        (fun _ after => after.chip.memory = bench.chip.memory ∨
          Erased identity address kind bench after) bench := by
    intro hwithin
    refine ends_withBus hbus fun start htaken => ?_
    have hstart := h.hears.of_mode htaken.chip.mode
    unfold eraseHeld
    rw [BusAction.ends_bind, BusAction.ends_width, BusAction.ends_bind]
    refine ends_enableWrite hstart (fun middle hmode hmemory hlatch => ?_)
      fun fault after hafter => .inl (hafter.trans htaken.chip.memory)
    have hbefore := hmemory.trans htaken.chip.memory
    have hheard : middle.chip.Hears (kind.command address bus.width).width := by
      rw [kind.width_command]
      exact hstart.of_mode hmode
    have hdecode : Instruction.decode? middle.chip.vendor
        (kind.command address bus.width).instruction = some kind.instruction := by
      rw [kind.instruction_command]
      exact Instruction.decode?_of_shared kind.lookup_opcode middle.chip.vendor
    rw [BusAction.ends_bind, BusAction.ends_discard, BusAction.call, BusAction.ends_lift]
    refine Action.ends_heard hheard hdecode (by cases kind <;> rfl) (fun done hissued hchip => ?_)
      fun after hissued => .inl (hissued.idle.memory.trans hbefore)
    have hdone : done.chip.memory = kind.clear address.toNat bench.chip.memory := by
      rw [hchip, Chip.memory_heed_erase hlatch, hbefore]
    exact ends_waitWhileBusy (fun after hafter => ⟨hafter.memory.trans hdone, hwithin⟩)
      fun fault after hafter => .inr ⟨hafter.memory.trans hdone, hwithin⟩
  split
  · rename_i hchip
    exact hheld fun hunit => absurd hchip hunit
  · obtain ⟨hrange, hcheck⟩ | ⟨hrange, fault, hcheck⟩ :=
      checkRange_of_identity h.identity address 1
    · rw [hcheck]
      exact hheld fun _ => hrange
    · rw [hcheck]
      exact .inl rfl

end Engine

/-- The bench after an action that changed nothing of the memory outside a range, and neither the
width nor the chip's mode. -/
structure Bench.Altered (width : BusWidth) (start stop : Nat) (bench after : Bench) : Prop where
  free : after.Free (· = width)
  mode : after.chip.mode = bench.chip.mode
  memory : Memory.Within start stop bench.chip.memory after.chip.memory

namespace Bench.Altered

variable {bench middle after : Bench} {width : BusWidth} {start stop : Nat}

/-- Changes within a range add up to one. -/
theorem trans (h : bench.Altered width start stop middle)
    (hnext : middle.Altered width start stop after) : bench.Altered width start stop after :=
  ⟨hnext.free, hnext.mode.trans h.mode, h.memory.trans hnext.memory⟩

/-- A change within a range is one within a larger. -/
theorem mono {first last : Nat} (h : bench.Altered width start stop after)
    (hfirst : first ≤ start) (hlast : stop ≤ last) : bench.Altered width first last after :=
  ⟨h.free, h.mode, h.memory.mono hfirst hlast⟩

/-- Reports change nothing outside the range. -/
theorem withReports (h : bench.Altered width start stop after) (reports : Array Nat) :
    bench.Altered width start stop (after.withReports reports) :=
  ⟨h.free, h.mode, h.memory⟩

end Bench.Altered

/-- The bytes of a sector, which are the same on every supported device. -/
def sectorBytes : Nat :=
  EraseUnit.sector.size

/-- A sector has bytes. -/
theorem sectorBytes_pos : 0 < sectorBytes :=
  EraseUnit.size_pos .sector

namespace Engine

variable {α : Type} {bench after : Bench} {engine : Engine} {identity : Identity} {id : JedecId}
  {width : BusWidth} {start stop : Nat}

/-- As `Attuned`, and the chip is as large as the catalog says. -/
structure Serving (id : JedecId) (engine : Engine) (identity : Identity) (width : BusWidth)
    (bench : Bench) : Prop where
  attuned : engine.Attuned identity width bench
  knows : Catalog.Knows id identity
  bits : bench.chip.memory.bits = (Memory.blank id.capacityCode).bits

namespace Serving

/-- The chip is as large as the device in the catalog. -/
theorem size_eq (h : engine.Serving id identity width bench) :
    bench.chip.memory.size = identity.device.capacity := by
  rw [h.knows.capacity_eq, Memory.size, Memory.size, h.bits]

/-- The chip has no more bytes than 24 bits can address. -/
theorem size_le (h : engine.Serving id identity width bench) :
    bench.chip.memory.size ≤ addressable 24 :=
  h.size_eq ▸ h.knows.capacity_le

/-- What lies within the chip has an address. -/
theorem toNat_ofNat (h : engine.Serving id identity width bench) {address : Nat}
    (haddress : address ≤ bench.chip.memory.size) : (UInt32.ofNat address).toNat = address :=
  Catalog.toNat_ofNat_of_le (Nat.le_trans haddress h.size_le)

/-- An engine goes on serving a chip whose memory has changed. -/
theorem altered (h : engine.Serving id identity width bench)
    (hafter : bench.Altered width start stop after) : engine.Serving id identity width after :=
  ⟨⟨h.attuned.identity, hafter.free, h.attuned.hears.of_mode hafter.mode⟩, h.knows,
    hafter.memory.bits.trans h.bits⟩

/-- A bench is altered from itself by nothing. -/
theorem unchanged (h : engine.Serving id identity width bench) (start stop : Nat) :
    bench.Altered width start stop bench :=
  ⟨h.attuned.bus, rfl, .refl ..⟩

end Serving

/-- An action that sends nothing that changes a mode keeps the mode, and the width if it records no
other. -/
theorem ends_kept {codes : List UInt8} {action : Action α}
    (h : engine.Attuned identity width bench)
    (horderly : action.Orderly (BusCall.Among codes) (· = width) false)
    (hcodes : Instruction.NoneAmong Instruction.changesMode codes) :
    action.run.Ends Bench.environment
      (fun _ after => after.Free (· = width) ∧ after.chip.mode = bench.chip.mode) bench :=
  (Program.Orderly.free horderly h.bus).and (Program.Orderly.mode horderly h.bus hcodes h.hears.1)

/-- Data within one page is programmed, or nothing outside is changed. -/
theorem ends_pageProgram (h : engine.Serving id identity width bench) {address : UInt32}
    {bytes : Bytes} (hpage : address.toNat % pageSize + bytes.length ≤ pageSize)
    (hsize : address.toNat + bytes.length ≤ bench.chip.memory.size) :
    (engine.pageProgram address bytes).Ends Bench.environment
      (fun _ after =>
        bench.Altered width address.toNat (address.toNat + bytes.length) after ∧
          Memory.Masked address.toNat bytes bench.chip.memory after.chip.memory)
      (fun _ after =>
        bench.Altered width address.toNat (address.toNat + bytes.length) after) bench := by
  have hmasked := Memory.masked_program bench.chip.memory hpage hsize
  refine ((ends_pageProgram_memory h.attuned address bytes).and_run (ends_kept h.attuned
    (engine.orderly_pageProgram address bytes) (by decide))).mono ?_ ?_
  · rintro _ after ⟨hmemory, hfree, hmode⟩
    rw [← hmemory] at hmasked
    exact ⟨⟨hfree, hmode, hmasked.toWithin⟩, hmasked⟩
  · rintro fault after ⟨hmemory | hmemory, hfree, hmode⟩
    · exact ⟨hfree, hmode, .of_eq hmemory⟩
    · exact ⟨hfree, hmode, hmemory ▸ hmasked.toWithin⟩

/-- Data cut into pages is programmed piece by piece. -/
theorem ends_programPieces (h : engine.Serving id identity width bench) (first address : Nat)
    (bytes : Bytes) (hsize : address + bytes.length ≤ bench.chip.memory.size) :
    ((Page.cut address bytes).forM (engine.programPiece first)).Ends Bench.environment
      (fun _ after => bench.Altered width address (address + bytes.length) after ∧
        Memory.Masked address bytes bench.chip.memory after.chip.memory)
      (fun _ after => bench.Altered width address (address + bytes.length) after) bench := by
  fun_induction Page.cut address bytes generalizing bench with
  | case1 address => exact ⟨h.unchanged _ _, Memory.masked_nil ..⟩
  | case2 address bytes hbytes ih =>
      have hlength := List.length_pos_iff.mpr hbytes
      have haddress : (UInt32.ofNat address).toNat = address := h.toNat_ofNat (by omega)
      have hroom : address % pageSize + Page.room address = pageSize := by
        have := Nat.mod_lt address (show 0 < pageSize by decide)
        unfold Page.room
        omega
      have htake : (bytes.take (Page.room address)).length =
          min (Page.room address) bytes.length := List.length_take
      have hdrop : (bytes.drop (Page.room address)).length =
          bytes.length - Page.room address := List.length_drop
      have hpiece := @ends_pageProgram bench engine identity id width h (UInt32.ofNat address)
        (bytes.take (Page.room address)) (by rw [haddress]; omega) (by rw [haddress]; omega)
      rw [haddress] at hpiece
      show Action.Ends _ (engine.programPiece first _ >>= fun _ => _) _ _ _
      unfold programPiece
      rw [Action.ends_bind, Action.ends_bind]
      refine hpiece.mono ?_ fun fault after hafter => hafter.mono (Nat.le_refl _) (by omega)
      rintro _ middle ⟨haltered, hmasked⟩
      rw [Action.ends_report]
      -- The last piece may leave its page unfilled, and then nothing follows it.
      by_cases hlast : bytes.length ≤ Page.room address
      · rw [List.take_of_length_le hlast] at hmasked haltered
        rw [List.drop_eq_nil_of_le hlast, Page.cut_nil]
        exact ⟨haltered.withReports _, hmasked⟩
      · have hreported := haltered.withReports (middle.reports.push
          (address - first + (bytes.take (Page.room address)).length))
        have hmiddle := h.altered hreported
        have hstop : address + (bytes.take (Page.room address)).length =
            address + Page.room address := by
          omega
        refine (ih hmiddle ?_).mono ?_ ?_
        · rw [hreported.memory.size]
          omega
        · rintro _ after ⟨hafter, hrest⟩
          refine ⟨(hreported.mono (Nat.le_refl _) (by omega)).trans
            (hafter.mono (by omega) (by omega)), ?_⟩
          have hjoined := hmasked.append (hstop ▸ hrest) (by omega)
          rwa [List.take_append_drop] at hjoined
        · exact fun fault after hafter => (hreported.mono (Nat.le_refl _) (by omega)).trans
            (hafter.mono (by omega) (by omega))

/-- Data is programmed, which it is only within the capacity, or nothing outside is changed. -/
theorem ends_writeReporting (h : engine.Serving id identity width bench) (address : UInt32)
    (bytes : Bytes) :
    (engine.writeReporting address bytes).Ends Bench.environment
      (fun _ after =>
        bench.Altered width address.toNat (address.toNat + bytes.length) after ∧
          Memory.Masked address.toNat bytes bench.chip.memory after.chip.memory ∧
          (bytes ≠ [] → address.toNat + bytes.length ≤ bench.chip.memory.size))
      (fun _ after =>
        bench.Altered width address.toNat (address.toNat + bytes.length) after) bench := by
  unfold writeReporting
  rw [requireDevice_of_identity h.attuned.identity, Action.ends_bind, Action.ends_discard,
    Action.ends_ofExcept]
  show Action.Ends _ (if _ then _ else _) _ _ _
  split
  · rename_i hempty
    subst hempty
    exact ⟨h.unchanged _ _, Memory.masked_nil .., fun hne => absurd rfl hne⟩
  · rw [Action.ends_bind, Action.ends_ofExcept]
    obtain ⟨hrange, hcheck⟩ | ⟨-, fault, hcheck⟩ :=
      checkRange_of_identity h.attuned.identity address bytes.length
    · rw [← h.size_eq] at hrange
      rw [hcheck]
      show Action.Ends _ (_ >>= _) _ _ _
      rw [Action.ends_bind, Action.ends_report]
      have hreported := (h.unchanged address.toNat (address.toNat + bytes.length)).withReports
        (bench.reports.push 0)
      refine (ends_programPieces (h.altered hreported) address.toNat address.toNat bytes
        hrange).mono ?_ ?_
      · rintro _ after ⟨hafter, hmasked⟩
        exact ⟨hreported.trans hafter, hmasked, fun _ => hrange⟩
      · exact fun fault after hafter => hreported.trans hafter
    · rw [hcheck]
      exact h.unchanged _ _

/-- As `ends_writeReporting`. -/
theorem ends_write (h : engine.Serving id identity width bench) {address : UInt32}
    {bytes : Bytes} :
    (engine.write address bytes).Ends Bench.environment
      (fun _ after =>
        bench.Altered width address.toNat (address.toNat + bytes.length) after ∧
          Memory.Masked address.toNat bytes bench.chip.memory after.chip.memory)
      (fun _ after =>
        bench.Altered width address.toNat (address.toNat + bytes.length) after) bench := by
  refine Action.ends_silenced ((ends_writeReporting h address bytes).mono ?_ ?_)
  · rintro _ after ⟨hafter, hmasked, -⟩
    exact ⟨hafter.withReports _, hmasked⟩
  · exact fun fault after hafter => hafter.withReports _

/-- The device has the sectors of every supported one. -/
theorem Serving.sectorSize_eq (h : engine.Serving id identity width bench) :
    identity.device.sectorSize.toNat = sectorBytes := by
  rw [h.knows.sectorSize_eq]
  decide

/-- A sector of the device has an address. -/
theorem Serving.sectorAddress_eq (h : engine.Serving id identity width bench) {sector : UInt32}
    {start : Nat} (hstart : sector.toNat * sectorBytes = start)
    (hsize : start ≤ bench.chip.memory.size) :
    engine.sectorAddress sector = .ok (UInt32.ofNat start) := by
  have hbound : addressable 24 ≤ lastAddress := by decide
  have hlast := Nat.le_trans hsize (Nat.le_trans h.size_le hbound)
  unfold sectorAddress
  rw [requireDevice_of_identity h.attuned.identity]
  show (if _ then _ else _) = _
  rw [h.sectorSize_eq, hstart, if_pos hlast]
  rfl

/-- A sector of the device is cleared, or nothing outside is changed. -/
theorem ends_eraseSector (h : engine.Serving id identity width bench) {sector : UInt32}
    {start : Nat} (hstart : sector.toNat * sectorBytes = start)
    (hsize : start + sectorBytes ≤ bench.chip.memory.size) :
    (engine.eraseSector sector).Ends Bench.environment
      (fun _ after => bench.Altered width start (start + sectorBytes) after ∧
        after.chip.memory.read start sectorBytes =
          List.replicate sectorBytes Bytes.erased)
      (fun _ after => bench.Altered width start (start + sectorBytes) after) bench := by
  have haddress : (UInt32.ofNat start).toNat = start := h.toNat_ofNat (by omega)
  have hdvd : addressable EraseUnit.sector.bits ∣ start := hstart ▸ Nat.dvd_mul_left ..
  have hlt := sectorBytes_pos
  have hwithin := Memory.within_eraseUnit bench.chip.memory hdvd (by omega)
  have herased := Memory.read_eraseUnit bench.chip.memory hdvd hsize
  have hcleared : ∀ after : Bench,
      Erased identity (UInt32.ofNat start) (.unit .sector) bench after →
      after.chip.memory = bench.chip.memory.eraseUnit EraseUnit.sector.bits start := by
    intro after hafter
    have hmemory := hafter.memory
    rwa [haddress] at hmemory
  unfold eraseSector
  rw [h.sectorAddress_eq hstart (by omega), Action.ends_bind, Action.ends_ofExcept]
  refine ((ends_erase_memory h.attuned _ (.unit .sector)).and_run (ends_kept h.attuned
    (engine.orderly_erase _ (.unit .sector)) (by decide))).mono ?_ ?_
  · rintro _ after ⟨hafter, hfree, hmode⟩
    rw [← hcleared after hafter] at hwithin herased
    exact ⟨⟨hfree, hmode, hwithin⟩, herased⟩
  · rintro fault after ⟨hmemory | hafter, hfree, hmode⟩
    · exact ⟨hfree, hmode, .of_eq hmemory⟩
    · rw [← hcleared after hafter] at hwithin
      exact ⟨hfree, hmode, hwithin⟩

end Engine

end NorFlash
