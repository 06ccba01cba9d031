import NorFlash.Engine.Operation
import NorFlash.Proofs.Bench.Reports
import NorFlash.Proofs.Chip.Timing
import NorFlash.Proofs.Engine.Identification
import NorFlash.Proofs.Engine.Repertoire
import NorFlash.Proofs.Engine.Spans

/-!
# Reading on a bench

A read that succeeds delivers what the chip stores, if the chip is awake on the engine's width: it
either accepts the read, and then it answers from its memory, or it refuses it. `ends_fetch` is one
transfer, and `ends_perform` any operation that reads. On a responsive bench that serves the
device's reads, a read within the capacity succeeds.
-/

namespace NorFlash

/-- The command that reads so many bytes from an address. -/
def Engine.quadRead (device : Descriptor) (width : BusWidth) (address : UInt32) (length : Nat) :
    Command :=
  ((readCommand device width).atAddress address .quad).reading length .quad

namespace Chip

variable {chip : Chip} {device : Descriptor} {width : BusWidth} {address : UInt32} {length : Nat}

/-- Neither width, address nor length matter for whether a chip accepts a read. -/
theorem checkRead_quadRead :
    chip.checkRead (Engine.quadRead device width address length) =
      chip.checkRead (Engine.readCommand device .quad) := by
  unfold Engine.quadRead Engine.readCommand
  cases device.modeWidth <;> rfl

/-- The latency of a quad read is the sum of the device's mode and dummy cycles. -/
theorem latency_readCommand (device : Descriptor) (width : BusWidth) :
    (Engine.readCommand device width).latency =
      device.modeCycles.toNat + device.readDummyCycles.toNat := by
  unfold Engine.readCommand Descriptor.modeCycles
  cases device.modeWidth <;> rfl

/-- The cycles of the reads that an engine issues fit a byte, whatever the device. -/
theorem not_overflows_readCommand (device : Descriptor) (width : BusWidth) :
    ¬(Engine.readCommand device width).Overflows := by
  have hmode : device.modeCycles.toNat < UInt8.size := device.modeCycles.toNat_lt
  have hquad : device.quadDummyCycles.toNat < UInt8.size := device.quadDummyCycles.toNat_lt
  rw [Command.overflows_iff, latency_readCommand, Descriptor.readDummyCycles, Nat.not_le]
  split
  · rename_i hle
    have hcycles : device.modeCycles.toNat ≤ device.quadDummyCycles.toNat := hle
    rw [UInt8.toNat_sub_of_le _ _ hle]
    omega
  · exact hmode

/-- A quad read sends the instruction of its opcode. -/
theorem instruction_quadRead :
    (Engine.quadRead device width address length).instruction = Opcode.fastReadQuad.code :=
  Engine.readCommand_instruction device width

/-- A quad read is sent at the width it was made for. -/
theorem width_quadRead : (Engine.quadRead device width address length).width = width := by
  unfold Engine.quadRead Engine.readCommand
  cases device.modeWidth <;> rfl

/-- Every chip takes a read for one. -/
theorem decode?_quadRead (vendor : Vendor) :
    Instruction.decode? vendor (Engine.quadRead device width address length).instruction =
      some .readQuad := by
  rw [instruction_quadRead]
  exact Instruction.decode?_of_shared (by decide) vendor

/-- A chip that hears a read answers from its memory, if it accepts the read. -/
theorem accept_quadRead (hhears : chip.Hears width) :
    (chip.accept (Engine.quadRead device width address length)).1 =
      match chip.checkRead (Engine.readCommand device .quad) with
      | .error cause => .error cause
      | .ok () => .ok (some (chip.memory.read address.toNat length)) := by
  have hheard : chip.Hears (Engine.quadRead device width address length).width := by
    rwa [width_quadRead]
  have haddress : (Engine.quadRead device width address length).address =
      some (address, .quad) := rfl
  have hdata : (Engine.quadRead device width address length).data = .read length := rfl
  have hanswer : ∀ heard : Chip, heard.mode = chip.mode → heard.memory = chip.memory →
      heard.readQuad (Engine.quadRead device width address length) address =
        match chip.checkRead (Engine.readCommand device .quad) with
        | .error cause => .error cause
        | .ok () => .ok (some (chip.memory.read address.toNat length)) := by
    intro heard hmode hmemory
    have hcheck : heard.checkRead (Engine.quadRead device width address length) =
        chip.checkRead (Engine.readCommand device .quad) := by
      rw [checkRead_of_mode hmode, checkRead_quadRead]
    cases hread : chip.checkRead (Engine.readCommand device .quad) with
    | error cause => simp [readQuad, hcheck, hread]
    | ok _ => simp [readQuad, hcheck, hread, hmemory, hdata]
  rw [accept_of_decode hheard (decode?_quadRead chip.vendor)]
  simp only [heed, obey, haddress]
  exact hanswer _ rfl rfl

end Chip

/-- The bench after reads: nothing changed that matters, and the bus is free with the same width. -/
structure Bench.Unchanged (width : BusWidth) (bench after : Bench) : Prop where
  chip : Chip.Idle bench.chip after.chip
  bus : ∃ bus, after.bus = some bus ∧ bus.width = width

/-- A bench that is left unchanged twice is left unchanged. -/
theorem Bench.Unchanged.trans {width : BusWidth} {bench middle after : Bench}
    (h : bench.Unchanged width middle) (hnext : middle.Unchanged width after) :
    bench.Unchanged width after :=
  ⟨h.chip.trans hnext.chip, hnext.bus⟩

/-- Reports change nothing of the bench. -/
theorem Bench.Unchanged.withReports {width : BusWidth} {bench after : Bench}
    (h : bench.Unchanged width after) (reports : Array Nat) :
    bench.Unchanged width (after.withReports reports) :=
  ⟨h.chip, h.bus⟩

/-- A bench that was only asked is unchanged. -/
theorem Bench.Asked.unchanged {bench after : Bench} {bus : BusState} {idReads : Nat}
    (h : bench.Asked bus idReads after) : bench.Unchanged bus.width after :=
  ⟨h.chip, ⟨bus.width, false⟩, h.bus, rfl⟩

namespace Engine

variable {bench after : Bench} {engine : Engine} {bus : BusState} {identity : Identity}
  {id : JedecId} {width : BusWidth}

/-- One transfer: if it ends well, the chip accepted the read and the bytes are those it stores. A
responsive chip that accepts the read lets it end well. -/
theorem ends_fetch {device : Descriptor} {address : UInt32} {length : Nat}
    (hbus : bench.bus = some bus) (hhears : bench.chip.Hears bus.width) :
    (engine.fetch device address length).Ends Bench.environment
      (fun ended after => bench.Asked bus 0 after ∧
        (ended.2 = .ok () → bench.chip.checkRead (readCommand device .quad) = .ok () ∧
          ended.1 = some (bench.chip.memory.read address.toNat length)) ∧
        (bench.chip.Responsive → bench.chip.checkRead (readCommand device .quad) = .ok () →
          ended.2 = .ok ()))
      (fun _ _ => False) bench := by
  refine ends_withBus hbus fun start htaken => ?_
  have hstart : start.chip.Hears bus.width := hhears.of_mode htaken.chip.mode
  have hcode : (BusCall.start (quadRead device bus.width address length)).code? =
      some Opcode.fastReadQuad.code := congrArg some Chip.instruction_quadRead
  have hpassive : ∀ code ∈ (BusCall.start (quadRead device bus.width address length)).code?,
      Instruction.hasOnSome (!·.isPassive) code = false ∧
        code ≠ Opcode.releasePowerDown.code := by
    rw [hcode]
    intro code hcode
    obtain rfl := Option.some.inj hcode
    decide
  have hreply := @Chip.accept_quadRead start.chip device bus.width address length hstart
  rw [Chip.checkRead_of_mode htaken.chip.mode, htaken.chip.memory] at hreply
  rw [BusAction.ends_bind, BusAction.ends_width]
  dsimp only
  rw [BusAction.ends_lift, Action.ends_liftM]
  refine (Program.ends_exchange start (.start (quadRead device bus.width address length))
    engine.timeouts.command).mono ?_
  rintro ⟨received, outcome⟩ after ⟨hafter, hended, hcompletes⟩
  have hasked := htaken.asked hpassive rfl hafter { bus with mapped := false } rfl
  rw [hcode] at hasked
  refine ⟨hasked, fun houtcome => ?_, fun hresponsive haccepts => ?_⟩
  · obtain rfl : outcome = .ok () := houtcome
    cases hstarted : (start.chip.answer
        (.start (quadRead device bus.width address length))).1.reply with
    | error cause => simp [hstarted] at hended
    | ok sent =>
        rw [hstarted] at hended
        rw [Chip.accept_of_reply_start hstarted] at hreply
        cases hcheck : bench.chip.checkRead (readCommand device .quad) with
        | error cause => simp [hcheck] at hreply
        | ok _ =>
            rw [hcheck] at hreply
            exact ⟨rfl, hended.1.trans (Except.ok.inj hreply)⟩
  · rw [haccepts] at hreply
    have hstartResponsive := htaken.chip.responsive hresponsive
    exact hcompletes hstartResponsive (Chip.completes_start hstartResponsive hreply)

/-- The engine has identified the device, nobody holds the bus, and the chip hears the engine. -/
structure Attuned (engine : Engine) (identity : Identity) (width : BusWidth) (bench : Bench) :
    Prop where
  identity : engine.identity = some identity
  bus : ∃ bus, bench.bus = some bus ∧ bus.width = width
  hears : bench.chip.Hears width

/-- The chip accepts the quad reads of a device. -/
def Accepts (identity : Identity) (bench : Bench) : Prop :=
  bench.chip.checkRead (readCommand identity.device .quad) = .ok ()

/-- A read succeeded: the bytes are those stored. If there are any, the chip accepts reads and they
lie within the capacity. -/
structure Delivers (identity : Identity) (width : BusWidth) (bench : Bench)
    (address length : Nat) (bytes : Bytes) (after : Bench) : Prop where
  unchanged : bench.Unchanged width after
  bytes_eq : bytes = bench.chip.memory.read address length
  accepts : length ≠ 0 → Accepts identity bench
  within : length ≠ 0 → address + length ≤ identity.device.capacity

/-- A read failed, which a responsive chip that accepts reads does not let happen within the
capacity. -/
structure Denies (identity : Identity) (width : BusWidth) (bench : Bench)
    (address length : Nat) (after : Bench) : Prop where
  unchanged : bench.Unchanged width after
  outside : bench.chip.Responsive → Accepts identity bench →
    ¬address + length ≤ identity.device.capacity

/-- A bench an engine is attuned to is unchanged from itself. -/
theorem Attuned.unchanged (h : engine.Attuned identity width bench) :
    bench.Unchanged width bench :=
  ⟨Chip.idle_refl _, h.bus⟩

/-- An engine stays attuned to a bench that is left unchanged. -/
theorem Attuned.of_unchanged (h : engine.Attuned identity width bench)
    (hafter : bench.Unchanged width after) : engine.Attuned identity width after :=
  ⟨h.identity, hafter.bus, h.hears.of_mode hafter.chip.mode⟩

/-- A bench that is left unchanged accepts the same reads. -/
theorem accepts_iff_of_unchanged (hafter : bench.Unchanged width after) :
    Accepts identity after ↔ Accepts identity bench := by
  unfold Accepts
  rw [Chip.checkRead_of_mode hafter.chip.mode]

/-- An engine with an identity has its device. -/
theorem requireDevice_of_identity (h : engine.identity = some identity) :
    engine.requireDevice = .ok identity.device := by
  simp [requireDevice, device?, h]

/-- The capacity of an engine is its device's. -/
theorem capacity_of_identity (h : engine.identity = some identity) :
    engine.capacity = identity.device.capacity := by
  simp [capacity, device?, h]

/-- A range is accepted just where it lies in the device. -/
theorem checkRange_of_identity (h : engine.identity = some identity) (address : UInt32)
    (length : Nat) :
    (address.toNat + length ≤ identity.device.capacity ∧
        engine.checkRange address length = .ok ()) ∨
      (¬address.toNat + length ≤ identity.device.capacity ∧
        ∃ fault, engine.checkRange address length = .error fault) := by
  unfold checkRange
  rw [capacity_of_identity h]
  by_cases hrange : address.toNat + length ≤ identity.device.capacity
  · simp [hrange]
  · simp [hrange]

section Attuned

variable (h : engine.Attuned identity width bench)

include h

/-- A read into a buffer delivers the memory, or is denied and leaves it alone. -/
theorem ends_readInto (address : UInt32) (buffer : Bytes) :
    (engine.readInto address buffer).Ends Bench.environment
      (fun ended after =>
        (ended.1 = .ok () ∧
          Delivers identity width bench address.toNat buffer.length ended.2 after) ∨
        ((∃ fault, ended.1 = .error fault) ∧
          Denies identity width bench address.toNat buffer.length after)) bench := by
  have hrefl := h.unchanged
  obtain ⟨bus, hbus, rfl⟩ := h.bus
  unfold readInto
  rw [requireDevice_of_identity h.identity]
  dsimp only
  split
  · rename_i hempty
    subst hempty
    exact .inl ⟨rfl, hrefl, rfl, fun hlength => absurd rfl hlength,
      fun hlength => absurd rfl hlength⟩
  · obtain ⟨hrange, hcheck⟩ | ⟨hrange, fault, hcheck⟩ :=
      checkRange_of_identity h.identity address buffer.length
    · rw [hcheck]
      dsimp only
      rw [Program.ends_bind]
      refine Program.Ends.mono (ends_fetch hbus h.hears) ?_
      rintro (fault | ⟨received, outcome⟩) after hended
      · exact absurd hended id
      · obtain ⟨hasked, hok, hresponsive⟩ := hended
        cases outcome with
        | ok done =>
            obtain ⟨haccepts, rfl⟩ := hok rfl
            exact .inl ⟨rfl, hasked.unchanged, rfl, fun _ => haccepts, fun _ => hrange⟩
        | error fault =>
            -- The buffer may hold what was received, but the caller is told of the fault.
            refine .inr ⟨⟨fault, rfl⟩, hasked.unchanged, fun hbench haccepts => ?_⟩
            simpa using hresponsive hbench haccepts
    · rw [hcheck]
      exact .inr ⟨⟨fault, rfl⟩, hrefl, fun _ _ => hrange⟩

/-- A read into zeros delivers the memory or is denied. -/
theorem ends_readZeroed (address : UInt32) (length : Nat) :
    (engine.readZeroed address length).Ends Bench.environment
      (Delivers identity width bench address.toNat length)
      (fun _ => Denies identity width bench address.toNat length) bench := by
  unfold readZeroed
  rw [Action.ends_bind, Action.ends_liftM]
  refine (ends_readInto h address (List.replicate length 0)).mono ?_
  rintro ⟨outcome, bytes⟩ after hended
  rw [List.length_replicate] at hended
  rw [Action.ends_bind, Action.ends_ofExcept]
  obtain ⟨rfl, hdelivers⟩ | ⟨⟨fault, rfl⟩, hdenies⟩ := hended
  · exact hdelivers
  · exact hdenies

/-- A read delivers the memory or is denied. -/
theorem ends_read (address : UInt32) (length : Nat) :
    (engine.read address length).Ends Bench.environment
      (Delivers identity width bench address.toNat length)
      (fun _ => Denies identity width bench address.toNat length) bench := by
  unfold read
  rw [requireDevice_of_identity h.identity, Action.ends_bind, Action.ends_discard,
    Action.ends_ofExcept]
  show Action.Ends _ (_ >>= _) _ _ _
  rw [Action.ends_bind, Action.ends_ofExcept]
  obtain ⟨hrange, hcheck⟩ | ⟨hrange, fault, hcheck⟩ :=
    checkRange_of_identity h.identity address length
  · rw [hcheck]
    exact ends_readZeroed h address length
  · rw [hcheck]
    exact ⟨h.unchanged, fun _ _ => hrange⟩

/-- The parts of a divided read, each delivered. -/
theorem ends_mapM_readSpan {address : UInt32} {list : List (Nat × Nat)}
    (hcapacity : identity.device.capacity ≤ addressable 24)
    (hlist : ∀ span ∈ list, address.toNat + span.1 + span.2 ≤ identity.device.capacity) :
    (list.mapM (engine.readSpan address)).Ends Bench.environment
      (fun parts after => bench.Unchanged width after ∧
        parts = list.map (fun span =>
          bench.chip.memory.read (address.toNat + span.1) span.2) ∧
        ∀ span ∈ list, span.2 ≠ 0 → Accepts identity bench)
      (fun _ after => bench.Unchanged width after ∧
        (bench.chip.Responsive → ¬Accepts identity bench)) bench := by
  rw [← List.mapM'_eq_mapM]
  induction list generalizing bench with
  | nil => exact ⟨h.unchanged, rfl, by simp⟩
  | cons span rest ih =>
      have hspan := hlist span List.mem_cons_self
      have haddress : (UInt32.ofNat (address.toNat + span.1)).toNat = address.toNat + span.1 :=
        Catalog.toNat_ofNat_of_le (by omega)
      rw [List.mapM'_cons, Action.ends_bind]
      unfold readSpan
      rw [Action.ends_bind]
      refine (ends_readZeroed h (UInt32.ofNat (address.toNat + span.1)) span.2).mono ?_ ?_
      · rintro bytes middle ⟨hmiddle, rfl, haccepts, -⟩
        rw [haddress, Action.ends_bind, Action.ends_report, Action.ends_pure, Action.ends_bind]
        have hreported := hmiddle.withReports (middle.reports.push (span.1 + span.2))
        have hmemory := hreported.chip.memory
        refine (ih (h.of_unchanged hreported) fun other hother =>
          hlist other (List.mem_cons_of_mem span hother)).mono ?_ ?_
        · rintro parts after ⟨hafter, rfl, hrest⟩
          rw [hmemory]
          refine ⟨hreported.trans hafter, rfl, fun other hother hlength => ?_⟩
          rcases List.mem_cons.mp hother with rfl | hother
          · exact haccepts hlength
          · exact (accepts_iff_of_unchanged hreported).mp (hrest other hother hlength)
        · rintro fault after ⟨hafter, hdenied⟩
          refine ⟨hreported.trans hafter, fun hbench haccepts => ?_⟩
          exact hdenied (hreported.chip.responsive hbench)
            ((accepts_iff_of_unchanged hreported).mpr haccepts)
      · rintro fault after ⟨hafter, houtside⟩
        rw [haddress] at houtside
        exact ⟨hafter, fun hbench haccepts => houtside hbench haccepts hspan⟩

/-- A read that reports delivers the memory or is denied. -/
theorem ends_readReporting (hcapacity : identity.device.capacity ≤ addressable 24)
    (address : UInt32) (length : Nat) :
    (engine.readReporting address length).Ends Bench.environment
      (Delivers identity width bench address.toNat length)
      (fun _ => Denies identity width bench address.toNat length) bench := by
  unfold readReporting
  rw [requireDevice_of_identity h.identity, Action.ends_bind, Action.ends_discard,
    Action.ends_ofExcept]
  show Action.Ends _ (_ >>= _) _ _ _
  rw [Action.ends_bind, Action.ends_ofExcept]
  obtain ⟨hrange, hcheck⟩ | ⟨hrange, fault, hcheck⟩ :=
    checkRange_of_identity h.identity address length
  · rw [hcheck]
    show Action.Ends _ (_ >>= _) _ _ _
    have hadjoins := adjoining_spans length (transferSize_pos length)
    have hreported := h.unchanged.withReports (bench.reports.push 0)
    rw [Action.ends_bind, Action.ends_report, Action.ends_bind]
    refine (ends_mapM_readSpan (h.of_unchanged hreported) hcapacity fun span hspan => ?_).mono
      ?_ ?_
    · obtain ⟨-, -, hend⟩ := hadjoins.within hspan
      omega
    · rintro parts after ⟨hafter, rfl, haccepts⟩
      rw [Action.ends_bind, Action.ends_report, Action.ends_pure,
        flatten_spans _ _ _ (transferSize_pos length)]
      refine ⟨(hreported.trans hafter).withReports _, ?_, fun hlength => ?_, fun _ => hrange⟩
      · rw [hreported.chip.memory]
      · -- Any one part tells that the chip accepts reads, and there is a first.
        obtain ⟨span, hspan⟩ := List.exists_mem_of_ne_nil _
          (hadjoins.ne_nil (Nat.pos_of_ne_zero hlength))
        have hpart := haccepts span hspan (Nat.ne_of_gt (hadjoins.within hspan).2.1)
        exact (accepts_iff_of_unchanged hreported).mp hpart
    · rintro fault after ⟨hafter, hdenied⟩
      refine ⟨hreported.trans hafter, fun hbench haccepts _ => ?_⟩
      exact hdenied (hreported.chip.responsive hbench)
        ((accepts_iff_of_unchanged hreported).mpr haccepts)
  · rw [hcheck]
    exact ⟨h.unchanged, fun _ _ => hrange⟩

/-- A metered read delivers the memory or is denied. -/
theorem ends_readMetered (hcapacity : identity.device.capacity ≤ addressable 24)
    (address : UInt32) (length : Nat) :
    (engine.readMetered address length).Ends Bench.environment
      (Delivers identity width bench address.toNat length)
      (fun _ => Denies identity width bench address.toNat length) bench := by
  refine Action.ends_silenced ((ends_readReporting h hcapacity address length).mono ?_ ?_)
  · exact fun bytes after hafter =>
      ⟨hafter.unchanged.withReports _, hafter.bytes_eq, hafter.accepts, hafter.within⟩
  · exact fun fault after hafter => ⟨hafter.unchanged.withReports _, hafter.outside⟩

/-- A read from a sector delivers its memory or is denied. -/
theorem ends_readSector (hcapacity : identity.device.capacity ≤ addressable 24)
    (sector : UInt32) (length : Nat) :
    (engine.readSector sector length).Ends Bench.environment
      (Delivers identity width bench (sector.toNat * identity.device.sectorSize.toNat) length)
      (fun _ => Denies identity width bench
        (sector.toNat * identity.device.sectorSize.toNat) length) bench := by
  unfold readSector sectorAddress
  rw [requireDevice_of_identity h.identity, Action.ends_bind, Action.ends_ofExcept]
  show settle _ _ (if _ then _ else _) _
  split
  · rename_i haddress
    have hexact : (UInt32.ofNat (sector.toNat * identity.device.sectorSize.toNat)).toNat =
        sector.toNat * identity.device.sectorSize.toNat :=
      UInt32.toNat_ofNat_of_lt' (Nat.lt_of_le_of_lt haddress (by decide))
    have hread :=
      ends_read h (UInt32.ofNat (sector.toNat * identity.device.sectorSize.toNat)) length
    rw [hexact] at hread
    exact hread
  · rename_i haddress
    refine ⟨h.unchanged, fun _ _ hrange => haddress ?_⟩
    have hlast : addressable 24 ≤ lastAddress := by decide
    omega

end Attuned

/-- The address and the number of bytes that an operation reads, if it is a read. -/
def readRange? (engine : Engine) : Operation → Option (Nat × Nat)
  | .read address length | .readReporting address length | .readMetered address length =>
      some (address.toNat, length)
  | .readInto address buffer => some (address.toNat, buffer.length)
  | .readSector sector length => some (sector.toNat * engine.sectorSize, length)
  | _ => none

end Engine

/-- The bytes that a successful read gives to its caller, as a value or in the caller's buffer. -/
def Outcome.delivered? (outcome : Outcome) : Option Bytes :=
  match outcome.result, outcome.buffer with
  | .ok (.bytes bytes), _ => some bytes
  | .ok .nothing, some bytes => some bytes
  | _, _ => none

namespace Engine

variable {bench after : Bench} {engine : Engine} {identity : Identity} {width : BusWidth}
  {address length : Nat}

/-- A read ends with what the chip stores, or it fails. -/
theorem ends_perform {operation : Operation} (h : engine.Attuned identity width bench)
    (hcapacity : identity.device.capacity ≤ addressable 24)
    (hrange : engine.readRange? operation = some (address, length)) :
    (engine.perform operation).Ends Bench.environment
      (fun outcome after =>
        (∃ bytes, outcome.delivered? = some bytes ∧
          Delivers identity width bench address length bytes after) ∨
        ((∃ fault, outcome.result = .error fault) ∧
          Denies identity width bench address length after)) bench := by
  have hvalue : ∀ {action : Action Bytes},
      action.Ends Bench.environment (Delivers identity width bench address length)
        (fun _ => Denies identity width bench address length) bench →
      (Outcome.ofValue .bytes <$> action.run).Ends Bench.environment
        (fun outcome after =>
          (∃ bytes, outcome.delivered? = some bytes ∧
            Delivers identity width bench address length bytes after) ∨
          ((∃ fault, outcome.result = .error fault) ∧
            Denies identity width bench address length after)) bench := by
    intro action haction
    rw [Program.ends_map]
    refine Program.Ends.mono haction ?_
    rintro (fault | bytes) after hafter
    · exact .inr ⟨⟨fault, rfl⟩, hafter⟩
    · exact .inl ⟨bytes, rfl, hafter⟩
  cases operation with
  | read start count =>
      obtain ⟨rfl, rfl⟩ := Prod.mk.inj (Option.some.inj hrange)
      exact hvalue (ends_read h start count)
  | readInto start buffer =>
      obtain ⟨rfl, rfl⟩ := Prod.mk.inj (Option.some.inj hrange)
      refine (Program.ends_bind ..).mpr ((ends_readInto h start buffer).mono ?_)
      rintro ⟨result, bytes⟩ after (⟨rfl, hdelivers⟩ | ⟨⟨fault, rfl⟩, hdenies⟩)
      · exact .inl ⟨bytes, rfl, hdelivers⟩
      · exact .inr ⟨⟨fault, rfl⟩, hdenies⟩
  | readReporting start count =>
      obtain ⟨rfl, rfl⟩ := Prod.mk.inj (Option.some.inj hrange)
      exact hvalue (ends_readReporting h hcapacity start count)
  | readMetered start count =>
      obtain ⟨rfl, rfl⟩ := Prod.mk.inj (Option.some.inj hrange)
      exact hvalue (ends_readMetered h hcapacity start count)
  | readSector sector count =>
      obtain ⟨rfl, rfl⟩ := Prod.mk.inj (Option.some.inj hrange)
      have hsize : engine.sectorSize = identity.device.sectorSize.toNat := by
        simp [sectorSize, device?, h.identity]
      have hread := ends_readSector h hcapacity sector count
      rw [← hsize] at hread
      exact hvalue hread
  | _ => simp [readRange?] at hrange

/-- Without a device every read fails. -/
theorem ends_perform_unidentified {operation : Operation} {range : Nat × Nat}
    (h : engine.identity = none) (hrange : engine.readRange? operation = some range) :
    (engine.perform operation).Ends Bench.environment
      (fun outcome _ => outcome.result.isOk = false) bench := by
  have hdevice : engine.requireDevice = .error .notIdentified := by
    simp [requireDevice, device?, h]
  cases operation with
  | read start count =>
      simp only [perform, read, hdevice]
      rfl
  | readInto start buffer =>
      simp only [perform, readInto, hdevice]
      rfl
  | readReporting start count =>
      simp only [perform, readReporting, hdevice]
      rfl
  | readMetered start count =>
      simp only [perform, readMetered, readReporting, hdevice]
      rfl
  | readSector sector count =>
      simp only [perform, readSector, sectorAddress, hdevice]
      rfl
  | _ => simp [readRange?] at hrange

end Engine

end NorFlash
