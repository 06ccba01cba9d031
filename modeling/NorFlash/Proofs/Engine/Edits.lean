import NorFlash.Proofs.Bench.Shadow
import NorFlash.Proofs.Chip.Discipline
import NorFlash.Proofs.Engine.Turns
import NorFlash.Proofs.Engine.Writing

/-!
# Edits of the memory

An `Edit` is a page program or a sector erase, and `BusCall.Edits` says of a call which of them it
may ask a chip for. Whether the chip refuses the call, does not hear it or carries it out and does
not say so, it leaves memory and log alone or makes one of these edits: `Chip.answer_edits`. So what
each edit keeps is kept by a whole operation, however failures come and go, and wherever it stops:
`Program.Orderly.edits_upsetting`. A read tells the truth if it succeeds: `ends_read_upsetting`.
-/

namespace NorFlash

/-- A change of the memory that a chip is asked for. -/
inductive Edit where
  | program (address : UInt32) (bytes : Bytes)
  /-- An erase of the sector around the address. -/
  | erase (address : UInt32)

namespace Edit

/-- The memory after an edit. -/
def apply (memory : Memory) : Edit → Memory
  | program address bytes => (memory.program address.toNat bytes).memory
  | erase address => memory.eraseUnit EraseUnit.sector.bits address.toNat

/-- What a chip logs of an edit. -/
def event (memory : Memory) : Edit → MemoryEvent
  | program address bytes => memory.programEvent address bytes
  | erase address => memory.eraseEvent EraseUnit.sector.bits address.toNat

/-- The edits that are allowed keep a property of the memory and the log. -/
def Keep (allowed : Edit → Prop) (property : Memory → Array MemoryEvent → Prop) : Prop :=
  ∀ edit memory events, allowed edit → property memory events →
    property (edit.apply memory) (events.push (edit.event memory))

end Edit

variable {α : Type} {allowed : Edit → Prop} {codes : List UInt8}
  {settings : Nat → Chip → FailurePlan × CompletionMode}

/-- The call asks for no edit, or for one that is allowed. -/
inductive BusCall.Edits (allowed : Edit → Prop) : BusCall → Prop where
  | passive {request : BusCall} (h : ∀ code ∈ request.code?,
      Instruction.hasOnSome Instruction.changesMemory code = false) : Edits allowed request
  | program {address : UInt32} {bytes : Bytes} (width : BusWidth)
      (h : allowed (.program address bytes)) :
      Edits allowed (.start (Engine.programCommand width address bytes))
  | erase {address : UInt32} (width : BusWidth) (h : allowed (.erase address)) :
      Edits allowed (.command ((EraseKind.unit .sector).command address width))

namespace BusCall

/-- To abort edits nothing. -/
theorem edits_abort : Edits allowed .abort :=
  .passive fun _ hcode => by cases hcode

/-- To poll edits nothing. -/
theorem edits_poll (poll : StatusPoll) : Edits allowed (.poll poll) :=
  .passive fun _ hcode => by cases hcode

/-- Calls that change no memory ask for no edit. -/
theorem Edits.of_among {request : BusCall} (h : request.Among codes)
    (hcodes : Instruction.NoneAmong Instruction.changesMemory codes) : request.Edits allowed :=
  .passive fun code hcode => hcodes code (h code hcode)

/-- A call that makes only some edits makes only more. -/
theorem Edits.mono {more : Edit → Prop} {request : BusCall} (h : request.Edits allowed)
    (hmore : ∀ edit, allowed edit → more edit) : request.Edits more := by
  cases h with
  | passive hpassive => exact .passive hpassive
  | program width hprogram => exact .program width (hmore _ hprogram)
  | erase width herase => exact .erase width (hmore _ herase)

end BusCall

/-- A call leaves memory and log alone, or it makes an edit that is allowed. -/
theorem Chip.answer_edits {request : BusCall} (h : request.Edits allowed) (chip : Chip) :
    Untouched chip (chip.answer request).2 ∨
      ∃ edit, allowed edit ∧ (chip.answer request).2.memory = edit.apply chip.memory ∧
        (chip.answer request).2.events = chip.events.push (edit.event chip.memory) := by
  rcases answer_cases chip request with
    hkept | ⟨command, instruction, hsent, -, hdecode, -, -, hafter⟩
  · exact .inl hkept
  rcases untouched_or_writes_answer chip request with hkept | ⟨_, _, -, -, -, hwrites⟩
  · exact .inl hkept
  have hlatch := hwrites.enabled
  rw [hafter]
  cases h with
  | passive hpassive =>
      rw [← hafter]
      exact .inl (untouched_answer hpassive)
  | program width hallowed =>
      obtain rfl := Option.some.inj hsent
      obtain rfl : Instruction.program = instruction := Option.some.inj <|
        (Instruction.decode?_of_shared
          (show Instruction.shared.lookup Opcode.pageProgram.code = some .program by decide)
          chip.vendor).symm.trans hdecode
      exact .inr ⟨_, hallowed, memory_heed_program hlatch rfl rfl,
        events_heed_program hlatch rfl rfl⟩
  | erase width hallowed =>
      obtain rfl := Option.some.inj hsent
      obtain rfl : (EraseKind.unit .sector).instruction = instruction := Option.some.inj <|
        (Instruction.decode?_of_shared (EraseKind.unit .sector).lookup_opcode
          chip.vendor).symm.trans hdecode
      exact .inr ⟨_, hallowed, memory_heed_erase hlatch, events_heed_erase hlatch⟩

/-- However failures come and go, a program that asks for no edits but those allowed keeps what each
of them keeps. -/
theorem Program.Orderly.edits_upsetting {widths : BusWidth → Prop} {values : α → Prop}
    {property : Memory → Array MemoryEvent → Prop} {program : Program α} {bench : Bench}
    (h : program.Orderly (BusCall.Edits allowed) widths false values false)
    (hkeep : Edit.Keep allowed property) (hfree : bench.Free widths)
    (hproperty : property bench.chip.memory bench.chip.events) (count : Nat) :
    program.Ends (Bench.upsetting settings)
      (fun _ after => property after.1.chip.memory after.1.chip.events ∧ after.1.Free widths)
      (bench, count) := by
  let kept (chip : Chip) : Prop := property chip.memory chip.events
  have hcall : ∀ request chip, request.Edits allowed → kept chip →
      kept (chip.answer request).2 := by
    intro request chip hrequest hchip
    rcases Chip.answer_edits hrequest chip with
      ⟨hmemory, hevents⟩ | ⟨edit, hallowed, hmemory, hevents⟩
    · unfold kept
      rwa [hmemory, hevents]
    · unfold kept
      rw [hmemory, hevents]
      exact hkeep edit _ _ hallowed hchip
  exact h.keeps_upsetting hcall (fun _ _ hchip => hchip) hfree hproperty count

/-! ## What operations ask for -/

/-- Whatever the program is answered, it asks for no edits but those allowed. -/
abbrev Action.Edits (allowed : Edit → Prop) (action : Action α) : Prop :=
  action.Orderly (BusCall.Edits allowed) (fun _ => True) false

/-- An action that makes only some edits makes only more. -/
theorem Action.Edits.mono {more : Edit → Prop} {action : Action α} (h : action.Edits allowed)
    (hmore : ∀ edit, allowed edit → more edit) : action.Edits more :=
  Program.Orderly.mono h (fun _ hrequest => hrequest.mono hmore) fun _ hvalue => hvalue

/-- As `Action.Edits`, while the bus is held. -/
abbrev BusAction.Edits (allowed : Edit → Prop) (action : BusAction α) : Prop :=
  action.Orderly (BusCall.Edits allowed) (fun _ => True)

namespace Engine

variable {engine : Engine}

/-- Taking the bus edits nothing. -/
theorem edits_withBus {action : BusAction α} (h : action.Edits allowed) :
    (engine.withBus action).Edits allowed :=
  orderly_withBus BusCall.edits_abort h

/-- A read edits nothing. -/
theorem edits_read (address : UInt32) (length : Nat) :
    (engine.read address length).Edits allowed :=
  (engine.orderly_read address length).mono
    (fun _ hrequest => .of_among hrequest (by decide)) fun _ hvalue => hvalue

/-- Enabling a write edits nothing. -/
theorem edits_enableWrite : enableWrite.Edits allowed := by
  refine BusAction.orderly_width_bind fun _ _ => BusAction.orderly_instruct (.passive ?_)
  rintro _ ⟨⟩
  show Instruction.hasOnSome Instruction.changesMemory Opcode.writeEnable.code = false
  decide

/-- Waiting for a chip that is busy edits nothing. -/
theorem edits_waitWhileBusy (patience : Nat) : (waitWhileBusy patience).Edits allowed :=
  BusAction.orderly_width_bind fun _ _ =>
    (BusAction.orderly_transfer (BusCall.edits_poll _) BusCall.edits_abort patience).discard

/-- A page program makes its own edit. -/
theorem edits_pageProgram {address : UInt32} {bytes : Bytes}
    (h : allowed (.program address bytes)) : (engine.pageProgram address bytes).Edits allowed := by
  refine (Action.orderly_ofExcept _).discard.bind fun _ => edits_withBus ?_
  refine BusAction.orderly_width_bind fun width _ => edits_enableWrite.bind fun _ => ?_
  exact (BusAction.orderly_transfer (.program width h) BusCall.edits_abort _).discard.bind fun _ =>
    edits_waitWhileBusy _

/-- A write asks for a program of each piece. -/
theorem edits_write {address : UInt32} {bytes : Bytes}
    (h : ∀ piece ∈ Page.cut address.toNat bytes,
      allowed (.program (UInt32.ofNat piece.address) piece.bytes)) :
    (engine.write address bytes).Edits allowed := by
  refine Action.Orderly.silenced ((Action.orderly_ofExcept _).discard.bind fun _ => ?_)
  split
  · exact Action.orderly_pure ()
  · refine (Action.orderly_ofExcept _).bind fun _ => (Action.orderly_report 0).bind fun _ => ?_
    exact Action.orderly_forM fun piece hpiece =>
      (edits_pageProgram (h piece hpiece)).bind fun _ => Action.orderly_report _

/-- A sector erase asks for an erase of the sector. -/
theorem edits_eraseSector {sector : UInt32}
    (h : ∀ address, engine.sectorAddress sector = .ok address → allowed (.erase address)) :
    (engine.eraseSector sector).Edits allowed := by
  refine Action.orderly_ofExcept_bind fun address haddress => ?_
  refine (Action.orderly_ofExcept _).discard.bind fun _ => (Action.orderly_ofExcept _).bind
    fun _ => edits_withBus ?_
  refine BusAction.orderly_width_bind fun width _ => edits_enableWrite.bind fun _ => ?_
  exact (BusAction.orderly_call (.erase width (h address haddress))).discard.bind fun _ =>
    edits_waitWhileBusy _

/-- However failures come and go, a read delivers what is stored or fails, and it changes neither
the memory nor the log. -/
theorem ends_read_upsetting {bench : Bench} {identity : Identity} {width : BusWidth}
    (h : engine.Attuned identity width bench) (address : UInt32) (length started : Nat) :
    (engine.read address length).Ends (Bench.upsetting settings)
      (fun bytes after => bytes = bench.chip.memory.read address.toNat length ∧
        Chip.Untouched bench.chip after.1.chip ∧ after.1.Free fun _ => True)
      (fun _ after => Chip.Untouched bench.chip after.1.chip ∧ after.1.Free fun _ => True)
      (bench, started) := by
  have hcalm : engine.Attuned identity width bench.calmed :=
    ⟨h.identity, h.bus, h.hears.of_mode rfl⟩
  have hshadows : (engine.read address length).Shadows settings :=
    engine.shadows_read address length
  obtain ⟨bus, hbus, -⟩ := h.bus
  let same (memory : Memory) (events : Array MemoryEvent) : Prop :=
    memory = bench.chip.memory ∧ events = bench.chip.events
  have hkeep : Edit.Keep (fun _ => False) same := fun _ _ _ hnever => hnever.elim
  refine ((hshadows.ends (ends_read hcalm address length) started).and_run
    ((engine.edits_read address length).edits_upsetting hkeep ⟨bus, hbus, trivial⟩ ⟨rfl, rfl⟩
      started)).mono ?_ ?_
  · rintro bytes after ⟨⟨calm, -, hdelivers⟩, hafter⟩
    exact ⟨hdelivers.bytes_eq, hafter⟩
  · exact fun _ _ hafter => hafter.2

end Engine

end NorFlash
