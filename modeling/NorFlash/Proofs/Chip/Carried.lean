import NorFlash.Proofs.Chip.Overlay
import NorFlash.Proofs.Engine.Turns

/-!
# Calls that a chip carries out

`Chip.carry?` is a chip after a call that it does not refuse. `programmed_of_turn` is what the calls
of one turn do to a chip that hears them: the page is programmed, under the write enable that was
sent for it.
-/

namespace NorFlash

/-- The address and the length that a page program was sent with. -/
def MemoryEvent.span? : MemoryEvent → Option (UInt32 × Nat)
  | program address length _ _ => some (address, length)
  | erase .. => none

/-- The call that is to be made. -/
def Line.call? : Line → Option BusCall
  | abort => some .abort
  | call request => some request
  | _ => none

/-- The calls that program a page: a write enable, the program and the wait for its end. -/
def PagePiece.calls (width : BusWidth) (piece : PagePiece) : List BusCall :=
  [.command (.instruct Opcode.writeEnable.code width),
    .start (Engine.programCommand width (UInt32.ofNat piece.address) piece.bytes),
    .poll (Engine.idlePoll width)]

namespace Line

/-- Programming a piece is its two commands. -/
theorem calls_programming (width : BusWidth) (piece : PagePiece) :
    (programming width piece).filterMap call? = piece.calls width :=
  rfl

/-- A page program ends the mapping, if there is one, and then issues its two commands. -/
theorem calls_body (bus : BusState) (piece : PagePiece) :
    (body bus piece).filterMap call? =
      (if bus.mapped then [.abort] else []) ++ piece.calls bus.width := by
  cases hmapped : bus.mapped <;> simp [body, call?, hmapped, ← calls_programming]

/-- Giving the bus back is not a call. -/
theorem calls_turn (bus : BusState) (piece : PagePiece) :
    (turn bus piece).filterMap call? = (body bus piece).filterMap call? := by
  rw [turn, List.filterMap_append]
  exact List.append_nil _

end Line

namespace Chip

variable {chip after : Chip} {request : BusCall} {command : Command} {width : BusWidth}
  {instruction : Instruction}

/-- The chip after a call, unless it refuses the call. -/
def carry? (chip : Chip) (request : BusCall) : Option Chip :=
  if (chip.answer request).1.reply.isOk then some (chip.answer request).2 else none

/-- A call is carried out if it is answered without a fault. -/
theorem carry?_eq_some :
    chip.carry? request = some after ↔
      (chip.answer request).1.reply.isOk = true ∧ (chip.answer request).2 = after := by
  simp [carry?]

/-- The page was programmed, and logged, and the chip's mode is as before. -/
structure Programmed (piece : PagePiece) (before after : Chip) : Prop where
  mode : after.mode = before.mode
  memory : after.memory =
    (before.memory.program (UInt32.ofNat piece.address).toNat piece.bytes).memory
  logged : ∃ event, after.events = before.events.push event ∧
    event.span? = some (UInt32.ofNat piece.address, piece.bytes.length)

/-- A command that is heard and not refused takes its effect. -/
theorem heed_of_carry (hhears : chip.Hears command.width)
    (hdecode : Instruction.decode? chip.vendor command.instruction = some instruction)
    (hrequest : request = .command command ∨ request = .start command)
    (h : chip.carry? request = some after) : after = (chip.heed instruction command).2 := by
  obtain ⟨hok, rfl⟩ := carry?_eq_some.mp h
  have hexecute : (chip.answer request).1.reply = (chip.execute command).1 ∧
      (chip.answer request).2 = (chip.execute command).2 := by
    rcases hrequest with rfl | rfl <;> exact ⟨rfl, rfl⟩
  rw [hexecute.1, execute_eq] at hok
  rw [hexecute.2, execute_eq]
  split
  · rename_i hrefuses
    simp [hrefuses, Except.isOk, Except.toBool] at hok
  · rw [accept_of_decode hhears hdecode]

/-- A poll changes nothing that is looked at here. -/
theorem kept_of_carry_poll {poll : StatusPoll} (h : chip.carry? (.poll poll) = some after) :
    after.mode = chip.mode ∧ after.memory = chip.memory ∧ after.events = chip.events := by
  obtain ⟨-, rfl⟩ := carry?_eq_some.mp h
  unfold answer Chip.poll drawFailure
  cases chip.plan.next.1 <;> exact ⟨rfl, rfl, rfl⟩

/-- The calls for a page, made of a chip that hears them. -/
theorem programmed_of_programming {piece : PagePiece} (hhears : chip.Hears width)
    (h : (piece.calls width).foldlM carry? chip = some after) : Programmed piece chip after := by
  simp only [PagePiece.calls, List.foldlM_cons, List.foldlM_nil, Option.bind_eq_bind,
    Option.bind_eq_some_iff] at h
  obtain ⟨enabled, henable, programmed, hprogram, polled, hpoll, hafter⟩ := h
  obtain rfl := Option.some.inj hafter
  have henableDecode := Instruction.decode?_of_shared
    (show Instruction.shared.lookup Opcode.writeEnable.code = some .enableWrite by decide)
    chip.vendor
  have hprogramDecode := Instruction.decode?_of_shared
    (show Instruction.shared.lookup Opcode.pageProgram.code = some .program by decide)
    enabled.vendor
  have henabled := heed_of_carry hhears henableDecode (.inl rfl) henable
  have hmode : enabled.mode = chip.mode := henabled ▸ mode_heed rfl
  have hlatch : enabled.latches.writeEnable = true := henabled ▸ rfl
  have hprogrammed := heed_of_carry (hhears.of_mode hmode) hprogramDecode (.inr rfl) hprogram
  obtain ⟨hpollMode, hpollMemory, hpollEvents⟩ := kept_of_carry_poll hpoll
  have hmemory : enabled.memory = chip.memory := henabled ▸ rfl
  refine ⟨hpollMode.trans (hprogrammed ▸ (mode_heed rfl).trans hmode), ?_,
    chip.memory.programEvent (UInt32.ofNat piece.address) piece.bytes, ?_, rfl⟩
  · rw [hpollMemory, hprogrammed, memory_heed_program hlatch rfl rfl, hmemory]
  · have hevents : enabled.events = chip.events := henabled ▸ rfl
    rw [hpollEvents, hprogrammed, events_heed_program hlatch rfl rfl, hevents, hmemory]

/-- The calls of a turn. -/
theorem programmed_of_turn {bus : BusState} {piece : PagePiece} (hhears : chip.Hears bus.width)
    (h : ((Line.turn bus piece).filterMap Line.call?).foldlM carry? chip = some after) :
    Programmed piece chip after := by
  rw [Line.calls_turn, Line.calls_body, List.foldlM_append] at h
  obtain ⟨unmapped, hunmapped, hprogramming⟩ := Option.bind_eq_some_iff.mp h
  have hkept : unmapped.mode = chip.mode ∧ unmapped.memory = chip.memory ∧
      unmapped.events = chip.events := by
    cases hmapped : bus.mapped with
    | false =>
        obtain rfl : chip = unmapped := by simpa [hmapped] using hunmapped
        exact ⟨rfl, rfl, rfl⟩
    | true =>
        have habort : chip.carry? .abort = some unmapped := by simpa [hmapped] using hunmapped
        obtain ⟨-, rfl⟩ := carry?_eq_some.mp habort
        exact ⟨rfl, rfl, rfl⟩
  obtain ⟨hmode, hmemory, hevents⟩ := hkept
  obtain ⟨hafter, hafterMemory, hlogged⟩ :=
    programmed_of_programming (hhears.of_mode hmode) hprogramming
  rw [hmemory] at hafterMemory
  rw [hevents] at hlogged
  exact ⟨hafter.trans hmode, hafterMemory, hlogged⟩

end Chip

end NorFlash
