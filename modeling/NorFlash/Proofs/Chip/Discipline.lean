import NorFlash.Proofs.Chip.Handling

/-!
# The write discipline of the chip

Programming clears bits within a page, and only an erase sets bits, those of a whole unit.
`Chip.answer_cases` says of any call that it leaves memory and log alone or is a command to program
or to erase that the chip hears, and `Chip.untouched_or_writes_obey` what such a command does. From
the two follows `Chip.memory_changes_by_writes`: every change of the memory, by whatever call, is a
write under write enable and is logged, and a run of calls that logs no erase never sets a bit.
-/

namespace NorFlash

namespace Memory

variable {memory before middle after : Memory} {address size : Nat}

/-- No bit went from 0 to 1. -/
structure OnlyCleared (before after : Memory) : Prop where
  bits : after.bits = before.bits
  subset : ∀ place, after.byteAt place &&& before.byteAt place = after.byteAt place

namespace OnlyCleared

/-- A memory left alone has lost no bit. -/
theorem refl (memory : Memory) : OnlyCleared memory memory :=
  ⟨rfl, fun _ => UInt8.and_self⟩

/-- Bits cleared twice over are only cleared. -/
theorem trans (h : OnlyCleared before middle) (hnext : OnlyCleared middle after) :
    OnlyCleared before after := by
  refine ⟨hnext.bits.trans h.bits, fun place => ?_⟩
  calc after.byteAt place &&& before.byteAt place
      = after.byteAt place &&& middle.byteAt place &&& before.byteAt place := by
        rw [hnext.subset place]
    _ = after.byteAt place &&& middle.byteAt place := by
        rw [UInt8.and_assoc, h.subset place]
    _ = after.byteAt place := hnext.subset place

end OnlyCleared

/-- Only bits of the page around an address were cleared, and no bit was set. -/
structure PageCleared (address : Nat) (before after : Memory) : Prop extends
    OnlyCleared before after where
  elsewhere : ∀ place, before.pageBase place ≠ before.pageBase address →
    after.byteAt place = before.byteAt place

/-- The aligned unit of `size` bytes around an address was erased, and nothing else changed. -/
structure UnitErased (size address : Nat) (before after : Memory) : Prop where
  bits : after.bits = before.bits
  inside : ∀ place, before.index place / size = before.index address / size →
    after.byteAt place = Bytes.erased
  elsewhere : ∀ place, before.index place / size ≠ before.index address / size →
    after.byteAt place = before.byteAt place

/-- Where a page begins depends on the size of the memory only. -/
theorem pageBase_of_bits (h : after.bits = before.bits) (place : Nat) :
    after.pageBase place = before.pageBase place := by
  simp only [pageBase, index, size, h]

/-- Clearing in a page twice over is clearing in it. -/
theorem PageCleared.trans (h : PageCleared address before middle)
    (hnext : PageCleared address middle after) : PageCleared address before after := by
  refine ⟨h.toOnlyCleared.trans hnext.toOnlyCleared, fun place hplace => ?_⟩
  have hbase := pageBase_of_bits h.bits
  rw [hnext.elsewhere place (by rwa [hbase, hbase]), h.elsewhere place hplace]

/-- The cell that a byte is programmed into is one of the memory. -/
theorem index_programCell (memory : Memory) (address offset : Nat) :
    memory.index (memory.programCell address offset) = memory.programCell address offset :=
  Nat.mod_eq_of_lt (memory.programCell_lt address offset)

/-- Every byte that a program sends goes to the page it was addressed to. -/
theorem pageBase_programCell (memory : Memory) (address offset : Nat) :
    memory.pageBase (memory.programCell address offset) = memory.pageBase address := by
  rw [pageBase, index_programCell, programCell, pageBase]
  unfold pageSize
  omega

/-- Programming a byte clears bits in its page only. -/
theorem pageCleared_programByte (course : Programming) (placed : UInt8 × Nat) :
    PageCleared address course.memory (programByte address course placed).memory := by
  let cell := course.memory.programCell address placed.2
  have hcell : course.memory.pageBase cell = course.memory.pageBase address :=
    pageBase_programCell ..
  have hbyte : ∀ place, (programByte address course placed).memory.byteAt place =
      if course.memory.index place = course.memory.index cell then
        course.memory.byteAt cell &&& placed.1
      else course.memory.byteAt place := fun place => byteAt_set course.memory cell place _
  refine ⟨⟨rfl, fun place => ?_⟩, fun place hplace => ?_⟩
  · rw [hbyte]
    split
    · rename_i hindex
      have hold : course.memory.byteAt place = course.memory.byteAt cell := by
        rw [byteAt, byteAt, hindex]
      rw [hold, UInt8.and_comm, ← UInt8.and_assoc, UInt8.and_self]
    · exact UInt8.and_self
  · rw [hbyte, if_neg]
    intro hindex
    exact hplace ((congrArg (· / pageSize * pageSize) hindex).trans hcell)

/-- However much data is sent, and wherever in its page it starts, one page is programmed. -/
theorem pageCleared_program (memory : Memory) (address : Nat) (bytes : Bytes) :
    PageCleared address memory (memory.program address bytes).memory := by
  unfold program
  suffices h : ∀ (placed : List (UInt8 × Nat)) (course : Programming),
      PageCleared address course.memory (placed.foldl (programByte address) course).memory from
    h _ ⟨memory, true, false⟩
  intro placed
  induction placed with
  | nil => exact fun course => ⟨.refl course.memory, fun _ _ => rfl⟩
  | cons first rest ih =>
      exact fun course => (pageCleared_programByte course first).trans (ih _)

/-- A unit that would reach past the end of the memory is all of it. -/
theorem unitErased_eraseUnit (memory : Memory) (unitBits address : Nat) :
    UnitErased (min (addressable unitBits) memory.size) address memory
      (memory.eraseUnit unitBits address) := by
  have hunit : ∀ place, memory.index place / min (addressable unitBits) memory.size =
      memory.index address / min (addressable unitBits) memory.size ↔
        memory.index place / addressable unitBits =
          memory.index address / addressable unitBits := by
    intro place
    rcases Nat.le_total (addressable unitBits) memory.size with hle | hle
    · rw [Nat.min_eq_left hle]
    · have hplace := memory.index_lt place
      have haddress := memory.index_lt address
      rw [Nat.min_eq_right hle, Nat.div_eq_of_lt hplace, Nat.div_eq_of_lt haddress,
        Nat.div_eq_of_lt (Nat.lt_of_lt_of_le hplace hle),
        Nat.div_eq_of_lt (Nat.lt_of_lt_of_le haddress hle)]
  refine ⟨rfl, fun place hplace => ?_, fun place hplace => ?_⟩
  · rw [byteAt_eraseUnit, if_pos ((hunit place).mp hplace)]
  · rw [byteAt_eraseUnit, if_neg (hplace ∘ (hunit place).mpr)]

/-- All addresses lie in the one unit that is the whole memory. -/
theorem UnitErased.of_whole {other : Nat} (h : UnitErased before.size address before after) :
    UnitErased before.size other before after := by
  have hzero : ∀ place, before.index place / before.size = 0 := fun place =>
    Nat.div_eq_of_lt (before.index_lt place)
  refine ⟨h.bits, fun place _ => h.inside place (by rw [hzero, hzero]), fun place hplace => ?_⟩
  exact absurd (by rw [hzero, hzero]) hplace

end Memory

/-! ## The commands that write -/

/-- The address a command selects: 0 if it has no address phase. -/
def Command.location (command : Command) : UInt32 :=
  match command.address with
  | some (address, _) => address
  | none => 0

/-- The number of bytes that an erase clears in a memory. -/
def EraseKind.reach (memory : Memory) : EraseKind → Nat
  | .unit area => min area.size memory.size
  | .chip => memory.size

/-- The change is an erase. -/
def MemoryEvent.isErase : MemoryEvent → Bool
  | erase .. => true
  | program .. => false

namespace Instruction

variable {vendor : Vendor} {code : UInt8}

/-- Only the page program byte stands for programming. -/
theorem code_of_program (h : decode? vendor code = some .program) :
    code = Opcode.pageProgram.code := by
  have hmem := mem_of_lookup h
  cases vendor <;> simpa [shared, ofVendor] using hmem

/-- Only its own byte stands for erasing a unit. -/
theorem code_of_erase {unit : EraseUnit} (h : decode? vendor code = some (.erase unit)) :
    code = (EraseKind.unit unit).opcode := by
  have hmem := mem_of_lookup h
  cases vendor <;> cases unit <;> simpa [shared, ofVendor, EraseKind.opcode] using hmem

/-- Only the chip erase byte stands for erasing everything. -/
theorem code_of_eraseChip (h : decode? vendor code = some .eraseChip) :
    code = EraseKind.chip.opcode := by
  have hmem := mem_of_lookup h
  cases vendor <;> simpa [shared, ofVendor] using hmem

end Instruction

namespace Chip

/-- The two ways in which a command changes the memory, with what is logged of them. -/
inductive Alters (command : Command) (before after : Memory) : MemoryEvent → Prop where
  | programmed (length : Nat) (ontoErased needsErase : Bool)
      (hcode : command.instruction = Opcode.pageProgram.code)
      (hpage : Memory.PageCleared command.location.toNat before after) :
      Alters command before after (.program command.location length ontoErased needsErase)
  | erased (kind : EraseKind) (hcode : command.instruction = kind.opcode)
      (hunit : Memory.UnitErased (kind.reach before) command.location.toNat before after) :
      Alters command before after
        (.erase (before.index command.location.toNat / kind.reach before * kind.reach before)
          (kind.reach before))

/-- A command took effect on the memory: it used up the write enable, and it was logged. -/
structure Writes (command : Command) (event : MemoryEvent) (before after : Chip) : Prop where
  enabled : before.latches.writeEnable = true
  used : after.latches.writeEnable = false
  events : after.events = before.events.push event
  alters : Alters command before.memory after.memory event

/-- The memory and its log are as before. -/
def Untouched (before after : Chip) : Prop :=
  after.memory = before.memory ∧ after.events = before.events

variable {chip : Chip} {command : Command} {instruction : Instruction}

/-- An instruction that is not listed as changing the memory logs no change. -/
theorem events_obey (h : instruction.changesMemory = false) (resetEnabled : Bool) :
    (chip.obey instruction resetEnabled command).2.events = chip.events := by
  cases instruction with
  | program | erase | eraseChip => simp [Instruction.changesMemory] at h
  | reset | enterQuadProtocol =>
      simp only [obey]
      split <;> rfl
  | setReadParameters | writeVolatileConfig | writeEnhancedConfig =>
      simp only [obey, writeVolatileConfig, writeEnhancedConfig]
      split
      · split <;> rfl
      · rfl
  | _ => rfl

/-- A call leaves memory and log alone, or it is for a command to write that the chip hears. -/
theorem answer_cases (chip : Chip) (request : BusCall) :
    Untouched chip (chip.answer request).2 ∨
      ∃ command instruction, request.command? = some command ∧ chip.Hears command.width ∧
        Instruction.decode? chip.vendor command.instruction = some instruction ∧
        instruction.changesMemory = true ∧
        (chip.answer request).1.reply = (chip.heed instruction command).1 ∧
        (chip.answer request).2 = (chip.heed instruction command).2 := by
  cases hobeyed : chip.obeyed? request with
  | none =>
      have hunmoved := answer_not_obeyed hobeyed
      exact .inl ⟨hunmoved.memory, hunmoved.events⟩
  | some command =>
      obtain ⟨-, hsent, hhears⟩ := obeyed?_eq_some.mp hobeyed
      cases hdecode : Instruction.decode? chip.vendor command.instruction with
      | none =>
          have hnone : Instruction.decode? (chip.drawn.log command.instruction).vendor
              command.instruction = none := hdecode
          rw [(answer_obeyed hobeyed).2, hear, hnone]
          exact .inl ⟨rfl, rfl⟩
      | some instruction =>
          have hheed := answer_heeded hobeyed hdecode
          cases hchanges : instruction.changesMemory with
          | false =>
              rw [hheed.2]
              exact .inl ⟨memory_obey hchanges _, events_obey hchanges _⟩
          | true => exact .inr ⟨command, instruction, hsent, hhears, hdecode, hchanges, hheed⟩

/-- Memory and log are left alone by a call that stands for no instruction to change them. -/
theorem untouched_answer {request : BusCall}
    (h : ∀ code ∈ request.code?, Instruction.hasOnSome Instruction.changesMemory code = false) :
    Untouched chip (chip.answer request).2 := by
  rcases answer_cases chip request with
    hkept | ⟨command, instruction, hsent, -, hdecode, hchanges, -⟩
  · exact hkept
  · have hnever := Instruction.of_decode? (h _ (BusCall.code?_of_command? hsent)) hdecode
    exact absurd hchanges (by simp [hnever])

/-- What changes memory answers with nothing. -/
theorem reply_heed (h : instruction.changesMemory = true) :
    (chip.heed instruction command).1 = silent := by
  cases instruction with
  | program =>
      simp only [heed, obey]
      split <;> rfl
  | erase | eraseChip => rfl
  | _ => simp [Instruction.changesMemory] at h

/-! ## What a write does -/

/-- A page program is ignored, or it is a write. -/
theorem untouched_or_writes_program (hcode : command.instruction = Opcode.pageProgram.code)
    (bytes : Bytes) :
    Untouched chip (chip.program command.location bytes) ∨
      ∃ event, Writes command event chip (chip.program command.location bytes) := by
  unfold program
  split
  · rename_i hlatch
    exact .inr ⟨_, hlatch, rfl, rfl, .programmed _ _ _ hcode (Memory.pageCleared_program ..)⟩
  · exact .inl ⟨rfl, rfl⟩

/-- An erase of a unit is ignored, or it is a write. -/
theorem untouched_or_writes_erase {unit : EraseUnit}
    (hcode : command.instruction = (EraseKind.unit unit).opcode) :
    Untouched chip (chip.erase unit.bits command.location) ∨
      ∃ event, Writes command event chip (chip.erase unit.bits command.location) := by
  unfold erase
  split
  · rename_i hlatch
    exact .inr ⟨_, hlatch, rfl, rfl, .erased (.unit unit) hcode (Memory.unitErased_eraseUnit ..)⟩
  · exact .inl ⟨rfl, rfl⟩

/-- A chip erase is ignored, or it is a write. -/
theorem untouched_or_writes_eraseChip (hcode : command.instruction = EraseKind.chip.opcode) :
    Untouched chip (chip.erase chip.memory.bits 0) ∨
      ∃ event, Writes command event chip (chip.erase chip.memory.bits 0) := by
  have hsize : min (addressable chip.memory.bits) chip.memory.size = chip.memory.size :=
    Nat.min_self _
  have hbase : ∀ address, chip.memory.index address / chip.memory.size * chip.memory.size = 0 := by
    intro address
    rw [Nat.div_eq_of_lt (chip.memory.index_lt address), Nat.zero_mul]
  have hunit := Memory.unitErased_eraseUnit chip.memory chip.memory.bits 0
  rw [hsize] at hunit
  unfold erase
  split
  · rename_i hlatch
    have halters : Alters command chip.memory (chip.memory.eraseUnit chip.memory.bits 0) _ :=
      .erased .chip hcode hunit.of_whole
    refine .inr ⟨_, hlatch, rfl, ?_, halters⟩
    simp only [EraseKind.reach, hsize, hbase]
  · exact .inl ⟨rfl, rfl⟩

/-- An instruction to write does so if write enable is set and it comes with what it needs. -/
theorem untouched_or_writes_obey
    (hdecode : Instruction.decode? chip.vendor command.instruction = some instruction)
    (h : instruction.changesMemory = true) (resetEnabled : Bool) :
    Untouched chip (chip.obey instruction resetEnabled command).2 ∨
      ∃ event, Writes command event chip (chip.obey instruction resetEnabled command).2 := by
  cases instruction with
  | program =>
      simp only [obey]
      split
      · exact untouched_or_writes_program (Instruction.code_of_program hdecode) _
      · exact .inl ⟨rfl, rfl⟩
  | erase unit => exact untouched_or_writes_erase (Instruction.code_of_erase hdecode)
  | eraseChip => exact untouched_or_writes_eraseChip (Instruction.code_of_eraseChip hdecode)
  | _ => simp [Instruction.changesMemory] at h

/-- A call leaves memory and log alone, or it is for a command that writes. -/
theorem untouched_or_writes_answer (chip : Chip) (request : BusCall) :
    Untouched chip (chip.answer request).2 ∨
      ∃ command event, request.command? = some command ∧ chip.Hears command.width ∧
        (chip.answer request).1.reply.isOk = true ∧
        Writes command event chip (chip.answer request).2 := by
  rcases answer_cases chip request with
    hkept | ⟨command, instruction, hsent, hhears, hdecode, hchanges, hreply, hafter⟩
  · exact .inl hkept
  · rw [hafter, hreply, reply_heed hchanges]
    -- What the chip notes down before it obeys concerns neither memory nor log nor write enable.
    let base := { chip.drawn.log command.instruction with
      latches := { chip.latches with resetEnable := false } }
    have hbase : Instruction.decode? base.vendor command.instruction = some instruction := hdecode
    rcases untouched_or_writes_obey hbase hchanges chip.latches.resetEnable with
      hkept | ⟨event, hwrites⟩
    · exact .inl hkept
    · exact .inr ⟨command, event, hsent, hhears, rfl,
        ⟨hwrites.enabled, hwrites.used, hwrites.events, hwrites.alters⟩⟩

/-! ## Runs of calls -/

/-- The chip after it has answered the calls. -/
def answerAll (chip : Chip) (requests : List BusCall) : Chip :=
  requests.foldl (fun chip request => (chip.answer request).2) chip

/-- What a write logs tells whether it may have set bits. -/
theorem Alters.onlyCleared {event : MemoryEvent} {before after : Memory}
    (h : Alters command before after event) (hevent : event.isErase = false) :
    Memory.OnlyCleared before after := by
  cases h with
  | programmed _ _ _ _ hpage => exact hpage.toOnlyCleared
  | erased => simp [MemoryEvent.isErase] at hevent

/-- The chip's log was continued, and bits were set only if an erase was logged. -/
def Continues (before after : Chip) (logged : List MemoryEvent) : Prop :=
  after.events.toList = before.events.toList ++ logged ∧
    ((∀ event ∈ logged, event.isErase = false) → Memory.OnlyCleared before.memory after.memory)

/-- Whatever is asked of a chip, its log goes on from where it was. -/
theorem continues_answer (chip : Chip) (request : BusCall) :
    ∃ logged, Continues chip (chip.answer request).2 logged := by
  rcases untouched_or_writes_answer chip request with
    ⟨hmemory, hevents⟩ | ⟨command, event, -, -, -, hwrites⟩
  · exact ⟨[], by simp [hevents], fun _ => hmemory ▸ .refl chip.memory⟩
  · exact ⟨[event], by simp [hwrites.events],
      fun hlogged => hwrites.alters.onlyCleared (hlogged event (List.mem_singleton_self event))⟩

/-- However much is asked of a chip, its log goes on from where it was. -/
theorem continues_answerAll (chip : Chip) (requests : List BusCall) :
    ∃ logged, Continues chip (chip.answerAll requests) logged := by
  induction requests generalizing chip with
  | nil => exact ⟨[], (List.append_nil _).symm, fun _ => .refl chip.memory⟩
  | cons request rest ih =>
      obtain ⟨first, hfirst, hcleared⟩ := continues_answer chip request
      obtain ⟨later, hlater, hrest⟩ := ih (chip.answer request).2
      refine ⟨first ++ later, ?_, fun hlogged => ?_⟩
      · rw [← List.append_assoc, ← hfirst]
        exact hlater
      · exact (hcleared fun event hevent => hlogged event (List.mem_append_left _ hevent)).trans
          (hrest fun event hevent => hlogged event (List.mem_append_right _ hevent))

/-- A call that changes the memory of a chip, in whatever state the chip is, does not fail, finds
the chip awake and listening on the command's width, uses up a write enable that was set, and logs
one change: either it is a page program, which only clears bits of the page around the address sent,
or an erase, after which the unit around the address is erased and all else is as before. So as long
as no erase is logged, no bit of the memory goes from 0 to 1. -/
theorem memory_changes_by_writes (chip : Chip) :
    (∀ request, (chip.answer request).2.memory ≠ chip.memory →
      ∃ command event, request.command? = some command ∧ chip.Hears command.width ∧
        (chip.answer request).1.reply.isOk = true ∧
        Writes command event chip (chip.answer request).2) ∧
    ∀ requests, ∃ logged,
      (chip.answerAll requests).events.toList = chip.events.toList ++ logged ∧
      ((∀ event ∈ logged, event.isErase = false) →
        Memory.OnlyCleared chip.memory (chip.answerAll requests).memory) := by
  refine ⟨fun request hchanged => ?_, continues_answerAll chip⟩
  exact (untouched_or_writes_answer chip request).resolve_left fun hkept => hchanged hkept.1

/-- Two bytes sent to the last place of a page: the second one goes to its first place. -/
theorem memory_changes_by_writes_of_wrapping_program :
    let chip := ((fresh ⟨0xEF, 0x4015⟩).answer
      (.command (.instruct Opcode.writeEnable.code .single))).2
    let command := ((Command.instruct Opcode.pageProgram.code .single).atAddress 0x1FF .single
      ).writing [0x0F, 0xF0] .single
    let after := (chip.answer (.start command)).2
    after.memory.byteAt 0x100 = 0xF0 ∧ after.memory.byteAt 0x1FF = 0x0F ∧
      (∃ event, Writes command event chip after) ∧
      Memory.OnlyCleared chip.memory (chip.answerAll [.start command]).memory := by
  intro chip command after
  have hfirst : after.memory.byteAt 0x100 = 0xF0 := by decide +kernel
  have hbefore : chip.memory.byteAt 0x100 = 0xFF := by decide +kernel
  obtain ⟨hcall, hrun⟩ := memory_changes_by_writes chip
  refine ⟨hfirst, by decide +kernel, ?_, ?_⟩
  · obtain ⟨sent, event, hsent, -, -, hwrites⟩ := hcall (.start command) fun hsame => by
      have hbyte := congrArg (·.byteAt 0x100) hsame
      exact absurd (hfirst.symm.trans (hbyte.trans hbefore)) (by decide)
    obtain rfl : command = sent := Option.some.inj hsent
    exact ⟨event, hwrites⟩
  · obtain ⟨logged, hlogged, hcleared⟩ := hrun [.start command]
    have hevents : (chip.answerAll [.start command]).events.toList =
        [.program 0x1FF 2 true false] := by decide +kernel
    have hnone : chip.events.toList = [] := by decide +kernel
    rw [hevents, hnone, List.nil_append] at hlogged
    exact hcleared (by rw [← hlogged]; decide)

end Chip

end NorFlash
