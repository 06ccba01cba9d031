import NorFlash.Chip.Execute

/-!
# What a call can change in a chip

Each instruction changes little of a chip. `Chip.mode` collects what decides how a chip answers
apart from its latches and its memory. `mode_obey` and `memory_obey` say which instructions leave
the mode and the memory alone; what a call can do follows from them.
-/

namespace NorFlash

namespace Instruction

/-- The instruction byte stands for an instruction with the property on some vendor's chips. -/
def hasOnSome (property : Instruction → Bool) (code : UInt8) : Bool :=
  [Vendor.winbond, .micron, .other].any fun vendor => (decode? vendor code).any property

/-- No instruction byte listed stands for an instruction with the property. -/
def NoneAmong (property : Instruction → Bool) (codes : List UInt8) : Prop :=
  ∀ code ∈ codes, hasOnSome property code = false

instance (property : Instruction → Bool) (codes : List UInt8) :
    Decidable (NoneAmong property codes) :=
  decidable_of_iff (codes.all fun code => !hasOnSome property code) (by simp [NoneAmong])

/-- What is looked up in a table is in it. -/
theorem mem_of_lookup {code : UInt8} {instruction : Instruction}
    {table : List (UInt8 × Instruction)} (h : table.lookup code = some instruction) :
    (code, instruction) ∈ table := by
  induction table with
  | nil => simp at h
  | cons entry rest ih =>
      obtain ⟨key, value⟩ := entry
      rw [List.lookup_cons] at h
      by_cases hkey : code = key
      · subst hkey
        simp only [beq_self_eq_true, Option.some.injEq] at h
        simp [h]
      · rw [beq_false_of_ne hkey] at h
        exact List.mem_cons_of_mem _ (ih h)

/-- A byte means on every chip what the shared table says. -/
theorem decode?_of_shared {code : UInt8} {instruction : Instruction}
    (h : shared.lookup code = some instruction) (vendor : Vendor) :
    decode? vendor code = some instruction := by
  unfold decode?
  rw [List.lookup_append, h]
  rfl

/-- A byte that has no such instruction on any chip does not stand for one. -/
theorem of_decode? {property : Instruction → Bool} {vendor : Vendor} {code : UInt8}
    {instruction : Instruction} (h : hasOnSome property code = false)
    (hdecode : decode? vendor code = some instruction) : property instruction = false := by
  have hall := List.any_eq_false.mp h vendor (by cases vendor <;> simp)
  simpa [hdecode] using hall

/-- Only Winbond chips can be told to enter quad protocol. -/
theorem vendor_of_enterQuadProtocol {vendor : Vendor} {code : UInt8}
    (h : decode? vendor code = some .enterQuadProtocol) : vendor = .winbond := by
  have hmem := mem_of_lookup h
  cases vendor <;> simp [shared, ofVendor] at hmem ⊢

/-- Only Micron chips have an enhanced configuration to write. -/
theorem vendor_of_writeEnhancedConfig {vendor : Vendor} {code : UInt8}
    (h : decode? vendor code = some .writeEnhancedConfig) : vendor = .micron := by
  have hmem := mem_of_lookup h
  cases vendor <;> simp [shared, ofVendor] at hmem ⊢

/-- The instruction can change the mode of an awake chip. -/
def changesMode : Instruction → Bool
  | sleep | reset | writeStatus2 | enterQuadProtocol | setReadParameters | writeVolatileConfig
  | writeEnhancedConfig => true
  | _ => false

/-- The instruction can change the memory. -/
def changesMemory : Instruction → Bool
  | program | erase _ | eraseChip => true
  | _ => false

end Instruction

namespace BusCall

/-- The command that a call has the chip carry out. -/
def command? : BusCall → Option Command
  | .command sent | .start sent => some sent
  | _ => none

/-- The instruction byte that a call has the chip carry out. -/
def code? (request : BusCall) : Option UInt8 :=
  request.command?.map Command.instruction

/-- A call that carries a command stands for its instruction byte. -/
theorem code?_of_command? {request : BusCall} {sent : Command} (h : request.command? = some sent) :
    request.code? = some sent.instruction :=
  congrArg (Option.map Command.instruction) h

end BusCall

namespace Chip

/-- What decides how a chip answers, apart from its latches and its memory. -/
structure Mode where
  vendor : Vendor
  id : JedecId
  asleep : Bool
  quad : Bool
  registers : Registers
  strict : Bool

/-- The chip's mode. -/
def mode (chip : Chip) : Mode :=
  ⟨chip.vendor, chip.id, chip.asleep, chip.quad, chip.registers, chip.strict⟩

/-- The chip is awake and acts on instructions of the given width. -/
def Hears (chip : Chip) (width : BusWidth) : Prop :=
  chip.asleep = false ∧ chip.listens width = true

/-- Nothing will be made to fail, and completions are reported at once. -/
def Responsive (chip : Chip) : Prop :=
  chip.plan.failures = 0 ∧ chip.completion = .immediate

/-- The next operation will be made to fail. -/
def refuses (chip : Chip) : Bool :=
  chip.plan.next.1

/-- The chip after it was decided whether the operation fails. -/
def drawn (chip : Chip) : Chip :=
  { chip with plan := chip.plan.next.2 }

/-- What a command does that is not made to fail. -/
def accept (chip : Chip) (command : Command) : Reply × Chip :=
  (chip.drawn.log command.instruction).receive command

/-- A command is refused if a failure is due, and accepted otherwise. -/
theorem execute_eq (chip : Chip) (command : Command) :
    chip.execute command =
      if chip.refuses then (.error .injected, chip.drawn) else chip.accept command := by
  unfold execute drawFailure refuses accept drawn
  cases chip.plan.next.1 <;> rfl

/-- A responsive chip refuses nothing. -/
theorem not_refuses_of_responsive {chip : Chip} (h : chip.Responsive) : chip.refuses = false := by
  simp [refuses, FailurePlan.next, h.1]

variable {chip : Chip} {command : Command}

/-- Hearing an instruction only clears the reset latch before the instruction takes effect. -/
theorem accept_of_hears (h : chip.Hears command.width) :
    chip.accept command = (chip.drawn.log command.instruction).hear command := by
  have hasleep : (chip.drawn.log command.instruction).asleep = false := h.1
  have hlisten : (chip.drawn.log command.instruction).listens command.width = true := h.2
  simp [accept, receive, hasleep, hlisten]

/-- A chip that listens on another width does not notice a command. -/
theorem accept_of_not_listens (h : chip.listens command.width = false) :
    chip.accept command = (.ok command.data.float, chip.drawn.log command.instruction) := by
  have hlisten : (chip.drawn.log command.instruction).listens command.width = false := h
  simp [accept, receive, hlisten]

/-- A sleeping chip notices nothing but the instruction that wakes it. -/
theorem accept_of_asleep (hasleep : chip.asleep = true)
    (hcode : command.instruction ≠ Opcode.releasePowerDown.code) :
    chip.accept command = (.ok command.data.float, chip.drawn.log command.instruction) := by
  have h : (chip.drawn.log command.instruction).asleep = true := hasleep
  cases hlisten : (chip.drawn.log command.instruction).listens command.width <;>
    simp [accept, receive, h, hlisten, hcode]

/-- A sleeping chip is woken by that instruction on its own width. -/
theorem accept_of_wake (hasleep : chip.asleep = true) (hlisten : chip.listens command.width = true)
    (hcode : command.instruction = Opcode.releasePowerDown.code) :
    chip.accept command =
      (.ok command.data.float,
        { chip.drawn.log command.instruction with asleep := false }) := by
  have h : (chip.drawn.log command.instruction).asleep = true := hasleep
  have hwidth : (chip.drawn.log command.instruction).listens command.width = true := hlisten
  rw [hcode] at h hwidth
  simp [accept, receive, h, hwidth, hcode]

/-! ## What single instructions leave alone -/

/-- Erasing leaves the mode alone. -/
theorem mode_erase (unitBits : Nat) (address : UInt32) :
    (chip.erase unitBits address).mode = chip.mode := by
  unfold erase
  split <;> rfl

/-- Programming leaves the mode alone. -/
theorem mode_program (address : UInt32) (bytes : Bytes) :
    (chip.program address bytes).mode = chip.mode := by
  unfold program
  split <;> rfl

/-- Writing the volatile configuration leaves memory alone. -/
theorem memory_writeVolatileConfig (value : Option UInt8) :
    (chip.writeVolatileConfig value).memory = chip.memory := by
  unfold writeVolatileConfig
  split
  · split <;> rfl
  · rfl

/-- Writing the enhanced configuration leaves memory alone. -/
theorem memory_writeEnhancedConfig (value : Option UInt8) :
    (chip.writeEnhancedConfig value).memory = chip.memory := by
  unfold writeEnhancedConfig
  split
  · split <;> rfl
  · rfl

/-- An instruction that is not listed as changing the mode leaves it alone. -/
theorem mode_obey {instruction : Instruction} (h : instruction.changesMode = false)
    (resetEnabled : Bool) : (chip.obey instruction resetEnabled command).2.mode = chip.mode := by
  cases instruction with
  | program =>
      simp only [obey]
      split
      · exact mode_program ..
      · rfl
  | erase unit => exact mode_erase ..
  | eraseChip => exact mode_erase ..
  | sleep | reset | writeStatus2 | enterQuadProtocol | setReadParameters | writeVolatileConfig
  | writeEnhancedConfig => simp [Instruction.changesMode] at h
  | _ => rfl

/-- An instruction that is not listed as changing the memory leaves it alone. -/
theorem memory_obey {instruction : Instruction} (h : instruction.changesMemory = false)
    (resetEnabled : Bool) :
    (chip.obey instruction resetEnabled command).2.memory = chip.memory := by
  cases instruction with
  | program | erase | eraseChip => simp [Instruction.changesMemory] at h
  | writeVolatileConfig => exact memory_writeVolatileConfig _
  | writeEnhancedConfig => exact memory_writeEnhancedConfig _
  | reset | enterQuadProtocol =>
      simp only [obey]
      split <;> rfl
  | setReadParameters =>
      simp only [obey]
      split
      · split <;> rfl
      · rfl
  | _ => rfl

end Chip

end NorFlash
