import NorFlash.Proofs.Chip.Sound

/-!
# Instructions a chip hears

`Chip.heed` is what a chip does on an instruction that it hears and knows. Passive instructions only
ask for something: `idle_answer` says that a call for one leaves mode, memory and write latches
alone, whoever hears it.
-/

namespace NorFlash

/-- The instruction asks for something and changes nothing. -/
def Instruction.isPassive : Instruction → Bool
  | readId | readStatus1 | wake | readQuad | readStatus2 | readVolatileConfig
  | readEnhancedConfig => true
  | _ => false

namespace Chip

variable {chip other : Chip} {command : Command} {instruction : Instruction}

/-! ## What the mode decides -/

/-- Whether a chip hears depends on its mode only. -/
theorem Hears.of_mode {width : BusWidth} (h : chip.Hears width) (hmode : other.mode = chip.mode) :
    other.Hears width := by
  have hasleep : other.asleep = chip.asleep := congrArg Mode.asleep hmode
  have hquad : other.quad = chip.quad := congrArg Mode.quad hmode
  have hstrict : other.strict = chip.strict := congrArg Mode.strict hmode
  have hlisten : other.listens width = chip.listens width := by
    simp only [listens, Chip.width, hquad, hstrict]
  exact ⟨hasleep.trans h.1, hlisten.trans h.2⟩

/-- Whether a chip accepts a read depends on its mode only. -/
theorem checkRead_of_mode (hmode : other.mode = chip.mode) (command : Command) :
    other.checkRead command = chip.checkRead command := by
  have hvendor : other.vendor = chip.vendor := congrArg Mode.vendor hmode
  have hquad : other.quad = chip.quad := congrArg Mode.quad hmode
  have hregisters : other.registers = chip.registers := congrArg Mode.registers hmode
  unfold checkRead readDummyCycles
  rw [hvendor, hquad, hregisters]

/-- A chip that checks widths hears, while awake, exactly the width it listens on. -/
theorem hears_iff (hstrict : chip.strict = true) (width : BusWidth) :
    chip.Hears width ↔ chip.asleep = false ∧ width = chip.width := by
  simp [Hears, listens, hstrict]

/-- A chip that checks widths hears one line while it is awake and in single-line protocol. -/
theorem hears_single (hstrict : chip.strict = true) :
    chip.Hears .single ↔ chip.asleep = false ∧ chip.quad = false := by
  rw [hears_iff hstrict]
  cases h : chip.quad <;> simp [Chip.width, h]

/-- A chip that checks widths hears four lines while it is awake and in quad protocol. -/
theorem hears_quad (hstrict : chip.strict = true) :
    chip.Hears .quad ↔ chip.asleep = false ∧ chip.quad = true := by
  rw [hears_iff hstrict]
  cases h : chip.quad <;> simp [Chip.width, h]

/-! ## Passive instructions -/

/-- Obeying a passive instruction changes nothing. -/
theorem obey_of_isPassive (h : instruction.isPassive = true) (resetEnabled : Bool) :
    (chip.obey instruction resetEnabled command).2 = chip := by
  cases instruction with
  | readId | readStatus1 | wake | readQuad | readStatus2 | readVolatileConfig
  | readEnhancedConfig => rfl
  | _ => simp [Instruction.isPassive] at h

/-- A call for a passive instruction changes nothing that matters, nor does one for none. A sleeping
chip would notice a call to wake, so that one is left out. -/
theorem idle_answer {request : BusCall}
    (h : ∀ code ∈ request.code?, Instruction.hasOnSome (!·.isPassive) code = false ∧
      code ≠ Opcode.releasePowerDown.code) : Idle chip (chip.answer request).2 := by
  cases effect_answer chip request with
  | idle hidle => exact hidle
  | woken _ hcode _ => exact absurd rfl (h _ hcode).2
  | obeyed command instruction resetEnabled base hsent _ hdecode hbase hafter =>
      have hpassive : instruction.isPassive = true := by
        simpa using Instruction.of_decode? (h _ (BusCall.code?_of_command? hsent)).1 hdecode
      rw [hafter, obey_of_isPassive hpassive]
      exact hbase

/-! ## Instructions that are heard -/

/-- What a chip does on an instruction that it hears and knows. -/
def heed (chip : Chip) (instruction : Instruction) (command : Command) : Reply × Chip :=
  let heard := { chip.drawn.log command.instruction with
    latches := { chip.latches with resetEnable := false } }
  heard.obey instruction chip.latches.resetEnable command

/-- A chip heeds an instruction that it hears and knows. -/
theorem accept_of_decode (hhears : chip.Hears command.width)
    (hdecode : Instruction.decode? chip.vendor command.instruction = some instruction) :
    chip.accept command = chip.heed instruction command := by
  have hvendor : Instruction.decode? (chip.drawn.log command.instruction).vendor
      command.instruction = some instruction := hdecode
  rw [accept_of_hears hhears, hear, hvendor]
  rfl

/-- An instruction that changes no mode leaves the mode alone. -/
theorem mode_heed (h : instruction.changesMode = false) :
    (chip.heed instruction command).2.mode = chip.mode :=
  mode_obey h _

/-- A command without data that is carried out is answered with nothing, unless it is a quad
read. -/
theorem reply_accept (hdata : command.data = .absent)
    (hcode : Instruction.hasOnSome (· == .readQuad) command.instruction = false) :
    (chip.accept command).1 = .ok none := by
  unfold accept receive
  split
  · simp [hdata, DataPhase.float]
  · split
    · simp [hdata, DataPhase.float]
    · unfold hear
      dsimp only
      split
      · rename_i instruction hdecode
        have hquad : instruction ≠ .readQuad := by
          simpa using Instruction.of_decode? hcode hdecode
        cases instruction with
        | readQuad => exact absurd rfl hquad
        | _ => simp [obey, hdata, DataPhase.receive, silent, firstWritten?]
      · rfl

/-- Any command that is carried out is answered, unless it is a quad read. -/
theorem exists_reply_accept
    (hcode : Instruction.hasOnSome (· == .readQuad) command.instruction = false) :
    ∃ received, (chip.accept command).1 = .ok received := by
  unfold accept receive
  split
  · exact ⟨_, rfl⟩
  · split
    · exact ⟨_, rfl⟩
    · unfold hear
      dsimp only
      split
      · rename_i instruction hdecode
        have hquad : instruction ≠ .readQuad := by
          simpa using Instruction.of_decode? hcode hdecode
        cases instruction with
        | readQuad => exact absurd rfl hquad
        | program | setReadParameters =>
            simp only [obey]
            split <;> exact ⟨_, rfl⟩
        | _ => exact ⟨_, rfl⟩
      · exact ⟨_, rfl⟩

end Chip

end NorFlash
