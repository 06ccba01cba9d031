import NorFlash.Proofs.Chip.Heard

/-!
# The stored status register

Status register 2 has a non-volatile copy, which a reset restores. `Mirrors` says what the copy
holds and that quad enable is set in the register if it is in the copy. Only the instruction that
writes the register can break that: `Mirrors.answer`. Whether that instruction reaches the copy is
up to the write enable latch. `writeEnable_answer` says which calls leave the latch clear,
`writeStatus2_stores` and `writeStatus2_mirrors` what a write does with it set and clear.
-/

namespace NorFlash

namespace Chip

/-- The stored status register 2 holds the value, and a quad enable bit that is stored is also
set. -/
structure Mirrors (stored : Status2) (chip : Chip) : Prop where
  stored_eq : chip.registers.storedStatus2 = stored
  enabled : stored.quadEnabled = true → chip.registers.status2.quadEnabled = true

variable {chip other : Chip} {command : Command} {stored : Status2} {instruction : Instruction}

/-- Whether the stored copy is mirrored depends on the registers only. -/
theorem Mirrors.of_registers (h : chip.Mirrors stored)
    (hregisters : other.registers = chip.registers) : other.Mirrors stored :=
  ⟨hregisters ▸ h.stored_eq, hregisters ▸ h.enabled⟩

/-- Whether the stored copy is mirrored depends on the mode only. -/
theorem Mirrors.of_mode (h : chip.Mirrors stored) (hmode : other.mode = chip.mode) :
    other.Mirrors stored :=
  h.of_registers (congrArg Mode.registers hmode)

/-- No instruction but a write of the status register changes what is stored. -/
theorem Mirrors.obey (h : chip.Mirrors stored) (hinstruction : instruction ≠ .writeStatus2)
    (resetEnabled : Bool) : (chip.obey instruction resetEnabled command).2.Mirrors stored := by
  cases instruction with
  | writeStatus2 => exact absurd rfl hinstruction
  | sleep => exact ⟨h.stored_eq, h.enabled⟩
  | reset =>
      simp only [Chip.obey]
      split
      · exact ⟨h.stored_eq, fun hstored => (congrArg Status2.quadEnabled h.stored_eq).trans hstored⟩
      · exact h
  | enterQuadProtocol =>
      simp only [Chip.obey]
      split
      · exact ⟨h.stored_eq, h.enabled⟩
      · exact h
  | setReadParameters | writeVolatileConfig | writeEnhancedConfig =>
      simp only [Chip.obey, writeVolatileConfig, writeEnhancedConfig]
      split
      · split <;> exact ⟨h.stored_eq, h.enabled⟩
      · exact ⟨h.stored_eq, h.enabled⟩
  | _ => exact h.of_mode (mode_obey rfl resetEnabled)

/-- A call that stands for no write of the status register leaves alone what is stored. -/
theorem Mirrors.answer (h : chip.Mirrors stored) {request : BusCall}
    (hrequest : ∀ code ∈ request.code?,
      Instruction.hasOnSome (· == .writeStatus2) code = false) :
    (chip.answer request).2.Mirrors stored := by
  cases effect_answer chip request with
  | idle hidle => exact h.of_mode hidle.mode
  | woken _ _ hidle =>
      have hwoken : Mirrors stored { chip with asleep := false } := ⟨h.stored_eq, h.enabled⟩
      exact hwoken.of_mode hidle.mode
  | obeyed command instruction resetEnabled base hsent _ hdecode hbase hafter =>
      have hother : instruction ≠ .writeStatus2 := by
        simpa using Instruction.of_decode? (hrequest _ (BusCall.code?_of_command? hsent)) hdecode
      rw [hafter]
      exact (h.of_mode hbase.mode).obey hother resetEnabled

/-! ## Writing the register -/

/-- With write enable set, what is written is stored. -/
theorem writeStatus2_stores {value : UInt8} (h : chip.latches.writeEnable = true) :
    (chip.writeStatus2 (some value)).Mirrors ⟨value⟩ := by
  have hwritten : (chip.writeStatus2 (some value)).registers =
      { chip.registers with status2 := ⟨value⟩, storedStatus2 := ⟨value⟩ } := by
    simp [writeStatus2, h]
  exact ⟨congrArg Registers.storedStatus2 hwritten, fun henabled =>
    (congrArg (·.status2.quadEnabled) hwritten).trans henabled⟩

/-- With write enable clear, writing a value with quad enable set does not reach what is stored. -/
theorem writeStatus2_mirrors {value : UInt8} (h : chip.Mirrors stored)
    (hlatch : chip.latches.writeEnable = false)
    (hvalue : Status2.quadEnabled ⟨value⟩ = true) :
    (chip.writeStatus2 (some value)).Mirrors stored := by
  cases hvolatile : chip.latches.volatileWriteEnable with
  | false =>
      have hkept : (chip.writeStatus2 (some value)).registers = chip.registers := by
        simp [writeStatus2, hlatch, hvolatile]
      exact h.of_registers hkept
  | true =>
      have hwritten : (chip.writeStatus2 (some value)).registers =
          { chip.registers with status2 := ⟨value⟩ } := by
        simp [writeStatus2, hlatch, hvolatile]
      exact ⟨(congrArg Registers.storedStatus2 hwritten).trans h.stored_eq, fun _ =>
        (congrArg (·.status2.quadEnabled) hwritten).trans hvalue⟩

/-! ## The write enable latch -/

/-- Only the instruction for it sets write enable. -/
theorem writeEnable_obey (h : chip.latches.writeEnable = false)
    (hinstruction : instruction ≠ .enableWrite) (resetEnabled : Bool) :
    (chip.obey instruction resetEnabled command).2.latches.writeEnable = false := by
  cases instruction with
  | enableWrite => exact absurd rfl hinstruction
  | program =>
      simp only [Chip.obey, program, h]
      split <;> exact h
  | erase unit => simp [Chip.obey, erase, h]
  | eraseChip => simp [Chip.obey, erase, h]
  | reset =>
      simp only [Chip.obey]
      split
      · rfl
      · exact h
  | enterQuadProtocol =>
      simp only [Chip.obey]
      split <;> exact h
  | setReadParameters =>
      simp only [Chip.obey]
      split
      · split <;> exact h
      · exact h
  | writeVolatileConfig | writeEnhancedConfig =>
      simp only [Chip.obey, writeVolatileConfig, writeEnhancedConfig, h]
      split <;> rfl
  | writeStatus2 | disableWrite => rfl
  | _ => exact h

/-- A call that is not for write enable leaves it clear. -/
theorem writeEnable_answer {request : BusCall} (h : chip.latches.writeEnable = false)
    (hrequest : ∀ code ∈ request.code?,
      Instruction.hasOnSome (· == .enableWrite) code = false) :
    (chip.answer request).2.latches.writeEnable = false := by
  cases effect_answer chip request with
  | idle hidle => exact hidle.writeEnable.trans h
  | woken _ _ hidle => exact hidle.writeEnable.trans h
  | obeyed command instruction resetEnabled base hsent _ hdecode hbase hafter =>
      have hother : instruction ≠ .enableWrite := by
        simpa using Instruction.of_decode? (hrequest _ (BusCall.code?_of_command? hsent)) hdecode
      rw [hafter]
      exact writeEnable_obey (hbase.writeEnable.trans h) hother resetEnabled

end Chip

end NorFlash
