import NorFlash.Proofs.Chip.Mode

/-!
# What no call can change in a chip

However a chip is used, it stays the chip it was built as, and it stays consistent: the protocol of
a Micron chip is the one its enhanced configuration selects, and a chip without vendor registers
never leaves single-line protocol. `Sound` is that invariant and `Sound.answer` its step. The
statements at the end say which calls keep a chip awake, its mode and its memory.
-/

namespace NorFlash

/-- Programming does not resize a memory. -/
theorem Memory.bits_program (memory : Memory) (address : Nat) (bytes : Bytes) :
    (memory.program address bytes).memory.bits = memory.bits := by
  unfold program
  suffices h : ∀ (placed : List (UInt8 × Nat)) (course : Programming),
      (placed.foldl (programByte address) course).memory.bits = course.memory.bits from h _ _
  intro placed
  induction placed with
  | nil => exact fun _ => rfl
  | cons first rest ih => exact fun course => ih (programByte address course first)

/-- Overwriting does not resize a memory. -/
theorem Memory.bits_overwrite (memory : Memory) (address : Nat) (bytes : Bytes) :
    (memory.overwrite address bytes).bits = memory.bits := by
  unfold overwrite
  exact List.foldlRecOn (motive := fun changed : Memory => changed.bits = memory.bits) _ _
    rfl fun _ hchanged _ _ => hchanged

namespace Chip

/-- Both are the same piece of hardware on the same controller, with no new failures in store. -/
structure SameBuild (before after : Chip) : Prop where
  vendor : after.vendor = before.vendor
  id : after.id = before.id
  strict : after.strict = before.strict
  completion : after.completion = before.completion
  failures : before.plan.failures = 0 → after.plan.failures = 0
  bits : after.memory.bits = before.memory.bits

namespace SameBuild

/-- A chip is of its own make. -/
theorem refl (chip : Chip) : SameBuild chip chip :=
  ⟨rfl, rfl, rfl, rfl, fun h => h, rfl⟩

/-- Being of the same make carries over. -/
theorem trans {first second third : Chip} (h : SameBuild first second)
    (hnext : SameBuild second third) : SameBuild first third :=
  ⟨hnext.vendor.trans h.vendor, hnext.id.trans h.id, hnext.strict.trans h.strict,
    hnext.completion.trans h.completion, hnext.failures ∘ h.failures, hnext.bits.trans h.bits⟩

/-- A chip of the make of a responsive one is responsive. -/
theorem responsive {before after : Chip} (h : SameBuild before after)
    (hresponsive : before.Responsive) : after.Responsive :=
  ⟨h.failures hresponsive.1, h.completion.trans hresponsive.2⟩

end SameBuild

variable (chip : Chip) (command : Command)

/-- Erasing leaves a chip the same make. -/
theorem sameBuild_erase (unitBits : Nat) (address : UInt32) :
    SameBuild chip (chip.erase unitBits address) := by
  unfold erase
  split <;> exact ⟨rfl, rfl, rfl, rfl, fun h => h, rfl⟩

/-- Programming leaves a chip the same make. -/
theorem sameBuild_program (address : UInt32) (bytes : Bytes) :
    SameBuild chip (chip.program address bytes) := by
  unfold program
  split
  · exact ⟨rfl, rfl, rfl, rfl, fun h => h, Memory.bits_program ..⟩
  · exact .refl chip

/-- Writing the volatile configuration leaves a chip the same make. -/
theorem sameBuild_writeVolatileConfig (value : Option UInt8) :
    SameBuild chip (chip.writeVolatileConfig value) := by
  unfold writeVolatileConfig
  split
  · split <;> exact ⟨rfl, rfl, rfl, rfl, fun h => h, rfl⟩
  · exact ⟨rfl, rfl, rfl, rfl, fun h => h, rfl⟩

/-- Writing the enhanced configuration leaves a chip the same make. -/
theorem sameBuild_writeEnhancedConfig (value : Option UInt8) :
    SameBuild chip (chip.writeEnhancedConfig value) := by
  unfold writeEnhancedConfig
  split
  · split <;> exact ⟨rfl, rfl, rfl, rfl, fun h => h, rfl⟩
  · exact ⟨rfl, rfl, rfl, rfl, fun h => h, rfl⟩

/-- No instruction makes another chip of one. -/
theorem sameBuild_obey (instruction : Instruction) (resetEnabled : Bool) :
    SameBuild chip (chip.obey instruction resetEnabled command).2 := by
  cases instruction with
  | program =>
      simp only [obey]
      split
      · exact sameBuild_program ..
      · exact .refl chip
  | erase unit => exact sameBuild_erase ..
  | eraseChip => exact sameBuild_erase ..
  | writeVolatileConfig => exact sameBuild_writeVolatileConfig ..
  | writeEnhancedConfig => exact sameBuild_writeEnhancedConfig ..
  | reset | enterQuadProtocol =>
      simp only [obey]
      split <;> exact ⟨rfl, rfl, rfl, rfl, fun h => h, rfl⟩
  | setReadParameters =>
      simp only [obey]
      split
      · split <;> exact ⟨rfl, rfl, rfl, rfl, fun h => h, rfl⟩
      · exact .refl chip
  | _ => exact ⟨rfl, rfl, rfl, rfl, fun h => h, rfl⟩

/-- The chip's protocol is the one that its registers select. -/
def Agrees : Prop :=
  match chip.vendor with
  | .winbond => True
  | .micron => chip.quad = chip.registers.enhancedConfig.quadProtocol
  | .other => chip.quad = false

variable {chip command}

/-- Writing status register 2 leaves the enhanced configuration alone. -/
theorem enhancedConfig_writeStatus2 (value : Option UInt8) :
    (chip.writeStatus2 value).registers.enhancedConfig = chip.registers.enhancedConfig := by
  unfold writeStatus2
  cases value with
  | none => rfl
  | some value => cases chip.latches.writeEnable <;> cases chip.latches.volatileWriteEnable <;> rfl

/-- Whether protocol and configuration agree depends on nothing else. -/
theorem Agrees.congr {other : Chip} (h : chip.Agrees) (hvendor : other.vendor = chip.vendor)
    (hquad : other.quad = chip.quad)
    (henhanced : other.registers.enhancedConfig = chip.registers.enhancedConfig) :
    other.Agrees := by
  rw [Agrees, hvendor, hquad, henhanced]
  exact h

/-- Whether protocol and configuration agree depends on the mode only. -/
theorem Agrees.of_mode {other : Chip} (h : chip.Agrees) (hmode : other.mode = chip.mode) :
    other.Agrees :=
  h.congr (congrArg Mode.vendor hmode) (congrArg Mode.quad hmode)
    (congrArg (fun mode => mode.registers.enhancedConfig) hmode)

/-- On a Winbond chip no configuration speaks of the protocol. -/
theorem agrees_of_winbond (h : chip.vendor = .winbond) : chip.Agrees := by
  rw [Agrees, h]
  trivial

/-- Protocol and configuration agree after a reset. -/
theorem agrees_reset : chip.reset.Agrees := by
  have hvendor : chip.reset.vendor = chip.vendor := rfl
  cases h : chip.vendor with
  | winbond => exact agrees_of_winbond h
  | micron =>
      rw [Agrees, hvendor, h]
      exact (by decide : false = EnhancedConfig.quadProtocol ⟨0xFF⟩)
  | other =>
      rw [Agrees, hvendor, h]
      rfl

/-- Protocol and configuration go on agreeing in every instruction. -/
theorem Agrees.obey {code : UInt8} {instruction : Instruction} (h : chip.Agrees)
    (hdecode : Instruction.decode? chip.vendor code = some instruction) (resetEnabled : Bool) :
    (chip.obey instruction resetEnabled command).2.Agrees := by
  have hbuild := sameBuild_obey chip command instruction resetEnabled
  cases instruction with
  | sleep => exact h
  | reset =>
      simp only [Chip.obey]
      split
      · exact agrees_reset
      · exact h
  | enterQuadProtocol =>
      -- Only a Winbond chip decodes this, and on those there is nothing to agree with.
      exact agrees_of_winbond
        (hbuild.vendor.trans (Instruction.vendor_of_enterQuadProtocol hdecode))
  | writeEnhancedConfig =>
      have hmicron := Instruction.vendor_of_writeEnhancedConfig hdecode
      simp only [Chip.obey, writeEnhancedConfig]
      split
      · split
        · simp [Agrees, consumeWriteEnable, hmicron]
        · exact h
      · exact h
  | setReadParameters =>
      simp only [Chip.obey]
      split
      · split <;> exact h
      · exact h
  | writeVolatileConfig =>
      simp only [Chip.obey, writeVolatileConfig]
      split
      · split <;> exact h
      · exact h
  | writeStatus2 => exact h.congr rfl rfl (enhancedConfig_writeStatus2 _)
  | _ => exact h.of_mode (mode_obey rfl resetEnabled)

/-! ## The effect of a call -/

/-- The two differ in nothing but the log, the mapping, the failures left and the reset latch. -/
structure Idle (before after : Chip) : Prop extends SameBuild before after where
  mode : after.mode = before.mode
  memory : after.memory = before.memory
  writeEnable : after.latches.writeEnable = before.latches.writeEnable
  volatileWriteEnable : after.latches.volatileWriteEnable = before.latches.volatileWriteEnable

/-- What a call can do to a chip. -/
inductive Effect (chip : Chip) (request : BusCall) (after : Chip) : Prop where
  | idle (h : Idle chip after)
  | woken (hasleep : chip.asleep = true)
      (hcode : request.code? = some Opcode.releasePowerDown.code)
      (h : Idle { chip with asleep := false } after)
  | obeyed (command : Command) (instruction : Instruction) (resetEnabled : Bool) (base : Chip)
      (hsent : request.command? = some command) (hheard : chip.Hears command.width)
      (hdecode : Instruction.decode? chip.vendor command.instruction = some instruction)
      (hbase : Idle chip base) (hafter : after = (base.obey instruction resetEnabled command).2)

/-- A chip that is left alone is idle. -/
theorem idle_refl (chip : Chip) : Idle chip chip :=
  ⟨.refl chip, rfl, rfl, rfl, rfl⟩

/-- A plan without failures comes to none. -/
theorem failures_next {plan : FailurePlan} (h : plan.failures = 0) :
    plan.next.2.failures = 0 := by
  simp [FailurePlan.next, h]

/-- Drawing on the plan of failures leaves a chip idle. -/
theorem idle_drawn (chip : Chip) : Idle chip chip.drawn :=
  ⟨⟨rfl, rfl, rfl, rfl, failures_next, rfl⟩, rfl, rfl, rfl, rfl⟩

/-- To carry out a command has one of the effects a call can have. -/
theorem effect_execute {request : BusCall} (hsent : request.command? = some command) :
    Effect chip request (chip.execute command).2 := by
  rw [execute_eq]
  cases chip.refuses with
  | true => exact .idle (idle_drawn chip)
  | false =>
      have hlog : Idle chip (chip.drawn.log command.instruction) :=
        ⟨⟨rfl, rfl, rfl, rfl, failures_next, rfl⟩, rfl, rfl, rfl, rfl⟩
      simp only [Bool.false_eq_true, if_false]
      -- What is not refused is lost on the chip, wakes it, or is heard.
      cases hlisten : chip.listens command.width with
      | false =>
          rw [accept_of_not_listens hlisten]
          exact .idle hlog
      | true =>
          cases hasleep : chip.asleep with
          | false =>
              rw [accept_of_hears ⟨hasleep, hlisten⟩, hear]
              have hbase : Idle chip { chip.drawn.log command.instruction with
                  latches := { chip.latches with resetEnable := false } } :=
                ⟨⟨rfl, rfl, rfl, rfl, failures_next, rfl⟩, rfl, rfl, rfl, rfl⟩
              split
              · rename_i instruction hdecode
                exact .obeyed command instruction _ _ hsent ⟨hasleep, hlisten⟩ hdecode hbase rfl
              · exact .idle hbase
          | true =>
              by_cases hwake : command.instruction = Opcode.releasePowerDown.code
              · refine .woken hasleep (hwake ▸ BusCall.code?_of_command? hsent) ?_
                rw [accept_of_wake hasleep hlisten hwake]
                exact ⟨⟨rfl, rfl, rfl, rfl, failures_next, rfl⟩, rfl, rfl, rfl, rfl⟩
              · rw [accept_of_asleep hasleep hwake]
                exact .idle hlog

/-- Every call has one of the three effects. -/
theorem effect_answer (chip : Chip) (request : BusCall) :
    Effect chip request (chip.answer request).2 := by
  cases request with
  | command command => exact effect_execute rfl
  | start command => exact effect_execute rfl
  | poll poll =>
      have hlog : Idle chip (chip.drawn.log poll.instruction) :=
        ⟨⟨rfl, rfl, rfl, rfl, failures_next, rfl⟩, rfl, rfl, rfl, rfl⟩
      simp only [answer, Chip.poll, drawFailure]
      cases chip.plan.next.1 with
      | true => exact .idle (idle_drawn chip)
      | false => exact .idle hlog
  | map command =>
      have hmapped : Idle chip { chip.drawn with mapped := true } :=
        ⟨⟨rfl, rfl, rfl, rfl, failures_next, rfl⟩, rfl, rfl, rfl, rfl⟩
      simp only [answer, map, drawFailure]
      cases chip.plan.next.1 with
      | true => exact .idle (idle_drawn chip)
      | false =>
          simp only
          split
          · exact .idle (idle_drawn chip)
          · split
            · exact .idle (idle_drawn chip)
            · exact .idle hmapped
  | abort => exact .idle ⟨⟨rfl, rfl, rfl, rfl, fun h => h, rfl⟩, rfl, rfl, rfl, rfl⟩

/-! ## Consequences for any call -/

/-- The invariant of a chip that answers with the given identification and acts only on
instructions sent on its own width. -/
structure Sound (id : JedecId) (chip : Chip) : Prop where
  strict : chip.strict = true
  id_eq : chip.id = id
  vendor_eq : chip.vendor = .ofManufacturer id.manufacturer
  bits_eq : chip.memory.bits = (Memory.blank id.capacityCode).bits
  agrees : chip.Agrees

namespace Idle

variable {before after : Chip}

/-- Idling on is idling. -/
theorem trans {last : Chip} (h : Idle before after) (hnext : Idle after last) :
    Idle before last :=
  ⟨h.toSameBuild.trans hnext.toSameBuild, hnext.mode.trans h.mode, hnext.memory.trans h.memory,
    hnext.writeEnable.trans h.writeEnable,
    hnext.volatileWriteEnable.trans h.volatileWriteEnable⟩

/-- An idle chip stays sound. -/
theorem sound {id : JedecId} (h : Idle before after) (hsound : Sound id before) :
    Sound id after :=
  ⟨h.strict.trans hsound.strict, h.id.trans hsound.id_eq, h.vendor.trans hsound.vendor_eq,
    h.bits.trans hsound.bits_eq, hsound.agrees.of_mode h.mode⟩

end Idle

/-- A fresh chip is sound. -/
theorem sound_fresh (id : JedecId) : Sound id (fresh id) := by
  refine ⟨rfl, rfl, rfl, rfl, ?_⟩
  unfold Agrees
  split
  · trivial
  · exact (by decide : false = EnhancedConfig.quadProtocol ⟨0xFF⟩)
  · rfl

/-- No call makes another chip of one. -/
theorem sameBuild_answer (chip : Chip) (request : BusCall) :
    SameBuild chip (chip.answer request).2 := by
  cases effect_answer chip request with
  | idle h => exact h.toSameBuild
  | woken _ _ h =>
      have hwoken : SameBuild chip { chip with asleep := false } :=
        ⟨rfl, rfl, rfl, rfl, fun h => h, rfl⟩
      exact hwoken.trans h.toSameBuild
  | obeyed command instruction resetEnabled base _ _ _ hbase hafter =>
      rw [hafter]
      exact hbase.toSameBuild.trans (sameBuild_obey ..)

/-- Protocol and configuration go on agreeing in every call. -/
theorem Agrees.answer (h : chip.Agrees) (request : BusCall) : (chip.answer request).2.Agrees := by
  cases effect_answer chip request with
  | idle hidle => exact h.of_mode hidle.mode
  | woken _ _ hidle =>
      have hwoken : Agrees { chip with asleep := false } := h
      exact hwoken.of_mode hidle.mode
  | obeyed command instruction resetEnabled base _ _ hdecode hbase hafter =>
      rw [hafter]
      exact (h.of_mode hbase.mode).obey (hbase.vendor ▸ hdecode) resetEnabled

/-- No call takes a chip out of the invariant. -/
theorem Sound.answer {id : JedecId} (h : Sound id chip) (request : BusCall) :
    Sound id (chip.answer request).2 := by
  have hbuild := sameBuild_answer chip request
  exact ⟨hbuild.strict.trans h.strict, hbuild.id.trans h.id_eq, hbuild.vendor.trans h.vendor_eq,
    hbuild.bits.trans h.bits_eq, h.agrees.answer request⟩

/-- A responsive chip goes on responding in every call. -/
theorem Responsive.answer (h : chip.Responsive) (request : BusCall) :
    (chip.answer request).2.Responsive :=
  (sameBuild_answer chip request).responsive h

/-- An awake chip keeps its mode in a call that stands for no instruction that changes modes. -/
theorem mode_answer {request : BusCall} (hawake : chip.asleep = false)
    (h : ∀ code ∈ request.code?, Instruction.hasOnSome Instruction.changesMode code = false) :
    (chip.answer request).2.mode = chip.mode := by
  cases effect_answer chip request with
  | idle hidle => exact hidle.mode
  | woken hasleep => simp [hawake] at hasleep
  | obeyed command instruction resetEnabled base hsent _ hdecode hbase hafter =>
      have hkeeps := Instruction.of_decode? (h _ (BusCall.code?_of_command? hsent)) hdecode
      rw [hafter, mode_obey hkeeps, hbase.mode]

/-- Any chip keeps its mode in a call that stands for no instruction that changes modes or that
wakes it. -/
theorem mode_answer_of_not_wake {request : BusCall}
    (h : ∀ code ∈ request.code?, Instruction.hasOnSome Instruction.changesMode code = false ∧
      code ≠ Opcode.releasePowerDown.code) : (chip.answer request).2.mode = chip.mode := by
  cases effect_answer chip request with
  | idle hidle => exact hidle.mode
  | woken _ hcode _ => exact absurd rfl (h _ hcode).2
  | obeyed command instruction resetEnabled base hsent _ hdecode hbase hafter =>
      have hkeeps := Instruction.of_decode? (h _ (BusCall.code?_of_command? hsent)).1 hdecode
      rw [hafter, mode_obey hkeeps, hbase.mode]

/-- The memory stays as it is in a call that stands for no instruction that changes memory. -/
theorem memory_answer {request : BusCall}
    (h : ∀ code ∈ request.code?, Instruction.hasOnSome Instruction.changesMemory code = false) :
    (chip.answer request).2.memory = chip.memory := by
  cases effect_answer chip request with
  | idle hidle => exact hidle.memory
  | woken _ _ hidle => exact hidle.memory
  | obeyed command instruction resetEnabled base hsent _ hdecode hbase hafter =>
      have hkeeps := Instruction.of_decode? (h _ (BusCall.code?_of_command? hsent)) hdecode
      rw [hafter, memory_obey hkeeps, hbase.memory]

/-- Only power-down puts a chip that hears to sleep. -/
theorem asleep_obey {instruction : Instruction} (h : instruction ≠ .sleep) (resetEnabled : Bool) :
    (chip.obey instruction resetEnabled command).2.asleep = chip.asleep := by
  cases instruction with
  | sleep => exact absurd rfl h
  | program =>
      simp only [obey]
      split
      · exact congrArg Mode.asleep (mode_program ..)
      · rfl
  | erase unit => exact congrArg Mode.asleep (mode_erase ..)
  | eraseChip => exact congrArg Mode.asleep (mode_erase ..)
  | reset | enterQuadProtocol =>
      simp only [obey]
      split <;> rfl
  | setReadParameters | writeVolatileConfig | writeEnhancedConfig =>
      simp only [obey, writeVolatileConfig, writeEnhancedConfig]
      split
      · split <;> rfl
      · rfl
  | _ => rfl

/-- An awake chip stays awake in a call that does not tell it to sleep. -/
theorem asleep_answer {request : BusCall} (hawake : chip.asleep = false)
    (h : ∀ code ∈ request.code?, Instruction.hasOnSome (· == .sleep) code = false) :
    (chip.answer request).2.asleep = false := by
  cases effect_answer chip request with
  | idle hidle => exact (congrArg Mode.asleep hidle.mode).trans hawake
  | woken hasleep => simp [hawake] at hasleep
  | obeyed command instruction resetEnabled base hsent _ hdecode hbase hafter =>
      have hne : instruction ≠ .sleep := by
        simpa using Instruction.of_decode? (h _ (BusCall.code?_of_command? hsent)) hdecode
      rw [hafter, asleep_obey hne]
      exact (congrArg Mode.asleep hbase.mode).trans hawake

end Chip

end NorFlash
