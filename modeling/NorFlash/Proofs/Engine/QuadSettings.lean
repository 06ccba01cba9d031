import NorFlash.Proofs.Engine.QuadEntry

/-!
# The settings that entering quad mode leaves

`QuadEntry.settings?` is what the entry sequence of a vendor makes of a chip's registers: nothing if
the vendor's registers cannot express the dummy cycles of the device. `QuadEntry.ends_enter` says of
any chip of the vendor that is awake in single-line protocol, whatever its registers hold, that the
sequence ends with these settings and in quad protocol, or with a fault and the chip as it was.
`Chip.Stands` is what is known of the chip from one command to the next.
-/

namespace NorFlash

/-! ## Register fields that are left alone -/

/-- Two register values agree in the bits that the mask does not have. -/
def AgreeOutside (mask first second : UInt8) : Prop :=
  first &&& ~~~mask = second &&& ~~~mask

instance (mask first second : UInt8) : Decidable (AgreeOutside mask first second) :=
  inferInstanceAs (Decidable (_ = _))

/-- Quad enable is one bit of the second status register. -/
theorem agreeOutside_withQuadEnable (register : Status2) (enabled : Bool) :
    AgreeOutside 0x02 (register.withQuadEnable enabled).value register.value := by
  have hall : ∀ value : UInt8, ∀ enabled : Bool,
      AgreeOutside 0x02 (Status2.withQuadEnable ⟨value⟩ enabled).value value :=
    forall_byte (by decide +kernel)
  exact hall register.value enabled

/-- The protocol is one bit of the enhanced configuration. -/
theorem agreeOutside_withQuadProtocol (register : EnhancedConfig) (quad : Bool) :
    AgreeOutside 0x80 (register.withQuadProtocol quad).value register.value := by
  have hall : ∀ value : UInt8, ∀ quad : Bool,
      AgreeOutside 0x80 (EnhancedConfig.withQuadProtocol ⟨value⟩ quad).value value :=
    forall_byte (by decide +kernel)
  exact hall register.value quad

/-- The dummy cycles are the high half of the volatile configuration. -/
theorem agreeOutside_withDummyCycles? {register changed : VolatileConfig} {cycles : UInt8}
    (h : register.withDummyCycles? cycles = some changed) :
    AgreeOutside 0xF0 changed.value register.value := by
  unfold VolatileConfig.withDummyCycles? at h
  split at h
  · obtain rfl := Option.some.inj h
    -- The field takes the four high bits, which the mask has, and the low ones are kept.
    have hfield : cycles <<< (4 : UInt8) &&& ~~~0xF0 = 0 :=
      forall_byte (p := fun cycles => cycles <<< (4 : UInt8) &&& ~~~0xF0 = 0) (by decide +kernel) _
    calc (register.value &&& 0x0F ||| cycles <<< (4 : UInt8)) &&& ~~~0xF0
        = register.value &&& 0x0F &&& ~~~0xF0 ||| cycles <<< (4 : UInt8) &&& ~~~0xF0 := by
          apply UInt8.toBitVec_inj.mp
          simp [BitVec.and_or_distrib_right]
      _ = register.value &&& ~~~0xF0 := by
          rw [hfield, UInt8.or_zero, UInt8.and_assoc]
          rfl
  · simp at h

/-- Quad enable that is set already need not be written. -/
theorem Status2.withQuadEnable_of_quadEnabled {register : Status2}
    (h : register.quadEnabled = true) : register.withQuadEnable true = register := by
  have hall : ∀ value : UInt8, Status2.quadEnabled ⟨value⟩ = true →
      Status2.withQuadEnable ⟨value⟩ true = ⟨value⟩ :=
    forall_byte (by decide +kernel)
  exact hall register.value h

/-- Read parameters for so many dummy cycles have so many. -/
theorem ReadParameters.dummyCycles_of_withDummyCycles? {changed : ReadParameters} {cycles : UInt8}
    (h : (ReadParameters.mk 0).withDummyCycles? cycles = some changed) :
    changed.dummyCycles = cycles := by
  unfold withDummyCycles? at h
  split at h
  · rename_i hcycles
    obtain rfl := Option.some.inj h
    rcases hcycles with rfl | rfl | rfl | rfl <;> decide
  · simp at h

namespace Chip

/-! ## Where a chip stands between two commands -/

/-- The chip's mode, its two write latches and its memory are as given, and nothing fails. -/
structure Stands (mode : Mode) (enabled enabledVolatile : Bool) (memory : Memory) (chip : Chip) :
    Prop where
  mode_eq : chip.mode = mode
  enabled_eq : chip.latches.writeEnable = enabled
  enabledVolatile_eq : chip.latches.volatileWriteEnable = enabledVolatile
  memory_eq : chip.memory = memory
  failures : chip.plan.failures = 0

namespace Stands

variable {chip : Chip} {mode : Mode} {enabled enabledVolatile : Bool} {memory : Memory}
  {instruction : Instruction} {command : Command} {value : UInt8}

/-- A chip that is awake hears the width of its protocol. -/
theorem hears (h : chip.Stands mode enabled enabledVolatile memory) {width : BusWidth}
    (hasleep : mode.asleep = false) (hwidth : width = if mode.quad then .quad else .single) :
    chip.Hears width := by
  obtain ⟨rfl, -, -, -, -⟩ := h
  refine ⟨hasleep, ?_⟩
  have hwidth : width = chip.width := hwidth
  simp [listens, hwidth]

/-- A register is read. -/
theorem ask (h : chip.Stands mode enabled enabledVolatile memory)
    (hpassive : instruction.isPassive = true) :
    (chip.heed instruction command).2.Stands mode enabled enabledVolatile memory := by
  rw [heed, obey_of_isPassive hpassive]
  exact ⟨h.mode_eq, h.enabled_eq, h.enabledVolatile_eq, h.memory_eq, failures_next h.failures⟩

/-- The write enable is latched, and nothing else changes. -/
theorem enableWrite (h : chip.Stands mode enabled enabledVolatile memory) :
    (chip.heed .enableWrite command).2.Stands mode true enabledVolatile memory :=
  ⟨h.mode_eq, rfl, h.enabledVolatile_eq, h.memory_eq, failures_next h.failures⟩

/-- The volatile write enable is latched, and nothing else changes. -/
theorem enableVolatileWrite (h : chip.Stands mode enabled enabledVolatile memory) :
    (chip.heed .enableVolatileWrite command).2.Stands mode enabled true memory :=
  ⟨h.mode_eq, h.enabled_eq, rfl, h.memory_eq, failures_next h.failures⟩

/-- Status register 2 is written to the volatile copy, and stored if write enable is set too. -/
theorem writeStatus2 (h : chip.Stands mode enabled true memory)
    (hvalue : firstWritten? command = some value) :
    (chip.heed .writeStatus2 command).2.Stands
      { mode with registers := { mode.registers with
        status2 := ⟨value⟩
        storedStatus2 := if enabled then ⟨value⟩ else mode.registers.storedStatus2 } }
      false false memory := by
  obtain ⟨rfl, rfl, hvolatile, rfl, hfailures⟩ := h
  refine ⟨?_, rfl, rfl, rfl, failures_next hfailures⟩
  cases henabled : chip.latches.writeEnable <;>
    simp [heed, obey, Chip.writeStatus2, hvalue, henabled, hvolatile, Chip.mode, drawn, log]

/-- With quad enable a chip enters its quad protocol, and nothing else changes. -/
theorem enterQuadProtocol (h : chip.Stands mode enabled enabledVolatile memory)
    (hquad : mode.registers.status2.quadEnabled = true) :
    (chip.heed .enterQuadProtocol command).2.Stands { mode with quad := true }
      enabled enabledVolatile memory := by
  obtain ⟨rfl, rfl, rfl, rfl, hfailures⟩ := h
  have hquad : chip.registers.status2.quadEnabled = true := hquad
  have hheed : (chip.heed .enterQuadProtocol command).2 =
      { chip.drawn.log command.instruction with
        latches := { chip.latches with resetEnable := false }, quad := true } := by
    simp [heed, obey, drawn, log, hquad]
  rw [hheed]
  exact ⟨rfl, rfl, rfl, rfl, failures_next hfailures⟩

/-- In its quad protocol a chip takes its read parameters, and nothing else changes. -/
theorem setReadParameters (h : chip.Stands mode enabled enabledVolatile memory)
    (hquad : mode.quad = true) (hvalue : firstWritten? command = some value) :
    (chip.heed .setReadParameters command).2.Stands
      { mode with registers := { mode.registers with readParameters := ⟨value⟩ } }
      enabled enabledVolatile memory := by
  obtain ⟨rfl, rfl, rfl, rfl, hfailures⟩ := h
  have hquad : chip.quad = true := hquad
  have hheed : (chip.heed .setReadParameters command).2 =
      { chip.drawn.log command.instruction with
        latches := { chip.latches with resetEnable := false }
        registers := { chip.registers with readParameters := ⟨value⟩ } } := by
    simp [heed, obey, drawn, log, hvalue, hquad]
  rw [hheed]
  exact ⟨rfl, rfl, rfl, rfl, failures_next hfailures⟩

/-- With write enable a chip takes its volatile configuration. -/
theorem writeVolatileConfig (h : chip.Stands mode true enabledVolatile memory)
    (hvalue : firstWritten? command = some value) :
    (chip.heed .writeVolatileConfig command).2.Stands
      { mode with registers := { mode.registers with volatileConfig := ⟨value⟩ } }
      false enabledVolatile memory := by
  obtain ⟨rfl, henabled, rfl, rfl, hfailures⟩ := h
  have hheed : (chip.heed .writeVolatileConfig command).2 =
      { chip.drawn.log command.instruction with
        latches := { chip.latches with resetEnable := false, writeEnable := false }
        registers := { chip.registers with volatileConfig := ⟨value⟩ } } := by
    simp [heed, obey, Chip.writeVolatileConfig, consumeWriteEnable, drawn, log, hvalue, henabled]
  rw [hheed]
  exact ⟨rfl, rfl, rfl, rfl, failures_next hfailures⟩

/-- With write enable a chip takes its enhanced configuration and its protocol. -/
theorem writeEnhancedConfig (h : chip.Stands mode true enabledVolatile memory)
    (hvalue : firstWritten? command = some value) :
    (chip.heed .writeEnhancedConfig command).2.Stands
      { mode with
        quad := EnhancedConfig.quadProtocol ⟨value⟩
        registers := { mode.registers with enhancedConfig := ⟨value⟩ } }
      false enabledVolatile memory := by
  obtain ⟨rfl, henabled, rfl, rfl, hfailures⟩ := h
  have hheed : (chip.heed .writeEnhancedConfig command).2 =
      { chip.drawn.log command.instruction with
        latches := { chip.latches with resetEnable := false, writeEnable := false }
        quad := EnhancedConfig.quadProtocol ⟨value⟩
        registers := { chip.registers with enhancedConfig := ⟨value⟩ } } := by
    simp [heed, obey, Chip.writeEnhancedConfig, consumeWriteEnable, drawn, log, hvalue, henabled]
  rw [hheed]
  exact ⟨rfl, rfl, rfl, rfl, failures_next hfailures⟩

end Stands

end Chip

namespace QuadEntry

open Chip

/-! ## The settings -/

/-- The registers of the vendor can express so many dummy cycles. -/
def Encodes (entry : QuadEntry) (cycles : UInt8) : Prop :=
  match entry with
  | winbond => cycles = 2 ∨ cycles = 4 ∨ cycles = 6 ∨ cycles = 8
  | micron => 1 ≤ cycles ∧ cycles ≤ 14

instance (entry : QuadEntry) (cycles : UInt8) : Decidable (entry.Encodes cycles) := by
  unfold Encodes
  cases entry <;> exact inferInstance

/-- The registers after the sequence, which finds the write enable latch set or clear; `none` if
they cannot express the dummy cycles. -/
def settings? (entry : QuadEntry) (cycles : UInt8) (enabled : Bool) (registers : Registers) :
    Option Registers :=
  match entry with
  | winbond =>
      ((ReadParameters.mk 0).withDummyCycles? cycles).map fun readParameters =>
        let status2 := registers.status2.withQuadEnable true
        { registers with
          status2
          storedStatus2 :=
            if !registers.status2.quadEnabled && enabled then status2 else registers.storedStatus2
          readParameters }
  | micron =>
      (registers.volatileConfig.withDummyCycles? cycles).map fun volatileConfig =>
        { registers with
          volatileConfig
          enhancedConfig := registers.enhancedConfig.withQuadProtocol true }

/-- An entry has settings just for the cycles it can encode. -/
theorem isSome_settings? (entry : QuadEntry) (cycles : UInt8) (enabled : Bool)
    (registers : Registers) :
    (entry.settings? cycles enabled registers).isSome = true ↔ entry.Encodes cycles := by
  cases entry with
  | winbond =>
      simp only [settings?, Encodes, Option.isSome_map, ReadParameters.withDummyCycles?]
      split <;> simp [*]
  | micron =>
      simp only [settings?, Encodes, Option.isSome_map, VolatileConfig.withDummyCycles?]
      split <;> simp [*]

/-! ## The sequences -/

section Sequence

variable {α : Type} {bench : Bench} {mode : Mode} {enabled enabledVolatile : Bool}
  {memory : Memory} {instruction : Instruction} {command : Command} {received : Option Bytes}

/-- A command that comes on the chip's width takes its effect. -/
theorem ends_obeyed {ok : Option Bytes → Bench → Prop} {bad : Fault → Bench → Prop}
    (h : bench.chip.Stands mode enabled enabledVolatile memory) (hasleep : mode.asleep = false)
    (hwidth : command.width = if mode.quad then .quad else .single)
    (hdecode : Instruction.decode? mode.vendor command.instruction = some instruction)
    (hreply : (bench.chip.heed instruction command).1 = .ok received)
    (hok : ∀ after : Bench, after.chip = (bench.chip.heed instruction command).2 →
      ok received after) :
    (Action.call (.command command)).Ends Bench.environment ok bad bench := by
  have hvendor : bench.chip.vendor = mode.vendor := congrArg Mode.vendor h.mode_eq
  refine Action.ends_heard (h.hears hasleep hwidth) (hvendor ▸ hdecode) hreply ?_ ?_
  · exact fun after _ hafter => hok after hafter
  · intro after hissued
    have hrefuses := hissued.refused_eq
    simp [refuses, FailurePlan.next, h.failures] at hrefuses

/-- A register is read on one line. -/
theorem ends_asked {ok : UInt8 → Bench → Prop} {bad : Fault → Bench → Prop} {code value : UInt8}
    (h : bench.chip.Stands mode enabled enabledVolatile memory) (hasleep : mode.asleep = false)
    (hquad : mode.quad = false)
    (hdecode : Instruction.decode? mode.vendor code = some instruction)
    (hpassive : instruction.isPassive = true)
    (hreply : (bench.chip.heed instruction
      ((Command.instruct code .single).reading 1 .single)).1 = .ok (some [value]))
    (hok : ∀ after : Bench, after.chip.Stands mode enabled enabledVolatile memory →
      ok value after) :
    (readRegister code .single).Ends Bench.environment ok bad bench := by
  unfold readRegister
  rw [Action.ends_bind]
  refine ends_obeyed h hasleep (by rw [hquad]; rfl) hdecode hreply fun after hchip => ?_
  exact hok after (hchip ▸ h.ask hpassive)

/-- The bench after the sequence: the chip is in quad protocol with these registers. -/
def Settled (bench : Bench) (registers : Registers) (width : BusWidth) (after : Bench) : Prop :=
  width = .quad ∧ after.chip.mode = { bench.chip.mode with quad := true, registers } ∧
    after.chip.memory = bench.chip.memory

/-- Once quad enable is set, the protocol is changed and the read parameters are set. -/
theorem ends_changeProtocol {parameters : ReadParameters} {ok : BusWidth → Bench → Prop}
    {bad : Fault → Bench → Prop}
    (h : bench.chip.Stands mode enabled enabledVolatile memory) (hvendor : mode.vendor = .winbond)
    (hasleep : mode.asleep = false) (hquad : mode.quad = false)
    (henabled : mode.registers.status2.quadEnabled = true)
    (hok : ∀ after : Bench, after.chip.Stands
      { mode with
        quad := true
        registers := { mode.registers with readParameters := parameters } }
      enabled enabledVolatile memory → ok .quad after) :
    Action.Ends Bench.environment (do
        QuadEntry.instruct WinbondOpcode.enterQuadProtocol.code
        writeRegister WinbondOpcode.setReadParameters.code .quad parameters.value
        return BusWidth.quad) ok bad bench := by
  have hprotocol : Instruction.decode? mode.vendor WinbondOpcode.enterQuadProtocol.code =
      some .enterQuadProtocol := hvendor ▸ (by decide)
  have hparameters : Instruction.decode? mode.vendor WinbondOpcode.setReadParameters.code =
      some .setReadParameters := hvendor ▸ (by decide)
  rw [Action.ends_bind, QuadEntry.instruct, Action.ends_discard]
  refine ends_obeyed h hasleep (by rw [hquad]; rfl) hprotocol rfl fun switched hchip => ?_
  have hswitched := hchip ▸ h.enterQuadProtocol henabled
  rw [Action.ends_bind, writeRegister, Action.ends_discard]
  refine ends_obeyed hswitched hasleep rfl hparameters rfl fun after hchip => ?_
  exact hok after (hchip ▸ hswitched.setReadParameters rfl rfl)

/-- Quad enable is set in status register 2, and in the stored copy if write enable is set. -/
theorem ends_setQuadEnable {status2 : Status2} {ok : Unit → Bench → Prop}
    {bad : Fault → Bench → Prop}
    (h : bench.chip.Stands mode enabled enabledVolatile memory) (hvendor : mode.vendor = .winbond)
    (hasleep : mode.asleep = false) (hquad : mode.quad = false)
    (hok : ∀ after : Bench, after.chip.Stands
      { mode with registers := { mode.registers with
        status2
        storedStatus2 := if enabled then status2 else mode.registers.storedStatus2 } }
      false false memory → ok () after) :
    Action.Ends Bench.environment (do
        QuadEntry.instruct Opcode.writeEnableVolatile.code
        writeRegister WinbondOpcode.writeStatus2.code .single status2.value) ok bad bench := by
  have henable : Instruction.decode? mode.vendor Opcode.writeEnableVolatile.code =
      some .enableVolatileWrite := hvendor ▸ (by decide)
  have hwrite : Instruction.decode? mode.vendor WinbondOpcode.writeStatus2.code =
      some .writeStatus2 := hvendor ▸ (by decide)
  rw [Action.ends_bind, QuadEntry.instruct, Action.ends_discard]
  refine ends_obeyed h hasleep (by rw [hquad]; rfl) henable rfl fun middle hchip => ?_
  have hmiddle := hchip ▸ h.enableVolatileWrite
  rw [writeRegister, Action.ends_discard]
  refine ends_obeyed hmiddle hasleep (by rw [hquad]; rfl) hwrite rfl fun after hchip => ?_
  exact hok after (hchip ▸ hmiddle.writeStatus2 rfl)

/-- A Winbond entry leaves its settings, or fails where it cannot encode the cycles. -/
theorem ends_enterWinbond_settled {device : Descriptor} (hvendor : bench.chip.vendor = .winbond)
    (hasleep : bench.chip.asleep = false) (hquad : bench.chip.quad = false)
    (hfailures : bench.chip.plan.failures = 0) :
    (enterWinbond device).Ends Bench.environment
      (fun width after => ∃ registers, winbond.settings? device.quadDummyCycles
        bench.chip.latches.writeEnable bench.chip.registers = some registers ∧
          Settled bench registers width after)
      (fun fault after => ¬winbond.Encodes device.quadDummyCycles ∧
        fault = .unencodableDummyCycles device.quadDummyCycles ∧
          after.chip.mode = bench.chip.mode ∧ after.chip.memory = bench.chip.memory) bench := by
  have hstands : bench.chip.Stands bench.chip.mode bench.chip.latches.writeEnable
      bench.chip.latches.volatileWriteEnable bench.chip.memory := ⟨rfl, rfl, rfl, rfl, hfailures⟩
  have hencodes := winbond.isSome_settings? device.quadDummyCycles
    bench.chip.latches.writeEnable bench.chip.registers
  unfold enterWinbond
  cases hparameters : (ReadParameters.mk 0).withDummyCycles? device.quadDummyCycles with
  | none =>
      simp only [settings?, hparameters, Option.map_none, Option.isSome_none] at hencodes
      exact ⟨fun h => by simp [h] at hencodes, rfl, rfl, rfl⟩
  | some parameters =>
      have hstatus : Instruction.decode? bench.chip.mode.vendor WinbondOpcode.readStatus2.code =
          some .readStatus2 := by
        rw [show bench.chip.mode.vendor = .winbond from hvendor]
        decide
      have hreply : (bench.chip.heed .readStatus2 ((Command.instruct
          WinbondOpcode.readStatus2.code .single).reading 1 .single)).1 =
            .ok (some [bench.chip.registers.status2.value]) := rfl
      rw [Action.ends_bind]
      refine ends_asked hstands hasleep hquad hstatus rfl hreply fun asked hasked => ?_
      dsimp only
      simp only [settings?, hparameters, Option.map_some]
      split
      · rename_i henabled
        refine ends_changeProtocol hasked hvendor hasleep hquad henabled fun after hafter => ?_
        refine ⟨_, rfl, rfl, ?_, hafter.memory_eq⟩
        have henabled : bench.chip.registers.status2.quadEnabled = true := henabled
        rw [hafter.mode_eq, Status2.withQuadEnable_of_quadEnabled henabled, henabled]
        rfl
      · rename_i hdisabled
        have hdisabled : bench.chip.registers.status2.quadEnabled = false :=
          Bool.eq_false_iff.mpr hdisabled
        rw [← bind_assoc, Action.ends_bind]
        refine ends_setQuadEnable hasked hvendor hasleep hquad fun middle hmiddle => ?_
        refine ends_changeProtocol hmiddle hvendor hasleep hquad
          (Status2.quadEnabled_withQuadEnable _ true) fun after hafter => ?_
        refine ⟨_, rfl, rfl, ?_, hafter.memory_eq⟩
        rw [hafter.mode_eq, hdisabled]
        rfl

/-- A register is written under a write enable that is sent right before. -/
theorem ends_written {next : Action α} {ok : α → Bench → Prop} {bad : Fault → Bench → Prop}
    {code value : UInt8} {changed : Mode}
    (h : bench.chip.Stands mode enabled enabledVolatile memory) (hasleep : mode.asleep = false)
    (hquad : mode.quad = false)
    (hdecode : Instruction.decode? mode.vendor code = some instruction)
    (hreply : ∀ chip : Chip, (chip.heed instruction
      ((Command.instruct code .single).writing [value] .single)).1 = Chip.silent)
    (hwrite : ∀ chip : Chip, chip.Stands mode true enabledVolatile memory →
      (chip.heed instruction ((Command.instruct code .single).writing [value] .single)).2.Stands
        changed false enabledVolatile memory)
    (hnext : ∀ after : Bench, after.chip.Stands changed false enabledVolatile memory →
      next.Ends Bench.environment ok bad after) :
    Action.Ends Bench.environment (do
        QuadEntry.instruct Opcode.writeEnable.code
        writeRegister code .single value
        next) ok bad bench := by
  have henable : Instruction.decode? mode.vendor Opcode.writeEnable.code = some .enableWrite :=
    Instruction.decode?_of_shared (by decide) mode.vendor
  rw [Action.ends_bind, QuadEntry.instruct, Action.ends_discard]
  refine ends_obeyed h hasleep (by rw [hquad]; rfl) henable rfl fun middle hchip => ?_
  have hmiddle := hchip ▸ h.enableWrite
  rw [Action.ends_bind, writeRegister, Action.ends_discard]
  refine ends_obeyed hmiddle hasleep (by rw [hquad]; rfl) hdecode (hreply _) fun after hchip => ?_
  exact hnext after (hchip ▸ hwrite _ hmiddle)

/-- A Micron entry leaves its settings, or fails where it cannot encode the cycles. -/
theorem ends_enterMicron_settled {device : Descriptor} (hvendor : bench.chip.vendor = .micron)
    (henhanced : bench.chip.registers.enhancedConfig.quadProtocol = false)
    (hasleep : bench.chip.asleep = false) (hquad : bench.chip.quad = false)
    (hfailures : bench.chip.plan.failures = 0) :
    (enterMicron device).Ends Bench.environment
      (fun width after => ∃ registers, micron.settings? device.quadDummyCycles
        bench.chip.latches.writeEnable bench.chip.registers = some registers ∧
          Settled bench registers width after)
      (fun fault after => ¬micron.Encodes device.quadDummyCycles ∧
        fault = .unencodableDummyCycles device.quadDummyCycles ∧
          after.chip.mode = bench.chip.mode ∧ after.chip.memory = bench.chip.memory) bench := by
  have hstands : bench.chip.Stands bench.chip.mode bench.chip.latches.writeEnable
      bench.chip.latches.volatileWriteEnable bench.chip.memory := ⟨rfl, rfl, rfl, rfl, hfailures⟩
  have hencodes := micron.isSome_settings? device.quadDummyCycles
    bench.chip.latches.writeEnable bench.chip.registers
  have hdecodes : ∀ {code : UInt8} {instruction : Instruction},
      Instruction.decode? .micron code = some instruction →
      Instruction.decode? bench.chip.mode.vendor code = some instruction := fun h => by
    rwa [show bench.chip.mode.vendor = .micron from hvendor]
  unfold enterMicron
  have hreply : (bench.chip.heed .readEnhancedConfig ((Command.instruct
      MicronOpcode.readEnhancedConfig.code .single).reading 1 .single)).1 =
        .ok (some [bench.chip.registers.enhancedConfig.value]) := rfl
  rw [Action.ends_bind]
  refine ends_asked hstands hasleep hquad
    (hdecodes (by decide : _ = some .readEnhancedConfig)) rfl hreply fun first hfirst => ?_
  dsimp only
  rw [if_neg (by simp [henhanced]), Action.ends_bind]
  have hvolatile : first.chip.registers.volatileConfig = bench.chip.registers.volatileConfig :=
    congrArg (fun mode => mode.registers.volatileConfig) hfirst.mode_eq
  have hreply : (first.chip.heed .readVolatileConfig ((Command.instruct
      MicronOpcode.readVolatileConfig.code .single).reading 1 .single)).1 =
        .ok (some [bench.chip.registers.volatileConfig.value]) := hvolatile ▸ rfl
  refine ends_asked hfirst hasleep hquad
    (hdecodes (by decide : _ = some .readVolatileConfig)) rfl hreply fun second hsecond => ?_
  cases hconfig : bench.chip.registers.volatileConfig.withDummyCycles? device.quadDummyCycles with
  | none =>
      simp only [settings?, hconfig, Option.map_none, Option.isSome_none] at hencodes
      exact ⟨fun h => by simp [h] at hencodes, rfl, hsecond.mode_eq, hsecond.memory_eq⟩
  | some config =>
      refine ends_written hsecond hasleep hquad
        (hdecodes (by decide : _ = some .writeVolatileConfig)) (fun _ => rfl)
        (fun chip h => h.writeVolatileConfig rfl) fun third hthird => ?_
      refine ends_written hthird hasleep hquad
        (hdecodes (by decide : _ = some .writeEnhancedConfig)) (fun _ => rfl)
        (fun chip h => h.writeEnhancedConfig rfl) fun after hafter => ?_
      simp only [settings?, hconfig, Option.map_some]
      refine ⟨_, rfl, rfl, hafter.mode_eq.trans ?_, hafter.memory_eq⟩
      rw [EnhancedConfig.quadProtocol_withQuadProtocol]
      rfl

/-- The sequence of the vendor either ends with the settings or finds that there are none. -/
theorem ends_enter {entry : QuadEntry} {device : Descriptor}
    (hvendor : bench.chip.vendor = entry.vendor) (hagrees : bench.chip.Agrees)
    (hasleep : bench.chip.asleep = false) (hquad : bench.chip.quad = false)
    (hfailures : bench.chip.plan.failures = 0) :
    (entry.enter device).Ends Bench.environment
      (fun width after => ∃ registers, entry.settings? device.quadDummyCycles
        bench.chip.latches.writeEnable bench.chip.registers = some registers ∧
          Settled bench registers width after)
      (fun fault after => ¬entry.Encodes device.quadDummyCycles ∧
        fault = .unencodableDummyCycles device.quadDummyCycles ∧
          after.chip.mode = bench.chip.mode ∧ after.chip.memory = bench.chip.memory) bench := by
  cases entry with
  | winbond => exact ends_enterWinbond_settled hvendor hasleep hquad hfailures
  | micron =>
      rw [Agrees, hvendor] at hagrees
      exact ends_enterMicron_settled hvendor (hagrees.symm.trans hquad) hasleep hquad hfailures

end Sequence

/-! ## What the settings are good for -/

/-- The bits of status register 2 that hold a quad setting of the vendor. -/
def status2Mask : QuadEntry → UInt8
  | winbond => 0x02
  | micron => 0

/-- The bits of the volatile configuration that hold a quad setting of the vendor. -/
def volatileMask : QuadEntry → UInt8
  | winbond => 0
  | micron => 0xF0

/-- The bits of the enhanced configuration that hold a quad setting of the vendor. -/
def enhancedMask : QuadEntry → UInt8
  | winbond => 0
  | micron => 0x80

/-- The chip was brought into quad mode for the device, and is otherwise as before. -/
structure Configured (entry : QuadEntry) (device : Descriptor) (before after : Chip) : Prop where
  quad : after.quad = true
  hears : after.Hears .quad
  cycles : after.readDummyCycles = device.quadDummyCycles
  reads : device.modeCycles ≤ device.quadDummyCycles → ∀ command : Command,
    command.modeCycles = device.modeCycles → command.dummyCycles = device.readDummyCycles →
      after.checkRead command = .ok ()
  enabled : entry = .winbond → after.registers.status2.quadEnabled = true
  status2 : AgreeOutside entry.status2Mask after.registers.status2.value
    before.registers.status2.value
  volatileConfig : AgreeOutside entry.volatileMask after.registers.volatileConfig.value
    before.registers.volatileConfig.value
  enhancedConfig : AgreeOutside entry.enhancedMask after.registers.enhancedConfig.value
    before.registers.enhancedConfig.value
  readParameters : entry = .micron →
    after.registers.readParameters = before.registers.readParameters
  /-- Only a write of status register 2 that finds write enable set is stored. -/
  stored : after.registers.storedStatus2 = before.registers.storedStatus2 ∨
    entry = .winbond ∧ before.registers.status2.quadEnabled = false ∧
      before.latches.writeEnable = true ∧
        after.registers.storedStatus2 = after.registers.status2
  others : after.mode = { before.mode with quad := true, registers := after.registers }
  memory : after.memory = before.memory

section Settings

variable {entry : QuadEntry} {cycles : UInt8} {enabled : Bool} {registers changed : Registers}

/-- The settings of a Winbond entry have quad enable. -/
theorem quadEnabled_settings? (h : winbond.settings? cycles enabled registers = some changed) :
    changed.status2.quadEnabled = true := by
  obtain ⟨parameters, -, rfl⟩ := Option.map_eq_some_iff.mp h
  exact Status2.quadEnabled_withQuadEnable ..

/-- An entry changes no bit outside the masks of its registers. -/
theorem agreeOutside_settings? (h : entry.settings? cycles enabled registers = some changed) :
    AgreeOutside entry.status2Mask changed.status2.value registers.status2.value ∧
      AgreeOutside entry.volatileMask changed.volatileConfig.value
        registers.volatileConfig.value ∧
      AgreeOutside entry.enhancedMask changed.enhancedConfig.value
        registers.enhancedConfig.value := by
  cases entry with
  | winbond =>
      obtain ⟨parameters, -, rfl⟩ := Option.map_eq_some_iff.mp h
      exact ⟨agreeOutside_withQuadEnable .., rfl, rfl⟩
  | micron =>
      obtain ⟨config, hconfig, rfl⟩ := Option.map_eq_some_iff.mp h
      exact ⟨rfl, agreeOutside_withDummyCycles? hconfig, agreeOutside_withQuadProtocol ..⟩

/-- A Micron entry leaves the read parameters alone. -/
theorem readParameters_settings? (h : micron.settings? cycles enabled registers = some changed) :
    changed.readParameters = registers.readParameters := by
  obtain ⟨config, -, rfl⟩ := Option.map_eq_some_iff.mp h
  rfl

/-- The stored status keeps its value, unless quad enable is written with write enable set. -/
theorem storedStatus2_settings? (h : entry.settings? cycles enabled registers = some changed) :
    changed.storedStatus2 = registers.storedStatus2 ∨
      entry = .winbond ∧ registers.status2.quadEnabled = false ∧ enabled = true ∧
        changed.storedStatus2 = changed.status2 := by
  cases entry with
  | winbond =>
      obtain ⟨parameters, -, rfl⟩ := Option.map_eq_some_iff.mp h
      cases hquad : registers.status2.quadEnabled <;> cases enabled <;> simp
  | micron =>
      obtain ⟨config, -, rfl⟩ := Option.map_eq_some_iff.mp h
      exact .inl rfl

/-- A chip in quad protocol with these registers expects the cycles they were set for. -/
theorem readDummyCycles_settings? {chip : Chip} (hvendor : chip.vendor = entry.vendor)
    (hquad : chip.quad = true)
    (h : entry.settings? cycles enabled registers = some chip.registers) :
    chip.readDummyCycles = cycles := by
  cases entry with
  | winbond =>
      obtain ⟨parameters, hparameters, hregisters⟩ := Option.map_eq_some_iff.mp h
      have hcycles := ReadParameters.dummyCycles_of_withDummyCycles? hparameters
      have hvendor : chip.vendor = .winbond := hvendor
      simp [Chip.readDummyCycles, hvendor, hquad, ← hregisters, hcycles]
  | micron =>
      obtain ⟨config, hconfig, hregisters⟩ := Option.map_eq_some_iff.mp h
      have hcycles := VolatileConfig.dummyCycles_of_withDummyCycles? hconfig
      have hvendor : chip.vendor = .micron := hvendor
      have hencodes : micron.Encodes cycles :=
        (micron.isSome_settings? cycles enabled registers).mp (h ▸ rfl)
      have hother : ¬(cycles = 0 ∨ cycles = 15) := by
        rintro (rfl | rfl) <;> exact absurd hencodes (by decide)
      simp [Chip.readDummyCycles, hvendor, ← hregisters, hcycles, hother]

end Settings

/-- The mode byte and the dummy cycles after it make up the cycles that the device needs. -/
theorem modeCycles_add_readDummyCycles {device : Descriptor}
    (h : device.modeCycles ≤ device.quadDummyCycles) :
    device.modeCycles.toNat + device.readDummyCycles.toNat = device.quadDummyCycles.toNat := by
  rw [Descriptor.readDummyCycles, if_pos h, UInt8.toNat_sub_of_le _ _ h]
  exact Nat.add_sub_cancel' h

/-- A chip that holds the settings of an entry is configured by it. -/
theorem configured_of_settled {entry : QuadEntry} {device : Descriptor} {bench after : Bench}
    {registers : Registers} {width : BusWidth}
    (hvendor : bench.chip.vendor = entry.vendor) (hasleep : bench.chip.asleep = false)
    (hsettings : entry.settings? device.quadDummyCycles bench.chip.latches.writeEnable
      bench.chip.registers = some registers)
    (h : Settled bench registers width after) : Configured entry device bench.chip after.chip := by
  obtain ⟨-, hmode, hmemory⟩ := h
  have hquad : after.chip.quad = true := congrArg Mode.quad hmode
  obtain rfl : after.chip.registers = registers := congrArg Mode.registers hmode
  have hvendor : after.chip.vendor = entry.vendor := (congrArg Mode.vendor hmode).trans hvendor
  have hasleep : after.chip.asleep = false := (congrArg Mode.asleep hmode).trans hasleep
  have hcycles := readDummyCycles_settings? hvendor hquad hsettings
  have henabled : entry = .winbond → after.chip.registers.status2.quadEnabled = true := by
    rintro rfl
    exact quadEnabled_settings? hsettings
  obtain ⟨hstatus2, hvolatile, henhanced⟩ := agreeOutside_settings? hsettings
  refine ⟨hquad, ⟨hasleep, by simp [listens, Chip.width, hquad]⟩, hcycles, ?_, henabled, hstatus2,
    hvolatile, henhanced, ?_, storedStatus2_settings? hsettings, hmode, hmemory⟩
  · intro hle command hmodeCycles hdummyCycles
    refine checkRead_of_expects ⟨fun hwinbond => ?_, ?_⟩
    · cases entry with
      | winbond => exact henabled rfl
      | micron => simp [hvendor, QuadEntry.vendor] at hwinbond
    · rw [Command.latency, hmodeCycles, hdummyCycles, modeCycles_add_readDummyCycles hle, hcycles]
  · rintro rfl
    exact readParameters_settings? hsettings

/-- On a chip of the vendor that is awake in single-line protocol, in whatever state `Agrees`
allows, and with nothing made to fail, the entry sequence for a device succeeds exactly if the
vendor's registers can express the dummy cycles of the device. Then the chip is in quad protocol,
accepts the device's reads, and is otherwise as before; if not, the chip is as before altogether. -/
theorem enter_configures {entry : QuadEntry} {device : Descriptor} {bench : Bench}
    (hvendor : bench.chip.vendor = entry.vendor) (hagrees : bench.chip.Agrees)
    (hasleep : bench.chip.asleep = false) (hquad : bench.chip.quad = false)
    (hfailures : bench.chip.plan.failures = 0) :
    let ended := (entry.enter device).run.run Bench.environment bench
    (ended.1 = .ok .quad ↔ entry.Encodes device.quadDummyCycles) ∧
      (entry.Encodes device.quadDummyCycles →
        Configured entry device bench.chip ended.2.chip) ∧
      (¬entry.Encodes device.quadDummyCycles →
        ended.1 = .error (.unencodableDummyCycles device.quadDummyCycles) ∧
          ended.2.chip.mode = bench.chip.mode ∧ ended.2.chip.memory = bench.chip.memory) := by
  intro ended
  have hends := (Action.ends_iff (entry.enter device)).mp
    (ends_enter hvendor hagrees hasleep hquad hfailures)
  generalize hended : (entry.enter device).run.run Bench.environment bench = result at hends
  obtain rfl : ended = result := hended
  obtain ⟨fault | width, after⟩ := ended
  · obtain ⟨hnone, hfault, hkept⟩ := hends
    exact ⟨⟨fun h => by simp at h, fun h => absurd h hnone⟩, fun h => absurd h hnone,
      fun _ => ⟨congrArg Except.error hfault, hkept⟩⟩
  · obtain ⟨registers, hsettings, hsettled⟩ := hends
    have hencodes : entry.Encodes device.quadDummyCycles :=
      (entry.isSome_settings? _ _ _).mp (Option.isSome_of_eq_some hsettings)
    exact ⟨⟨fun _ => hencodes, fun _ => congrArg Except.ok hsettled.1⟩,
      fun _ => configured_of_settled hvendor hasleep hsettings hsettled,
      fun h => absurd hencodes h⟩

/-- A Micron chip whose volatile configuration was written before: the dummy cycles are replaced,
and the low bits stay as they were written. -/
theorem enter_configures_of_written_config :
    let enabled := ((Chip.fresh ⟨0x20, 0xBA18⟩).answer
      (.command (.instruct Opcode.writeEnable.code .single))).2
    let chip := (enabled.answer (.command ((Command.instruct
      MicronOpcode.writeVolatileConfig.code .single).writing [0x2A] .single))).2
    let device : Descriptor := ⟨0xBA18, "MT25QL128ABA", 4096, true, 8, none⟩
    let ended := (micron.enter device).run.run Bench.environment (Bench.ofChip chip)
    chip.registers.volatileConfig.value = 0x2A ∧ ended.1 = .ok .quad ∧
      ended.2.chip.registers.volatileConfig.value = 0x8A ∧
      Configured micron device chip ended.2.chip := by
  intro enabled chip device ended
  have hvendor : chip.vendor = micron.vendor := by decide +kernel
  have hquad : chip.quad = false := by decide +kernel
  have hagrees : chip.Agrees := by
    rw [Agrees, hvendor]
    exact hquad.trans (by decide +kernel)
  obtain ⟨hok, hconfigured, -⟩ := @enter_configures micron device (Bench.ofChip chip) hvendor
    hagrees (by decide +kernel) hquad (by decide +kernel)
  have hencodes : micron.Encodes device.quadDummyCycles := by decide
  exact ⟨by decide +kernel, hok.mpr hencodes, by decide +kernel, hconfigured hencodes⟩

end QuadEntry

end NorFlash
