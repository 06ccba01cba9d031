import NorFlash.Engine.Control
import NorFlash.Proofs.Bench.Command
import NorFlash.Proofs.Catalog
import NorFlash.Proofs.Chip.Timing
import NorFlash.Proofs.Register

/-!
# Entering quad mode on a bench

From a chip that is awake in single-line protocol, the entry sequence of its vendor either succeeds,
and then the chip serves quad reads with eight dummy cycles, or it stops at the command that the
chip was made to refuse. `ends_enterQuad` says so for any identified device. In the second case the
chip has changed its protocol exactly if the refused command is the last one for a Winbond device,
which sets the dummy cycles.
-/

namespace NorFlash

namespace Chip

/-- The chip is one of the vendor's, awake, and in single-line or quad protocol as given. -/
structure Awake (vendor : Vendor) (quad : Bool) (chip : Chip) : Prop where
  vendor_eq : chip.vendor = vendor
  strict : chip.strict = true
  asleep : chip.asleep = false
  quad_eq : chip.quad = quad

/-- The chip accepts quad reads with so many mode and dummy cycles. -/
def Serves (cycles : UInt8) (chip : Chip) : Prop :=
  ∀ command : Command, command.latency = cycles.toNat →
    chip.checkRead command = .ok ()

variable {chip other : Chip} {vendor : Vendor} {quad : Bool}

/-- Whether a chip is awake depends on nothing but its mode. -/
theorem Awake.of_mode (h : chip.Awake vendor quad) (hmode : other.mode = chip.mode) :
    other.Awake vendor quad :=
  ⟨(congrArg Mode.vendor hmode).trans h.vendor_eq, (congrArg Mode.strict hmode).trans h.strict,
    (congrArg Mode.asleep hmode).trans h.asleep, (congrArg Mode.quad hmode).trans h.quad_eq⟩

/-- A chip that is awake in its single protocol hears one line. -/
theorem Awake.hears_single (h : chip.Awake vendor false) : chip.Hears .single :=
  (Chip.hears_single h.strict).mpr ⟨h.asleep, h.quad_eq⟩

/-- A chip that is awake in its quad protocol hears four lines. -/
theorem Awake.hears_quad (h : chip.Awake vendor true) : chip.Hears .quad :=
  (Chip.hears_quad h.strict).mpr ⟨h.asleep, h.quad_eq⟩

/-- A Winbond chip serves a quad read at the cycles of its read parameters. -/
theorem serves_of_winbond (h : chip.Awake .winbond true)
    (henabled : chip.registers.status2.quadEnabled = true) {cycles : UInt8}
    (hcycles : chip.registers.readParameters.dummyCycles = cycles) : chip.Serves cycles := by
  intro command hcommand
  refine checkRead_of_expects ⟨fun _ => henabled, ?_⟩
  simp [readDummyCycles, h.vendor_eq, h.quad_eq, hcycles, hcommand]

/-- A Micron chip serves a quad read at the cycles of its volatile configuration. -/
theorem serves_of_micron (h : chip.vendor = .micron) {cycles : UInt8}
    (hcycles : chip.registers.volatileConfig.dummyCycles = cycles) (hzero : cycles ≠ 0)
    (hlast : cycles ≠ 15) : chip.Serves cycles := by
  intro command hcommand
  refine checkRead_of_expects ⟨fun hwinbond => by simp [h] at hwinbond, ?_⟩
  simp [readDummyCycles, h, hcycles, hcommand, hzero, hlast]

end Chip

namespace QuadEntry

open Chip

variable {bench : Bench} {vendor : Vendor} {code : UInt8} {instruction : Instruction}

/-- The last command of the Winbond sequence: the chip is in quad protocol when it is sent. -/
def setsReadParameters (command : Command) : Prop :=
  command.instruction = WinbondOpcode.setReadParameters.code ∧ command.width = .quad

/-- The bench after a sequence that stopped at a refused command. The chip is in quad protocol
exactly if that was the last command of the Winbond sequence. -/
def Halted (bench after : Bench) : Prop :=
  ∃ last, bench.StopsAt last after ∧ (after.chip.quad = true ↔ setsReadParameters last)

/-- A halt after some of the steps is a halt of them all. -/
theorem Halted.of_leads {middle after : Bench} (h : Halted middle after)
    (hleads : bench.Leads middle) : Halted bench after := by
  obtain ⟨last, hstops, hquad⟩ := h
  exact ⟨last, hleads.stopsAt hstops, hquad⟩

/-- A halt remains one when the bus is given back. -/
theorem Halted.release {after : Bench} (h : Halted bench after) (bus : BusState) :
    Halted bench { after with bus := some bus } := by
  obtain ⟨last, ⟨hcarried, hresponsive⟩, hquad⟩ := h
  exact ⟨last, ⟨hcarried, hresponsive⟩, hquad⟩

/-- A command refused before the protocol changes. -/
theorem halted_of_issued {command : Command} {after : Bench}
    (hquad : bench.chip.quad = false) (hwidth : command.width = .single)
    (h : bench.Issued command true after) : Halted bench after := by
  refine ⟨command, h.stopsAt, ?_⟩
  have hkept : after.chip.quad = false := (congrArg Mode.quad h.idle.mode).trans hquad
  simp [setsReadParameters, hkept, hwidth]

/-- A command takes its effect on a chip that listens on one line, or the sequence stops there. -/
theorem ends_sent {command : Command} {received : Option Bytes}
    {ok : Option Bytes → Bench → Prop} (hawake : bench.chip.Awake vendor false)
    (hwidth : command.width = .single)
    (hdecode : Instruction.decode? vendor command.instruction = some instruction)
    (hreply : (bench.chip.heed instruction command).1 = .ok received)
    (hok : ∀ after, bench.Leads after →
      after.chip = (bench.chip.heed instruction command).2 → ok received after) :
    (Action.call (.command command)).Ends Bench.environment ok (fun _ after => Halted bench after)
      bench := by
  refine Action.ends_heard (hwidth ▸ hawake.hears_single) (hawake.vendor_eq ▸ hdecode) hreply
    ?_ ?_
  · exact fun after hissued hafter => hok after hissued.leads hafter
  · exact fun after hissued => halted_of_issued hawake.quad_eq hwidth hissued

/-- An instruction that is obeyed in silence succeeds, or is refused where it halts. -/
theorem ends_instruct {ok : Unit → Bench → Prop} (hawake : bench.chip.Awake vendor false)
    (hdecode : Instruction.decode? vendor code = some instruction)
    (hreply : (bench.chip.heed instruction (.instruct code .single)).1 = Chip.silent)
    (hok : ∀ after, bench.Leads after →
      after.chip = (bench.chip.heed instruction (.instruct code .single)).2 → ok () after) :
    (QuadEntry.instruct code).Ends Bench.environment ok (fun _ after => Halted bench after)
      bench := by
  unfold QuadEntry.instruct
  rw [Action.ends_discard]
  exact ends_sent hawake rfl hdecode hreply hok

/-- So does the write of a register. -/
theorem ends_writeRegister {ok : Unit → Bench → Prop} {value : UInt8}
    (hawake : bench.chip.Awake vendor false)
    (hdecode : Instruction.decode? vendor code = some instruction)
    (hreply : (bench.chip.heed instruction
      ((Command.instruct code .single).writing [value] .single)).1 = Chip.silent)
    (hok : ∀ after, bench.Leads after →
      after.chip = (bench.chip.heed instruction
        ((Command.instruct code .single).writing [value] .single)).2 → ok () after) :
    (writeRegister code .single value).Ends Bench.environment ok
      (fun _ after => Halted bench after) bench := by
  unfold writeRegister
  rw [Action.ends_discard]
  exact ends_sent hawake rfl hdecode hreply hok

/-- A register that is read is returned, or the read is refused where it halts. -/
theorem ends_readRegister {ok : UInt8 → Bench → Prop} {value : UInt8}
    (hawake : bench.chip.Awake vendor false)
    (hdecode : Instruction.decode? vendor code = some instruction)
    (hreply : (bench.chip.heed instruction
      ((Command.instruct code .single).reading 1 .single)).1 = .ok (some [value]))
    (hok : ∀ after, bench.Leads after →
      after.chip = (bench.chip.heed instruction
        ((Command.instruct code .single).reading 1 .single)).2 → ok value after) :
    (readRegister code .single).Ends Bench.environment ok (fun _ after => Halted bench after)
      bench := by
  unfold readRegister
  rw [Action.ends_bind]
  exact ends_sent hawake rfl hdecode hreply hok

/-! ## Winbond -/

/-- The bench afterwards: everything was carried out, and the chip serves reads in quad protocol. -/
def Entered (vendor : Vendor) (bench after : Bench) : Prop :=
  bench.Leads after ∧ after.chip.Awake vendor true ∧ after.chip.Serves 8

/-- A chip with quad enable goes to its quad protocol and keeps its registers. -/
theorem awake_of_enterQuadProtocol {chip after : Chip} {command : Command}
    (hawake : chip.Awake vendor false)
    (henabled : chip.registers.status2.quadEnabled = true)
    (hafter : after = (chip.heed .enterQuadProtocol command).2) :
    after.Awake vendor true ∧ after.registers = chip.registers := by
  obtain ⟨hvendor, hstrict, hasleep, -⟩ := hawake
  have hchanged : after = { chip.drawn.log command.instruction with
      latches := { chip.latches with resetEnable := false }, quad := true } := by
    simp [hafter, heed, obey, drawn, Chip.log, henabled]
  subst hchanged
  exact ⟨⟨hvendor, hstrict, hasleep, rfl⟩, rfl⟩

/-- A chip told its read parameters holds them and stays awake. -/
theorem awake_of_setReadParameters {chip after : Chip} {value : UInt8}
    (hawake : chip.Awake vendor true)
    (hafter : after = (chip.heed .setReadParameters
      ((Command.instruct code .quad).writing [value] .quad)).2) :
    after.Awake vendor true ∧
      after.registers = { chip.registers with readParameters := ⟨value⟩ } := by
  obtain ⟨hvendor, hstrict, hasleep, hquad⟩ := hawake
  have hchanged : after = { chip.drawn.log code with
      latches := { chip.latches with resetEnable := false }
      registers := { chip.registers with readParameters := ⟨value⟩ } } := by
    simp [hafter, heed, obey, drawn, Chip.log, firstWritten?, Command.writing, Command.instruct,
      hquad]
  subst hchanged
  exact ⟨⟨hvendor, hstrict, hasleep, hquad⟩, rfl⟩

/-- Once quad enable is set, the chip changes its protocol and is told its dummy cycles. -/
theorem ends_enterProtocol (hawake : bench.chip.Awake .winbond false)
    (henabled : bench.chip.registers.status2.quadEnabled = true) {parameters : ReadParameters}
    (hparameters : parameters.dummyCycles = 8) :
    Action.Ends Bench.environment (do
        QuadEntry.instruct WinbondOpcode.enterQuadProtocol.code
        writeRegister WinbondOpcode.setReadParameters.code .quad parameters.value
        return BusWidth.quad)
      (fun width after => width = .quad ∧ Entered .winbond bench after)
      (fun _ after => Halted bench after) bench := by
  rw [Action.ends_bind]
  refine ends_instruct hawake (by decide : _ = some Instruction.enterQuadProtocol) rfl
    fun switched hswitched hchip => ?_
  obtain ⟨hquad, hregisters⟩ := awake_of_enterQuadProtocol hawake henabled hchip
  rw [Action.ends_bind]
  unfold writeRegister
  rw [Action.ends_discard]
  have hdecode : Instruction.decode? switched.chip.vendor WinbondOpcode.setReadParameters.code =
      some .setReadParameters := by
    rw [hquad.vendor_eq]
    decide
  refine Action.ends_heard hquad.hears_quad hdecode rfl ?_ ?_
  · intro after hissued hafter
    obtain ⟨hawake, hset⟩ := awake_of_setReadParameters hquad hafter
    refine ⟨rfl, hswitched.trans hissued.leads, hawake, serves_of_winbond hawake ?_ ?_⟩
    · rw [hset, hregisters]
      exact henabled
    · rw [hset]
      exact hparameters
  · intro after hissued
    -- The chip listens on four lines already, but the engine will not come to record that.
    refine ⟨_, hswitched.stopsAt hissued.stopsAt, ?_⟩
    have hkept : after.chip.quad = true :=
      (congrArg Mode.quad hissued.idle.mode).trans hquad.quad_eq
    simp [setsReadParameters, hkept, Command.writing, Command.instruct]

/-- A chip enabled for it takes the value of its second status register. -/
theorem awake_of_writeStatus2 {chip after : Chip} {value : UInt8}
    (hawake : chip.Awake vendor false) (hlatch : chip.latches.volatileWriteEnable = true)
    (hafter : after = (chip.heed .writeStatus2
      ((Command.instruct code .single).writing [value] .single)).2) :
    after.Awake vendor false ∧ after.registers.status2 = ⟨value⟩ := by
  subst hafter
  refine ⟨⟨hawake.vendor_eq, hawake.strict, hawake.asleep, hawake.quad_eq⟩, ?_⟩
  cases hwrite : chip.latches.writeEnable <;>
    simp [heed, obey, Chip.writeStatus2, firstWritten?, Command.writing, hwrite, hlatch]

/-- The bench afterwards: everything was carried out, and the chip has quad enable set. -/
def Enabled (bench after : Bench) : Prop :=
  bench.Leads after ∧ after.chip.Awake .winbond false ∧
    after.chip.registers.status2.quadEnabled = true

/-- Quad enable is set in the volatile copy at least, by a write that was enabled for it. -/
theorem ends_enableQuad (hawake : bench.chip.Awake .winbond false) :
    Action.Ends Bench.environment (do
        QuadEntry.instruct Opcode.writeEnableVolatile.code
        writeRegister WinbondOpcode.writeStatus2.code .single
          (bench.chip.registers.status2.withQuadEnable true).value)
      (fun _ after => Enabled bench after) (fun _ after => Halted bench after) bench := by
  rw [Action.ends_bind]
  refine ends_instruct hawake (by decide : _ = some Instruction.enableVolatileWrite) rfl
    fun middle hmiddle hchip => ?_
  have hmode : middle.chip.mode = bench.chip.mode := hchip ▸ mode_heed rfl
  have hlatch : middle.chip.latches.volatileWriteEnable = true := hchip ▸ rfl
  refine (ends_writeRegister (hawake.of_mode hmode)
    (by decide : _ = some Instruction.writeStatus2) rfl fun after hafter hwrite => ?_).mono
      (fun _ _ h => h) fun _ _ h => h.of_leads hmiddle
  obtain ⟨hplain, hstatus⟩ := awake_of_writeStatus2 (hawake.of_mode hmode) hlatch hwrite
  exact ⟨hmiddle.trans hafter, hplain, hstatus ▸ Status2.quadEnabled_withQuadEnable _ true⟩

/-- The whole sequence for a Winbond device. -/
theorem ends_enterWinbond {device : Descriptor} (hcycles : device.quadDummyCycles = 8)
    (hawake : bench.chip.Awake .winbond false) :
    (enterWinbond device).Ends Bench.environment
      (fun width after => width = .quad ∧ Entered .winbond bench after)
      (fun _ after => Halted bench after) bench := by
  have hparameters : (ReadParameters.mk 0).withDummyCycles? device.quadDummyCycles =
      some ⟨0x30⟩ := by
    rw [hcycles]
    decide
  have hreply : (bench.chip.heed .readStatus2 ((Command.instruct
      WinbondOpcode.readStatus2.code .single).reading 1 .single)).1 =
        .ok (some [bench.chip.registers.status2.value]) := rfl
  unfold enterWinbond
  rw [hparameters, Action.ends_bind]
  refine ends_readRegister hawake (by decide) hreply fun asked hasked hchip => ?_
  have hmode : asked.chip.mode = bench.chip.mode := hchip ▸ mode_heed rfl
  have hplain := hawake.of_mode hmode
  have hstatus : bench.chip.registers.status2 = asked.chip.registers.status2 := hchip ▸ rfl
  -- The sequence goes on alike whether quad enable was set before or is set now.
  have hdone : ∀ middle, Enabled asked middle → Action.Ends Bench.environment (do
      QuadEntry.instruct WinbondOpcode.enterQuadProtocol.code
      writeRegister WinbondOpcode.setReadParameters.code .quad (ReadParameters.mk 0x30).value
      return BusWidth.quad)
      (fun width after => width = .quad ∧ Entered .winbond bench after)
      (fun _ after => Halted bench after) middle := by
    rintro middle ⟨hleads, hawake, henabled⟩
    refine (ends_enterProtocol hawake henabled (by decide)).mono ?_ ?_
    · rintro _ after ⟨rfl, hentered, hserves⟩
      exact ⟨rfl, hasked.trans (hleads.trans hentered), hserves⟩
    · exact fun _ after h => (h.of_leads hleads).of_leads hasked
  dsimp only
  split
  · rename_i henabled
    exact hdone asked ⟨.refl asked, hplain, hstatus ▸ henabled⟩
  · rw [← bind_assoc, Action.ends_bind, hstatus]
    refine (ends_enableQuad hplain).mono (fun _ => hdone) fun _ _ h => h.of_leads hasked

/-! ## Micron -/

/-- A chip enabled for it takes the value of its volatile configuration. -/
theorem awake_of_writeVolatileConfig {chip after : Chip} {value : UInt8}
    (hawake : chip.Awake vendor false) (hlatch : chip.latches.writeEnable = true)
    (hafter : after = (chip.heed .writeVolatileConfig
      ((Command.instruct code .single).writing [value] .single)).2) :
    after.Awake vendor false ∧ after.registers.volatileConfig = ⟨value⟩ := by
  obtain ⟨hvendor, hstrict, hasleep, hquad⟩ := hawake
  have hchanged : after = { chip.drawn.log code with
      latches := { chip.latches with resetEnable := false, writeEnable := false }
      registers := { chip.registers with volatileConfig := ⟨value⟩ } } := by
    simp [hafter, heed, obey, drawn, Chip.log, firstWritten?, Command.writing, Command.instruct,
      Chip.writeVolatileConfig, consumeWriteEnable, hlatch]
  subst hchanged
  exact ⟨⟨hvendor, hstrict, hasleep, hquad⟩, rfl⟩

/-- An enhanced configuration with the protocol in it takes the chip to four lines. -/
theorem awake_of_writeEnhancedConfig {chip after : Chip} {value : UInt8}
    (hawake : chip.Awake vendor false) (hlatch : chip.latches.writeEnable = true)
    (hvalue : EnhancedConfig.quadProtocol ⟨value⟩ = true)
    (hafter : after = (chip.heed .writeEnhancedConfig
      ((Command.instruct code .single).writing [value] .single)).2) :
    after.Awake vendor true ∧
      after.registers.volatileConfig = chip.registers.volatileConfig := by
  obtain ⟨hvendor, hstrict, hasleep, -⟩ := hawake
  have hchanged : after = { chip.drawn.log code with
      latches := { chip.latches with resetEnable := false, writeEnable := false }
      registers := { chip.registers with enhancedConfig := ⟨value⟩ }
      quad := true } := by
    simp [hafter, heed, obey, drawn, Chip.log, firstWritten?, Command.writing, Command.instruct,
      Chip.writeEnhancedConfig, consumeWriteEnable, hlatch, hvalue]
  subst hchanged
  exact ⟨⟨hvendor, hstrict, hasleep, rfl⟩, rfl⟩

/-- A register write that needs write enable comes right after the instruction that sets it. -/
theorem ends_enabledWrite {α : Type} {next : Action α} {ok : α → Bench → Prop} {value : UInt8}
    (hawake : bench.chip.Awake vendor false)
    (hdecode : Instruction.decode? vendor code = some instruction)
    (hreply : ∀ chip : Chip, (chip.heed instruction
      ((Command.instruct code .single).writing [value] .single)).1 = Chip.silent)
    (hnext : ∀ middle after : Bench, bench.Leads after → middle.chip.mode = bench.chip.mode →
      middle.chip.latches.writeEnable = true →
      after.chip = (middle.chip.heed instruction
        ((Command.instruct code .single).writing [value] .single)).2 →
      next.Ends Bench.environment ok (fun _ after => Halted bench after) after) :
    Action.Ends Bench.environment (do
        QuadEntry.instruct Opcode.writeEnable.code
        writeRegister code .single value
        next)
      ok (fun _ after => Halted bench after) bench := by
  have hshared : Instruction.decode? vendor Opcode.writeEnable.code = some .enableWrite :=
    Instruction.decode?_of_shared (by decide) vendor
  rw [Action.ends_bind]
  refine ends_instruct hawake hshared rfl fun middle hmiddle hchip => ?_
  have hmode : middle.chip.mode = bench.chip.mode := hchip ▸ mode_heed rfl
  have hlatch : middle.chip.latches.writeEnable = true := hchip ▸ rfl
  rw [Action.ends_bind]
  refine (ends_writeRegister (hawake.of_mode hmode) hdecode (hreply _)
    fun after hafter hwrite => ?_).mono (fun _ _ h => h) fun _ _ h => h.of_leads hmiddle
  exact hnext middle after (hmiddle.trans hafter) hmode hlatch hwrite

/-- The whole sequence for a Micron device, which starts outside quad protocol. -/
theorem ends_enterMicron {device : Descriptor} (hcycles : device.quadDummyCycles = 8)
    (hawake : bench.chip.Awake .micron false)
    (henhanced : bench.chip.registers.enhancedConfig.quadProtocol = false) :
    (enterMicron device).Ends Bench.environment
      (fun width after => width = .quad ∧ Entered .micron bench after)
      (fun _ after => Halted bench after) bench := by
  have hreply : (bench.chip.heed .readEnhancedConfig ((Command.instruct
      MicronOpcode.readEnhancedConfig.code .single).reading 1 .single)).1 =
        .ok (some [bench.chip.registers.enhancedConfig.value]) := rfl
  unfold enterMicron
  rw [Action.ends_bind]
  refine ends_readRegister hawake (by decide) hreply fun first hfirst hchip => ?_
  have hfirstMode : first.chip.mode = bench.chip.mode := hchip ▸ mode_heed rfl
  dsimp only
  rw [if_neg (by simp [henhanced]), Action.ends_bind]
  have hreply : (first.chip.heed .readVolatileConfig ((Command.instruct
      MicronOpcode.readVolatileConfig.code .single).reading 1 .single)).1 =
        .ok (some [first.chip.registers.volatileConfig.value]) := rfl
  refine (ends_readRegister (hawake.of_mode hfirstMode) (by decide) hreply
    fun second hsecond hchip => ?_).mono (fun _ _ h => h) fun _ _ h => h.of_leads hfirst
  have hsecondMode : second.chip.mode = first.chip.mode := hchip ▸ mode_heed rfl
  have hplain := (hawake.of_mode hfirstMode).of_mode hsecondMode
  obtain ⟨config, hconfig⟩ : ∃ config, (VolatileConfig.mk
      first.chip.registers.volatileConfig.value).withDummyCycles? device.quadDummyCycles =
        some config := by
    rw [hcycles]
    exact ⟨_, rfl⟩
  have hvolatileCode : Instruction.decode? .micron MicronOpcode.writeVolatileConfig.code =
      some .writeVolatileConfig := by
    decide
  have henhancedCode : Instruction.decode? .micron MicronOpcode.writeEnhancedConfig.code =
      some .writeEnhancedConfig := by
    decide
  rw [hconfig]
  -- The dummy cycles come first, so the protocol changes with the last command.
  refine (ends_enabledWrite hplain hvolatileCode (fun _ => rfl)
    fun enabled third hthird hmode hlatch hwrite => ?_).mono (fun _ _ h => h)
      fun _ _ h => (h.of_leads hsecond).of_leads hfirst
  obtain ⟨hplain, hvolatile⟩ :=
    awake_of_writeVolatileConfig (hplain.of_mode hmode) hlatch hwrite
  refine (ends_enabledWrite hplain henhancedCode (fun _ => rfl)
    fun enabled after hafter hmode hlatch hwrite => ?_).mono (fun _ _ h => h)
      fun _ _ h => h.of_leads hthird
  obtain ⟨hentered, hkept⟩ := awake_of_writeEnhancedConfig (hplain.of_mode hmode) hlatch
    (EnhancedConfig.quadProtocol_withQuadProtocol _ true) hwrite
  have henabled : enabled.chip.registers = third.chip.registers :=
    congrArg Mode.registers hmode
  refine ⟨rfl, hfirst.trans (hsecond.trans (hthird.trans hafter)), hentered, ?_⟩
  refine serves_of_micron hentered.vendor_eq ?_ (by decide) (by decide)
  rw [hkept, henabled, hvolatile]
  exact (VolatileConfig.dummyCycles_of_withDummyCycles? hconfig).trans hcycles

end QuadEntry

namespace Engine

open Chip QuadEntry

variable {bench : Bench} {engine : Engine} {identity : Identity} {id : JedecId} {bus : BusState}

/-- An identified device that listens on one line is brought into quad protocol, unless the chip is
made to refuse a command on the way. -/
theorem ends_enterQuad (hsound : Sound id bench.chip) (hknows : Catalog.Knows id identity)
    (hasleep : bench.chip.asleep = false) (hquad : bench.chip.quad = false)
    (hbus : bench.bus = some bus) :
    (engine.enterQuad identity).Ends Bench.environment
      (fun _ after => after.bus = some ⟨.quad, false⟩ ∧ bench.Leads after ∧
        after.chip.Hears .quad ∧ after.chip.Serves 8)
      (fun _ after => after.bus = some ⟨bus.width, false⟩ ∧ Halted bench after) bench := by
  refine ends_withBus hbus fun start htaken => ?_
  have hstart : bench.Leads start :=
    ⟨⟨[], htaken.commands.trans (List.append_nil _).symm⟩, htaken.chip.responsive⟩
  have hsound := htaken.chip.sound hsound
  have hawake : start.chip.Awake identity.manufacturer.quadEntry.vendor false :=
    ⟨hsound.vendor_eq.trans hknows.vendor_eq, hsound.strict,
      (congrArg Mode.asleep htaken.chip.mode).trans hasleep,
      (congrArg Mode.quad htaken.chip.mode).trans hquad⟩
  have hcycles := hknows.quadDummyCycles_eq
  rw [BusAction.ends_bind, BusAction.ends_lift]
  have hmain : (identity.manufacturer.quadEntry.enter identity.device).Ends Bench.environment
      (fun width after => width = .quad ∧
        Entered identity.manufacturer.quadEntry.vendor start after)
      (fun _ after => Halted start after) start := by
    generalize identity.manufacturer.quadEntry = entry at hawake ⊢
    cases entry with
    | winbond => exact ends_enterWinbond hcycles hawake
    | micron =>
        refine ends_enterMicron hcycles hawake ?_
        have hagrees := hsound.agrees
        rw [Agrees, hawake.vendor_eq] at hagrees
        exact hagrees.symm.trans hawake.quad_eq
  refine hmain.mono ?_ ?_
  · rintro width after ⟨rfl, hleads, hentered, hserves⟩
    exact ⟨rfl, hstart.trans ⟨hleads.carried, hleads.responsive⟩, hentered.hears_quad, hserves⟩
  · exact fun _ after hhalted => ⟨rfl, (hhalted.of_leads hstart).release _⟩

end Engine

end NorFlash
