import NorFlash.Engine.Operation
import NorFlash.Proofs.Chip.Mode
import NorFlash.Proofs.Engine.Orderly

/-!
# What an operation sends

`Operation.repertoire` lists the instruction bytes that an operation may have a chip carry out, and
`orderly_perform` says that it sends no others, whatever the surroundings answer. The lists tell
which operations can change the mode of a chip and which its memory.
-/

namespace NorFlash

variable {widths : BusWidth → Prop}

/-- The call stands for one of the instruction bytes listed, or for none. -/
def BusCall.Among (codes : List UInt8) (request : BusCall) : Prop :=
  ∀ code ∈ request.code?, code ∈ codes

namespace BusCall

/-- A command is among the instructions when its own is. -/
theorem among_command {codes : List UInt8} {sent : Command} (h : sent.instruction ∈ codes) :
    Among codes (.command sent) := by
  intro code hcode
  obtain rfl : sent.instruction = code := Option.some.inj hcode
  exact h

/-- A transfer is among the instructions when its own is. -/
theorem among_start {codes : List UInt8} {sent : Command} (h : sent.instruction ∈ codes) :
    Among codes (.start sent) := by
  intro code hcode
  obtain rfl : sent.instruction = code := Option.some.inj hcode
  exact h

/-- An instruction alone is a call for its byte. -/
theorem among_instruct {codes : List UInt8} {code : UInt8} (h : code ∈ codes) (width : BusWidth) :
    Among codes (.command (.instruct code width)) :=
  among_command h

/-- A poll is among any instructions. -/
theorem among_poll (codes : List UInt8) (asked : StatusPoll) : Among codes (.poll asked) := by
  simp [Among, code?, command?]

/-- A mapping is among any instructions. -/
theorem among_map (codes : List UInt8) (mapping : Command) : Among codes (.map mapping) := by
  simp [Among, code?, command?]

/-- An abort is among any instructions. -/
theorem among_abort (codes : List UInt8) : Among codes .abort := by
  simp [Among, code?, command?]

/-- A call stays among more instructions. -/
theorem Among.mono {codes more : List UInt8} {request : BusCall} (h : request.Among codes)
    (hmore : codes ⊆ more) : request.Among more :=
  fun code hcode => hmore (h code hcode)

end BusCall

namespace EraseKind

/-- The instruction bytes an erase sends. -/
def repertoire (kind : EraseKind) : List UInt8 :=
  [Opcode.writeEnable.code, kind.opcode]

end EraseKind

namespace Operation

/-- The instruction bytes that an operation may have a chip carry out. -/
def repertoire : Operation → List UInt8
  | readId => [Opcode.readJedecId.code]
  | sleep enter => [if enter then Opcode.powerDown.code else Opcode.releasePowerDown.code]
  | reset => [Opcode.enableReset.code, Opcode.reset.code]
  | enterMapped | exitMapped => []
  | read .. | readInto .. | readReporting .. | readMetered .. | readSector .. =>
      [Opcode.fastReadQuad.code]
  | write .. | writeReporting .. | writeMetered .. | writeSector .. | pageProgram .. =>
      [Opcode.writeEnable.code, Opcode.pageProgram.code]
  | erase _ kind => kind.repertoire
  | eraseChip => EraseKind.chip.repertoire
  | eraseRange .. | eraseRangeReporting .. | eraseRangeMetered .. =>
      [Opcode.writeEnable.code, EraseUnit.sector.opcode, EraseUnit.block32K.opcode,
        EraseUnit.block64K.opcode]
  | eraseSector _ => (EraseKind.unit .sector).repertoire

end Operation

namespace Engine

variable (engine : Engine)

/-- A read is made with the quad read. -/
theorem readCommand_instruction (device : Descriptor) (width : BusWidth) :
    (readCommand device width).instruction = Opcode.fastReadQuad.code := by
  unfold readCommand
  cases device.modeWidth <;> rfl

/-- Reading the identification keeps to its repertoire. -/
theorem orderly_readId :
    engine.readId.Orderly (BusCall.Among (Operation.repertoire .readId)) widths false :=
  orderly_withBus (BusCall.among_abort _) <|
    (BusAction.orderly_transfer (BusCall.among_start (by decide)) (BusCall.among_abort _) _).bind
      fun _ => BusAction.orderly_pure _

/-- Putting to sleep and waking keep to their repertoire. -/
theorem orderly_sleep (enter : Bool) :
    (engine.sleep enter).Orderly (BusCall.Among (Operation.repertoire (.sleep enter))) widths
      false := by
  refine orderly_withBus (BusCall.among_abort _) (BusAction.orderly_width_bind fun width _ => ?_)
  refine BusAction.orderly_instruct (BusCall.among_instruct ?_ width)
  cases enter <;> decide

/-- A reset keeps to its repertoire, and sets the bus to one line. -/
theorem orderly_reset (hsingle : widths .single) :
    engine.reset.Orderly (BusCall.Among (Operation.repertoire .reset)) widths false := by
  refine orderly_withBus (BusCall.among_abort _) (BusAction.orderly_width_bind fun width _ => ?_)
  refine (BusAction.orderly_instruct (BusCall.among_instruct (by decide) width)).bind fun _ => ?_
  refine (BusAction.orderly_instruct (BusCall.among_instruct (by decide) width)).bind fun _ => ?_
  exact BusAction.orderly_setWidth hsingle

/-- Mapping keeps to its repertoire. -/
theorem orderly_enterMapped :
    engine.enterMapped.Orderly (BusCall.Among (Operation.repertoire .enterMapped)) widths
      false := by
  refine (Action.orderly_ofExcept _).bind fun device => orderly_withBus (BusCall.among_abort _) ?_
  refine BusAction.orderly_width_bind fun width _ => ?_
  exact ((BusAction.orderly_call (BusCall.among_map _ _)).discard).bind fun _ =>
    BusAction.orderly_setMapped true

/-- Ending a mapping keeps to its repertoire. -/
theorem orderly_exitMapped :
    engine.exitMapped.Orderly (BusCall.Among (Operation.repertoire .exitMapped)) widths false := by
  refine orderly_holdingBus (BusAction.Orderly.bind ?_ fun _ => BusAction.orderly_setMapped false)
  exact BusAction.orderly_lift ⟨rfl, BusCall.among_abort _, fun _ => ⟨rfl, trivial⟩⟩

section Reading

/-- The calls of a read. -/
private abbrev Reads : BusCall → Prop := BusCall.Among [Opcode.fastReadQuad.code]

/-- A fetch only reads. -/
theorem orderly_fetch (device : Descriptor) (address : UInt32) (length : Nat) :
    (engine.fetch device address length).Orderly Reads widths false := by
  refine orderly_withBus (BusCall.among_abort _) (BusAction.orderly_width_bind fun width _ => ?_)
  refine BusAction.orderly_exchange (BusCall.among_start ?_) (BusCall.among_abort _) _
  rw [List.mem_singleton]
  exact readCommand_instruction device width

/-- A read into a buffer only reads. -/
theorem orderly_readInto (address : UInt32) (buffer : Bytes) :
    (engine.readInto address buffer).Orderly Reads widths false (fun _ => True) false := by
  unfold readInto
  split
  · exact ⟨rfl, trivial⟩
  · split
    · exact ⟨rfl, trivial⟩
    · split
      · exact ⟨rfl, trivial⟩
      · refine Program.Orderly.bind (engine.orderly_fetch ..) fun result _ => ?_
        cases result <;> exact ⟨rfl, trivial⟩

/-- A read into zeros only reads. -/
theorem orderly_readZeroed (address : UInt32) (length : Nat) :
    (engine.readZeroed address length).Orderly Reads widths false := by
  refine Action.Orderly.bind (Program.Orderly.bind (engine.orderly_readInto ..) fun _ _ =>
    ⟨rfl, trivial⟩) fun ended => ?_
  exact (Action.orderly_ofExcept ended.1).bind fun _ => Action.orderly_pure ended.2

/-- A read only reads. -/
theorem orderly_read (address : UInt32) (length : Nat) :
    (engine.read address length).Orderly Reads widths false :=
  (Action.orderly_ofExcept _).discard.bind fun _ => (Action.orderly_ofExcept _).bind fun _ =>
    engine.orderly_readZeroed address length

/-- A read in parts only reads. -/
theorem orderly_readReporting (address : UInt32) (length : Nat) :
    (engine.readReporting address length).Orderly Reads widths false := by
  refine (Action.orderly_ofExcept _).discard.bind fun _ => (Action.orderly_ofExcept _).bind
    fun _ => (Action.orderly_report 0).bind fun _ => Action.Orderly.bind ?_ fun parts =>
      (Action.orderly_report length).bind fun _ => Action.orderly_pure parts.flatten
  exact Action.orderly_mapM fun span _ => (engine.orderly_readZeroed ..).bind fun bytes =>
    (Action.orderly_report _).bind fun _ => Action.orderly_pure bytes

/-- A read from a sector only reads. -/
theorem orderly_readSector (sector : UInt32) (length : Nat) :
    (engine.readSector sector length).Orderly Reads widths false :=
  (Action.orderly_ofExcept _).bind fun address => engine.orderly_read address length

end Reading

section Writing

/-- Enabling a write sends the one instruction. -/
theorem orderly_enableWrite {codes : List UInt8} (h : Opcode.writeEnable.code ∈ codes) :
    enableWrite.Orderly (BusCall.Among codes) widths :=
  BusAction.orderly_width_bind fun _ _ =>
    BusAction.orderly_instruct (BusCall.among_command h)

/-- Waiting for a chip that is busy sends no instruction of its own. -/
theorem orderly_waitWhileBusy (codes : List UInt8) (patience : Nat) :
    (waitWhileBusy patience).Orderly (BusCall.Among codes) widths :=
  BusAction.orderly_width_bind fun _ _ =>
    (BusAction.orderly_transfer (BusCall.among_poll codes _) (BusCall.among_abort codes)
      patience).discard

/-- The calls of a write. -/
private abbrev Programs : BusCall → Prop :=
  BusCall.Among [Opcode.writeEnable.code, Opcode.pageProgram.code]

/-- A page program only programs. -/
theorem orderly_pageProgram (address : UInt32) (bytes : Bytes) :
    (engine.pageProgram address bytes).Orderly Programs widths false := by
  refine (Action.orderly_ofExcept _).discard.bind fun _ =>
    orderly_withBus (BusCall.among_abort _) ?_
  refine BusAction.orderly_width_bind fun width _ => ?_
  refine (orderly_enableWrite (by decide)).bind fun _ => ?_
  refine (BusAction.orderly_transfer (BusCall.among_start ?_) (BusCall.among_abort _)
    _).discard.bind fun _ => orderly_waitWhileBusy _ _
  simp [Command.writing, Command.atAddress, Command.instruct]

/-- A write that reports only programs. -/
theorem orderly_writeReporting (address : UInt32) (bytes : Bytes) :
    (engine.writeReporting address bytes).Orderly Programs widths false := by
  refine (Action.orderly_ofExcept _).discard.bind fun _ => ?_
  split
  · exact Action.orderly_pure ()
  · refine (Action.orderly_ofExcept _).bind fun _ => (Action.orderly_report 0).bind fun _ => ?_
    exact Action.orderly_forM fun piece _ =>
      (engine.orderly_pageProgram ..).bind fun _ => Action.orderly_report _

/-- A write only programs. -/
theorem orderly_write (address : UInt32) (bytes : Bytes) :
    (engine.write address bytes).Orderly Programs widths false :=
  (engine.orderly_writeReporting address bytes).silenced

/-- A write to a sector only programs. -/
theorem orderly_writeSector (sector : UInt32) (bytes : Bytes) :
    (engine.writeSector sector bytes).Orderly Programs widths false :=
  (Action.orderly_ofExcept _).bind fun address => engine.orderly_write address bytes

end Writing

section Erasing

/-- An erase keeps to the repertoire of its kind. -/
theorem orderly_erase (address : UInt32) (kind : EraseKind) :
    (engine.erase address kind).Orderly (BusCall.Among kind.repertoire) widths false := by
  refine (Action.orderly_ofExcept _).discard.bind fun _ => ?_
  cases kind with
  | unit area =>
      refine (Action.orderly_ofExcept _).bind fun _ => orderly_withBus (BusCall.among_abort _) ?_
      refine BusAction.orderly_width_bind fun width _ => ?_
      refine (orderly_enableWrite List.mem_cons_self).bind fun _ => ?_
      refine (BusAction.orderly_call (BusCall.among_command ?_)).discard.bind fun _ =>
        orderly_waitWhileBusy _ _
      simp [Command.atAddress, Command.instruct]
  | chip =>
      refine orderly_withBus (BusCall.among_abort _) ?_
      refine BusAction.orderly_width_bind fun width _ => ?_
      refine (orderly_enableWrite List.mem_cons_self).bind fun _ => ?_
      refine (BusAction.orderly_call (BusCall.among_instruct ?_ width)).discard.bind fun _ =>
        orderly_waitWhileBusy _ _
      simp

/-- The calls of an erase of units of any size. -/
private abbrev Erases : BusCall → Prop :=
  BusCall.Among (Operation.repertoire (.eraseRange 0 0))

/-- The erase of a unit only erases. -/
theorem orderly_eraseUnit (address : UInt32) (unit : EraseUnit) :
    (engine.erase address (.unit unit)).Orderly Erases widths false := by
  refine (engine.orderly_erase address (.unit unit)).mono (fun request h => h.mono ?_)
    fun _ h => h
  cases unit <;> decide

/-- A plan only erases. -/
theorem orderly_erasePlanned (plan : ErasePlan) (total : Nat) :
    (engine.erasePlanned plan total).Orderly Erases widths false := by
  induction plan generalizing total with
  | nil => exact Action.orderly_pure ()
  | cons planned rest ih =>
      exact (engine.orderly_eraseUnit ..).bind fun _ => (Action.orderly_report _).bind fun _ =>
        ih _

/-- An erase of a range that reports only erases. -/
theorem orderly_eraseRangeReporting (address : UInt32) (length : Nat) :
    (engine.eraseRangeReporting address length).Orderly Erases widths false := by
  refine (Action.orderly_ofExcept _).discard.bind fun _ => ?_
  split
  · exact Action.orderly_pure ()
  · exact (Action.orderly_ofExcept _).bind fun _ => (Action.orderly_report 0).bind fun _ =>
      engine.orderly_erasePlanned ..

/-- An erase of a sector keeps to its repertoire. -/
theorem orderly_eraseSector (sector : UInt32) :
    (engine.eraseSector sector).Orderly
      (BusCall.Among (Operation.repertoire (.eraseSector sector))) widths false :=
  (Action.orderly_ofExcept _).bind fun address => engine.orderly_erase address (.unit .sector)

end Erasing

/-- An operation sends nothing but its repertoire, and only a reset records another width. -/
theorem orderly_perform (operation : Operation) (h : operation = .reset → widths .single) :
    (engine.perform operation).Orderly (BusCall.Among operation.repertoire) widths false
      (fun _ => True) false := by
  cases operation with
  | readId => exact engine.orderly_readId.map
  | sleep enter => exact (engine.orderly_sleep enter).map
  | reset => exact (engine.orderly_reset (h rfl)).map
  | enterMapped => exact engine.orderly_enterMapped.map
  | exitMapped => exact engine.orderly_exitMapped.map
  | read address length => exact (engine.orderly_read address length).map
  | readInto address buffer =>
      exact (engine.orderly_readInto address buffer).bind fun _ _ => ⟨rfl, trivial⟩
  | readReporting address length => exact (engine.orderly_readReporting address length).map
  | readMetered address length =>
      exact (engine.orderly_readReporting address length).silenced.map
  | readSector sector length => exact (engine.orderly_readSector sector length).map
  | write address bytes => exact (engine.orderly_write address bytes).map
  | writeReporting address bytes => exact (engine.orderly_writeReporting address bytes).map
  | writeMetered address bytes => exact (engine.orderly_write address bytes).map
  | writeSector sector bytes => exact (engine.orderly_writeSector sector bytes).map
  | pageProgram address bytes => exact (engine.orderly_pageProgram address bytes).map
  | erase address kind => exact (engine.orderly_erase address kind).map
  | eraseChip => exact (engine.orderly_erase 0 .chip).map
  | eraseRange address length =>
      exact (engine.orderly_eraseRangeReporting address length).silenced.map
  | eraseRangeReporting address length =>
      exact (engine.orderly_eraseRangeReporting address length).map
  | eraseRangeMetered address length =>
      refine Action.Orderly.map ((Action.orderly_ofExcept _).discard.bind fun _ =>
        (Action.orderly_ofExcept _).bind fun _ => ?_)
      exact (engine.orderly_eraseRangeReporting address length).silenced
  | eraseSector sector => exact (engine.orderly_eraseSector sector).map

/-! ## Control sequences -/

/-- The instruction bytes sent on the way into quad mode. -/
def quadRepertoire : List UInt8 :=
  [WinbondOpcode.readStatus2.code, Opcode.writeEnableVolatile.code,
    WinbondOpcode.writeStatus2.code, WinbondOpcode.enterQuadProtocol.code,
    WinbondOpcode.setReadParameters.code, MicronOpcode.readEnhancedConfig.code,
    MicronOpcode.readVolatileConfig.code, Opcode.writeEnable.code,
    MicronOpcode.writeVolatileConfig.code, MicronOpcode.writeEnhancedConfig.code]

/-- The instruction bytes sent to wake and reset a device. -/
def wakeRepertoire : List UInt8 :=
  wakeSequence.map Opcode.code

section Control

/-- Identifying a device keeps to the repertoire of reading the identification. -/
theorem orderly_identify :
    engine.identify.Orderly (BusCall.Among (Operation.repertoire .readId)) widths false := by
  refine engine.orderly_readId.bind fun id => ?_
  split
  · exact Action.orderly_pure _
  · exact Action.orderly_throw _

/-- A recovery keeps to the instructions that wake and reset. -/
theorem orderly_recover (hsingle : widths .single) :
    engine.recover.Orderly (BusCall.Among wakeRepertoire) widths false := by
  have hsend : ∀ opcode ∈ wakeSequence, ∀ width,
      BusCall.Among wakeRepertoire (.command (.instruct opcode.code width)) :=
    fun opcode hopcode => BusCall.among_instruct (List.mem_map_of_mem hopcode)
  refine orderly_withBus (BusCall.among_abort _) ((BusAction.orderly_forM ?_).bind fun _ =>
    (BusAction.orderly_forM ?_).bind fun _ => BusAction.orderly_setWidth hsingle)
  · exact fun opcode hopcode => (BusAction.orderly_instruct (hsend opcode hopcode .quad)).attempt
  · exact fun opcode hopcode => BusAction.orderly_instruct (hsend opcode hopcode .single)

/-- The read of a register keeps to the repertoire of quad entry. -/
theorem orderly_readRegister {code : UInt8} (h : code ∈ quadRepertoire) (width : BusWidth) :
    (QuadEntry.readRegister code width).Orderly (BusCall.Among quadRepertoire) widths true :=
  (Action.orderly_call (BusCall.among_command h)).bind fun _ => Action.orderly_pure _

/-- The write of a register keeps to the repertoire of quad entry. -/
theorem orderly_writeRegister {code : UInt8} (h : code ∈ quadRepertoire) (width : BusWidth)
    (value : UInt8) :
    (QuadEntry.writeRegister code width value).Orderly (BusCall.Among quadRepertoire) widths
      true :=
  (Action.orderly_call (BusCall.among_command h)).discard

/-- An instruction keeps to the repertoire of quad entry. -/
theorem orderly_instruct {code : UInt8} (h : code ∈ quadRepertoire) :
    (QuadEntry.instruct code).Orderly (BusCall.Among quadRepertoire) widths true :=
  (Action.orderly_call (BusCall.among_instruct h _)).discard

/-- A Winbond entry keeps to the repertoire of quad entry. -/
theorem orderly_enterWinbond (device : Descriptor) :
    (QuadEntry.enterWinbond device).Orderly (BusCall.Among quadRepertoire) widths true := by
  unfold QuadEntry.enterWinbond
  split
  · exact Action.orderly_throw _
  · refine (orderly_readRegister (by decide) _).bind fun status => ?_
    have hswitch (value : UInt8) : Action.Orderly (BusCall.Among quadRepertoire) widths true (do
        QuadEntry.instruct WinbondOpcode.enterQuadProtocol.code
        QuadEntry.writeRegister WinbondOpcode.setReadParameters.code .quad value
        return BusWidth.quad) :=
      (orderly_instruct (by decide)).bind fun _ =>
        (orderly_writeRegister (by decide) _ value).bind fun _ => Action.orderly_pure _
    dsimp only
    split
    · exact hswitch _
    · exact (orderly_instruct (by decide)).bind fun _ =>
        (orderly_writeRegister (by decide) _ _).bind fun _ => hswitch _

/-- A Micron entry keeps to the repertoire of quad entry. -/
theorem orderly_enterMicron (device : Descriptor) :
    (QuadEntry.enterMicron device).Orderly (BusCall.Among quadRepertoire) widths true := by
  refine (orderly_readRegister (by decide) _).bind fun enhanced => ?_
  dsimp only
  split
  · exact Action.orderly_pure _
  · refine (orderly_readRegister (by decide) _).bind fun config => ?_
    split
    · exact Action.orderly_throw _
    · exact (orderly_instruct (by decide)).bind fun _ =>
        (orderly_writeRegister (by decide) _ _).bind fun _ =>
          (orderly_instruct (by decide)).bind fun _ =>
            (orderly_writeRegister (by decide) _ _).bind fun _ => Action.orderly_pure _

/-- A quad entry keeps to its repertoire, whichever width it ends in. -/
theorem orderly_enterQuad (hwidths : ∀ width, widths width) (identity : Identity) :
    (engine.enterQuad identity).Orderly (BusCall.Among quadRepertoire) widths false := by
  refine orderly_withBus (BusCall.among_abort _) (BusAction.Orderly.bind
    (BusAction.orderly_lift ?_) fun width => BusAction.orderly_setWidth (hwidths width))
  cases identity.manufacturer.quadEntry with
  | winbond => exact orderly_enterWinbond identity.device
  | micron => exact orderly_enterMicron identity.device

/-- The instruction bytes sent to bring a device up. -/
def bringUpRepertoire : List UInt8 :=
  Operation.repertoire .readId ++ wakeRepertoire ++ quadRepertoire

/-- Bringing a device up keeps to its repertoire. -/
theorem orderly_bringUp (hwidths : ∀ width, widths width) :
    engine.bringUp.Orderly (BusCall.Among bringUpRepertoire) widths false (fun _ => True)
      false := by
  have hidentify : engine.identify.Orderly (BusCall.Among bringUpRepertoire) widths false :=
    engine.orderly_identify.mono (fun request h => h.mono (by decide)) fun _ h => h
  have hrecover : engine.recover.Orderly (BusCall.Among bringUpRepertoire) widths false :=
    (engine.orderly_recover (hwidths _)).mono (fun request h => h.mono (by decide)) fun _ h => h
  have hacquire : engine.acquireDevice.Orderly (BusCall.Among bringUpRepertoire) widths false := by
    refine (hidentify.tryCatch fun _ => hrecover.bind fun _ => hidentify).bind fun identity => ?_
    refine Action.Orderly.bind ?_ fun _ => Action.orderly_pure identity
    exact (engine.orderly_enterQuad hwidths identity).mono
      (fun request h => h.mono (by decide)) fun _ h => h
  refine Program.Orderly.bind hacquire fun result _ => ?_
  cases result <;> exact ⟨rfl, trivial⟩

/-- The instruction bytes sent to shut a device down. -/
def shutDownRepertoire : List UInt8 :=
  Operation.repertoire (.sleep false) ++ Operation.repertoire .reset

/-- Shutting a device down keeps to its repertoire. -/
theorem orderly_shutDown (hsingle : widths .single) :
    engine.shutDown.Orderly (BusCall.Among shutDownRepertoire) widths false (fun _ => True)
      false := by
  have hwake : (engine.sleep false).Orderly (BusCall.Among shutDownRepertoire) widths false :=
    (engine.orderly_sleep false).mono (fun request h => h.mono (by decide)) fun _ h => h
  have hreset : engine.reset.Orderly (BusCall.Among shutDownRepertoire) widths false :=
    (engine.orderly_reset hsingle).mono (fun request h => h.mono (by decide)) fun _ h => h
  exact (Program.Orderly.discard hwake).bind fun _ _ => Program.Orderly.bind hreset fun _ _ =>
    ⟨rfl, trivial⟩

end Control

end Engine

/-! ## What the repertoires leave alone -/

/-- No erase changes the mode. -/
theorem EraseKind.keepsMode (kind : EraseKind) :
    Instruction.NoneAmong Instruction.changesMode kind.repertoire := by
  cases kind with
  | unit area => cases area <;> decide
  | chip => decide

/-- No erase puts a chip to sleep. -/
theorem EraseKind.keepsAwake (kind : EraseKind) :
    Instruction.NoneAmong (· == .sleep) kind.repertoire := by
  cases kind with
  | unit area => cases area <;> decide
  | chip => decide

/-- No erase wakes a chip. -/
theorem EraseKind.not_wakes (kind : EraseKind) :
    Opcode.releasePowerDown.code ∉ kind.repertoire := by
  cases kind with
  | unit area => cases area <;> decide
  | chip => decide

/-- Only a reset and going to sleep change the mode of an awake chip. -/
theorem Operation.keepsMode {operation : Operation} (hreset : operation ≠ .reset)
    (hsleep : operation ≠ .sleep true) :
    Instruction.NoneAmong Instruction.changesMode operation.repertoire := by
  cases operation with
  | reset => exact absurd rfl hreset
  | sleep enter =>
      cases enter with
      | true => exact absurd rfl hsleep
      | false => decide
  | erase address kind => exact kind.keepsMode
  | _ => simp only [repertoire]; decide

/-- Only an operation that is to wake the chip can do so. -/
theorem Operation.not_wakes {operation : Operation} (h : operation ≠ .sleep false) :
    Opcode.releasePowerDown.code ∉ operation.repertoire := by
  cases operation with
  | sleep enter =>
      cases enter with
      | true => decide
      | false => exact absurd rfl h
  | erase address kind => exact kind.not_wakes
  | _ => simp only [repertoire]; decide

/-- The operation programs or erases memory. -/
def Operation.altersMemory : Operation → Bool
  | write .. | writeReporting .. | writeMetered .. | writeSector .. | pageProgram .. | erase ..
  | eraseChip | eraseRange .. | eraseRangeReporting .. | eraseRangeMetered .. | eraseSector .. =>
      true
  | _ => false

/-- An operation that is not listed as altering memory sends nothing that could. -/
theorem Operation.keepsMemory {operation : Operation} (h : operation.altersMemory = false) :
    Instruction.NoneAmong Instruction.changesMemory operation.repertoire := by
  cases operation with
  | sleep enter => cases enter <;> decide
  | write | writeReporting | writeMetered | writeSector | pageProgram | erase | eraseChip
  | eraseRange | eraseRangeReporting | eraseRangeMetered | eraseSector =>
      simp [altersMemory] at h
  | _ => simp only [repertoire]; decide

/-- Only an operation that is to put the chip to sleep can do so. -/
theorem Operation.keepsAwake {operation : Operation} (h : operation ≠ .sleep true) :
    Instruction.NoneAmong (· == .sleep) operation.repertoire := by
  cases operation with
  | sleep enter =>
      cases enter with
      | true => exact absurd rfl h
      | false => decide
  | erase address kind => exact kind.keepsAwake
  | _ => simp only [repertoire]; decide

end NorFlash
