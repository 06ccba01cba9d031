import NorFlash.Proofs.Chip.Stored
import NorFlash.Proofs.Engine.Stranding

/-!
# When bringing up writes the stored status register

Entering quad mode means to set quad enable in the volatile copy of status register 2 only. A write
enable latch that was left set makes the same write reach the stored copy. `Imprints` tells that
from the latch at the start and the commands recorded, and `ends_bringUp_accounts` says that the
stored copy changes in no other case.
-/

namespace NorFlash

namespace Bench

/-- Bringing up wrote the stored status register: write enable was set at its start, the register
was written, and no reset on one line came before that. -/
def Imprints (bench after : Bench) : Prop :=
  bench.chip.latches.writeEnable = true ∧
    bench.Sent after WinbondOpcode.writeStatus2.code .single false ∧
    ¬bench.Sent after Opcode.reset.code .single false

instance (bench after : Bench) : Decidable (bench.Imprints after) :=
  inferInstanceAs (Decidable (_ ∧ _ ∧ ¬_))

/-- The record accounts for what became of the stored register, and write enable was not set. -/
structure Accounts (stored : Status2) (bench after : Bench) : Prop where
  imprinted : bench.Imprints after → after.chip.registers.storedStatus2 ≠ stored
  kept : ¬bench.Imprints after → after.chip.Mirrors stored
  unset : bench.chip.latches.writeEnable = false → after.chip.latches.writeEnable = false

end Bench

namespace Bench

/-- From `bench` to `after` no write of the status register was carried out, what is stored was
kept, and write enable was not set. -/
structure Quiet (bench after : Bench) : Prop where
  commands : ∃ sent, after.commands = bench.commands ++ sent ∧
    ∀ entry ∈ sent, entry.1.instruction = WinbondOpcode.writeStatus2.code → entry.2 = true
  mirrors : ∀ stored, bench.chip.Mirrors stored → after.chip.Mirrors stored
  unset : bench.chip.latches.writeEnable = false → after.chip.latches.writeEnable = false

variable {bench middle after : Bench} {command : Command} {refused : Bool} {stored : Status2}

/-- Where nothing happened, it was quiet. -/
theorem Quiet.refl (bench : Bench) : bench.Quiet bench :=
  ⟨⟨[], (List.append_nil _).symm, by simp⟩, fun _ h => h, fun h => h⟩

/-- After one quiet stretch another goes on being quiet. -/
theorem Quiet.trans (h : bench.Quiet middle) (hnext : middle.Quiet after) : bench.Quiet after := by
  obtain ⟨⟨first, hfirst, hquiet⟩, hmirrors, hunset⟩ := h
  obtain ⟨⟨second, hsecond, hstill⟩, hkeeps, hclear⟩ := hnext
  have hcommands : after.commands = bench.commands ++ (first ++ second) := by
    rw [hsecond, hfirst, List.append_assoc]
  refine ⟨⟨first ++ second, hcommands, fun entry hentry => ?_⟩,
    fun stored => hkeeps stored ∘ hmirrors stored, hclear ∘ hunset⟩
  exact (List.mem_append.mp hentry).elim (hquiet entry) (hstill entry)

/-- A command is quiet if it is refused, or neither writes the register nor sets write enable. -/
theorem Issued.quiet (h : bench.Issued command refused after)
    (hquiet : refused = true ∨
      Instruction.hasOnSome (· == .writeStatus2) command.instruction = false ∧
        Instruction.hasOnSome (· == .enableWrite) command.instruction = false) :
    bench.Quiet after := by
  have hcode {property : UInt8 → Prop} (hproperty : property command.instruction) :
      ∀ code ∈ (BusCall.command command).code?, property code := by
    intro code hcode
    obtain rfl : command.instruction = code := Option.some.inj hcode
    exact hproperty
  refine ⟨⟨[(command, refused)], h.commands, fun entry hentry hwrites => ?_⟩,
    fun stored hstored => ?_, fun hunset => ?_⟩
  · obtain rfl := List.mem_singleton.mp hentry
    refine hquiet.resolve_right fun hother => ?_
    rw [show command.instruction = WinbondOpcode.writeStatus2.code from hwrites] at hother
    exact absurd hother.1 (by decide)
  · rcases hquiet with rfl | ⟨hother, -⟩
    · exact hstored.of_mode h.idle.mode
    · rw [h.chip_eq_answer]
      exact hstored.answer (hcode hother)
  · rcases hquiet with rfl | ⟨-, hother⟩
    · exact h.idle.writeEnable.trans hunset
    · rw [h.chip_eq_answer]
      exact Chip.writeEnable_answer hunset (hcode hother)

/-- A command that was sent late was sent. -/
theorem Sent.of_append {code : UInt8} {width : BusWidth} {sent : List (Command × Bool)}
    (h : middle.Sent after code width refused)
    (hcommands : middle.commands = bench.commands ++ sent) :
    bench.Sent after code width refused := by
  obtain ⟨entry, hentry, hmatch⟩ := h
  rw [hcommands, List.length_append, ← List.drop_drop] at hentry
  exact ⟨entry, List.mem_of_mem_drop hentry, hmatch⟩

/-- While it was quiet, no write of the status register was carried out. -/
theorem Quiet.not_sent (h : bench.Quiet after) {width : BusWidth} :
    ¬bench.Sent after WinbondOpcode.writeStatus2.code width false := by
  obtain ⟨sent, hsent, hquiet⟩ := h.commands
  rw [sent_iff hsent]
  rintro ⟨entry, hentry, hcode, -, hrefused⟩
  simp [hquiet entry hentry hcode] at hrefused

end Bench

namespace Program.Orderly

variable {α : Type} {widths : BusWidth → Prop} {codes : List UInt8} {values : α → Prop}
  {program : Program α} {bench : Bench} {stored : Status2}

/-- What is stored stays if nothing sent writes the status register. -/
theorem mirrors (h : program.Orderly (BusCall.Among codes) widths false values false)
    (hfree : bench.Free widths) (hcodes : Instruction.NoneAmong (· == .writeStatus2) codes)
    (hmirrors : bench.chip.Mirrors stored) :
    program.Ends Bench.environment (fun _ after => after.chip.Mirrors stored) bench := by
  have hcall : ∀ request chip (trace : Array TraceEntry) (refused : Bool),
      BusCall.Among codes request → Chip.Mirrors stored chip →
        Chip.Mirrors stored (chip.answer request).2 :=
    fun request _ _ _ hrequest hchip =>
      hchip.answer fun code hcode => hcodes code (hrequest code hcode)
  exact (h.keeps hcall hfree hmirrors).mono fun _ _ hafter => hafter.2.1

/-- Write enable is not set if nothing sent is for that. -/
theorem unset (h : program.Orderly (BusCall.Among codes) widths false values false)
    (hfree : bench.Free widths) (hcodes : Instruction.NoneAmong (· == .enableWrite) codes) :
    program.Ends Bench.environment
      (fun _ after => bench.chip.latches.writeEnable = false →
        after.chip.latches.writeEnable = false) bench := by
  have hcall : ∀ request (chip : Chip) (trace : Array TraceEntry) (refused : Bool),
      BusCall.Among codes request →
      (bench.chip.latches.writeEnable = false → chip.latches.writeEnable = false) →
        bench.chip.latches.writeEnable = false →
          (chip.answer request).2.latches.writeEnable = false :=
    fun request _ _ _ hrequest hchip hunset =>
      Chip.writeEnable_answer (hchip hunset) fun code hcode => hcodes code (hrequest code hcode)
  exact (h.keeps hcall hfree fun hunset => hunset).mono fun _ _ hafter => hafter.2.1

end Program.Orderly

namespace Chip

/-- The wake sequence on one line resets a chip that listens there, which ends write enable. -/
theorem writeEnable_afterPass {chip : Chip} (hlisten : chip.listens .single = true) :
    (chip.afterPass .single false false false).latches.writeEnable = false := by
  obtain ⟨hfirst, -⟩ := sent_wake false hlisten (.inr rfl)
  have hwoken : Hears { chip with asleep := false } .single := ⟨rfl, hlisten⟩
  have hfirstHears := hwoken.of_mode hfirst
  unfold afterPass
  generalize chip.sent (.instruct Opcode.releasePowerDown.code .single) false = first at *
  obtain ⟨hsecond, hlatch⟩ := sent_enableReset false hfirstHears
  have hsecondHears := hfirstHears.of_mode hsecond
  generalize first.sent (.instruct Opcode.enableReset.code .single) false = second at *
  have hdecode := Instruction.decode?_of_shared
    (show Instruction.shared.lookup Opcode.reset.code = some .reset by decide) second.vendor
  rw [sent_of_hears hsecondHears hdecode]
  simp [heed, obey, hlatch, Chip.reset]

end Chip

namespace QuadEntry

open Chip

variable {bench middle after : Bench} {stored : Status2}

/-- The bench after the Winbond sequence: the register was not written, or it was, because quad
enable was clear, and it was up to the write enable latch what became of the stored copy. -/
inductive Marked (bench after : Bench) : Prop where
  | quiet (h : bench.Quiet after)
  | written (hsent : bench.Sent after WinbondOpcode.writeStatus2.code .single false)
      (hunset : after.chip.latches.writeEnable = false)
      (hset : bench.chip.latches.writeEnable = true →
        bench.chip.registers.status2.quadEnabled = false ∧
          after.chip.registers.storedStatus2.quadEnabled = true)
      (hclear : bench.chip.latches.writeEnable = false →
        ∀ stored, bench.chip.Mirrors stored → after.chip.Mirrors stored)

/-- What comes before in quiet does not change what is marked. -/
theorem Marked.of_quiet (h : Marked middle after) (hquiet : bench.Quiet middle)
    (hmode : middle.chip.mode = bench.chip.mode)
    (hlatch : middle.chip.latches.writeEnable = bench.chip.latches.writeEnable) :
    Marked bench after := by
  have hregisters : middle.chip.registers = bench.chip.registers := congrArg Mode.registers hmode
  cases h with
  | quiet h => exact .quiet (hquiet.trans h)
  | written hsent hunset hset hclear =>
      obtain ⟨sent, hcommands, -⟩ := hquiet.commands
      refine .written (hsent.of_append hcommands) hunset (fun h => ?_) fun h stored hstored => ?_
      · rw [← hregisters]
        exact hset (hlatch.trans h)
      · exact hclear (hlatch.trans h) stored (hquiet.mirrors stored hstored)

/-- A write of the register with quad enable set, where quad enable was clear. -/
theorem marked_of_issued {value : UInt8}
    (hclear : bench.chip.registers.status2.quadEnabled = false)
    (hvalue : Status2.quadEnabled ⟨value⟩ = true)
    (hissued : bench.Issued ((Command.instruct WinbondOpcode.writeStatus2.code .single).writing
      [value] .single) false middle)
    (hwritten : middle.chip = (bench.chip.heed .writeStatus2
      ((Command.instruct WinbondOpcode.writeStatus2.code .single).writing [value] .single)).2)
    (hquiet : middle.Quiet after) : Marked bench after := by
  have hregisters : middle.chip.registers = (bench.chip.writeStatus2 (some value)).registers := by
    rw [hwritten]
    rfl
  have hunset : middle.chip.latches.writeEnable = false := by
    rw [hwritten]
    rfl
  refine .written ?_ (hquiet.unset hunset) (fun hset => ⟨hclear, ?_⟩)
    fun hunset stored hstored => ?_
  · obtain ⟨rest, hrest, -⟩ := hquiet.commands
    rw [hissued.commands, List.append_assoc] at hrest
    exact (Bench.sent_iff hrest).mpr ⟨_, List.mem_cons_self, rfl, rfl, rfl⟩
  · have hstores : (bench.chip.writeStatus2 (some value)).Mirrors ⟨value⟩ :=
      Chip.writeStatus2_stores hset
    have hkept := hquiet.mirrors _ (hstores.of_registers hregisters)
    exact (congrArg Status2.quadEnabled hkept.stored_eq).trans hvalue
  · have hmirrors := Chip.writeStatus2_mirrors hstored hunset hvalue
    exact hquiet.mirrors stored (hmirrors.of_registers hregisters)

/-- Once quad enable is set, the rest of the sequence does not write the register. -/
theorem ends_enterProtocol_quiet (value : UInt8) (bench : Bench) :
    Action.Ends Bench.environment (do
        QuadEntry.instruct WinbondOpcode.enterQuadProtocol.code
        writeRegister WinbondOpcode.setReadParameters.code .quad value
        return BusWidth.quad)
      (fun _ after => bench.Quiet after) (fun _ after => bench.Quiet after) bench := by
  have hread : Instruction.hasOnSome (· == .readQuad)
      WinbondOpcode.setReadParameters.code = false := by
    decide
  have hother : Instruction.hasOnSome (· == .writeStatus2)
        WinbondOpcode.setReadParameters.code = false ∧
      Instruction.hasOnSome (· == .enableWrite) WinbondOpcode.setReadParameters.code = false := by
    decide
  unfold QuadEntry.instruct writeRegister
  rw [Action.ends_bind, Action.ends_discard]
  refine (Action.ends_issued (by decide)).mono (fun _ middle hmiddle => ?_)
    fun _ _ h => h.2.quiet (.inl rfl)
  have hquiet := hmiddle.quiet (.inr (by decide))
  rw [Action.ends_bind, Action.ends_discard]
  exact (Action.ends_issued hread).mono (fun _ _ h => hquiet.trans (h.quiet (.inr hother)))
    fun _ _ h => hquiet.trans (h.2.quiet (.inl rfl))

/-- Where quad enable is clear, the register is written after a volatile write was enabled. -/
theorem ends_enableQuad_marked {value : UInt8} (parameters : UInt8)
    (hawake : bench.chip.Awake .winbond false)
    (hclear : bench.chip.registers.status2.quadEnabled = false)
    (hvalue : Status2.quadEnabled ⟨value⟩ = true) :
    Action.Ends Bench.environment (do
        QuadEntry.instruct Opcode.writeEnableVolatile.code
        writeRegister WinbondOpcode.writeStatus2.code .single value
        QuadEntry.instruct WinbondOpcode.enterQuadProtocol.code
        writeRegister WinbondOpcode.setReadParameters.code .quad parameters
        return BusWidth.quad)
      (fun _ after => Marked bench after) (fun _ after => Marked bench after) bench := by
  have henable : Instruction.decode? bench.chip.vendor Opcode.writeEnableVolatile.code =
      some .enableVolatileWrite := by
    rw [hawake.vendor_eq]
    decide
  unfold QuadEntry.instruct writeRegister
  rw [Action.ends_bind, Action.ends_discard]
  refine Action.ends_heard hawake.hears_single henable rfl (fun middle hmiddle hchip => ?_)
    fun _ h => .quiet (h.quiet (.inl rfl))
  have hmode : middle.chip.mode = bench.chip.mode := hchip ▸ mode_heed rfl
  have hregisters : middle.chip.registers = bench.chip.registers := congrArg Mode.registers hmode
  have hlatch : middle.chip.latches.writeEnable = bench.chip.latches.writeEnable := hchip ▸ rfl
  have hquiet := hmiddle.quiet (.inr (by decide))
  have hwrite : Instruction.decode? middle.chip.vendor WinbondOpcode.writeStatus2.code =
      some .writeStatus2 := by
    rw [(hawake.of_mode hmode).vendor_eq]
    decide
  rw [← hregisters] at hclear
  rw [Action.ends_bind, Action.ends_discard]
  refine Action.ends_heard (hawake.of_mode hmode).hears_single hwrite rfl
    (fun written hissued hchip => ?_)
    fun _ h => .quiet (hquiet.trans (h.quiet (.inl rfl)))
  have hmarked (after : Bench) (h : written.Quiet after) : Marked bench after :=
    (marked_of_issued hclear hvalue hissued hchip h).of_quiet hquiet hmode hlatch
  exact (ends_enterProtocol_quiet _ written).mono (fun _ => hmarked) fun _ => hmarked

/-- Bringing a Winbond chip into quad mode leaves its mark, however far it comes. -/
theorem ends_enterWinbond_marked (device : Descriptor) (hawake : bench.chip.Awake .winbond false) :
    (enterWinbond device).Ends Bench.environment (fun _ after => Marked bench after)
      (fun _ after => Marked bench after) bench := by
  have hread : Instruction.decode? bench.chip.vendor WinbondOpcode.readStatus2.code =
      some .readStatus2 := by
    rw [hawake.vendor_eq]
    decide
  unfold enterWinbond
  split
  · exact .quiet (.refl bench)
  · unfold readRegister
    rw [Action.ends_bind, Action.ends_bind]
    refine Action.ends_heard hawake.hears_single hread rfl
      (fun first hfirst hchip => ?_) fun _ h => .quiet (h.quiet (.inl rfl))
    have hmode : first.chip.mode = bench.chip.mode := hchip ▸ mode_heed rfl
    have hregisters : first.chip.registers = bench.chip.registers := congrArg Mode.registers hmode
    have hlatch : first.chip.latches.writeEnable = bench.chip.latches.writeEnable := hchip ▸ rfl
    have hquiet := hfirst.quiet (.inr (by decide))
    rw [Action.ends_pure]
    dsimp only
    split
    · exact (ends_enterProtocol_quiet _ first).mono (fun _ _ h => .quiet (hquiet.trans h))
        fun _ _ h => .quiet (hquiet.trans h)
    · rename_i hfound
      have hclear : bench.chip.registers.status2.quadEnabled = false :=
        Bool.eq_false_iff.mpr hfound
      have hvalue := Status2.quadEnabled_withQuadEnable bench.chip.registers.status2 true
      rw [← hregisters] at hclear
      exact (ends_enableQuad_marked _ (hawake.of_mode hmode) hclear hvalue).mono
        (fun _ _ h => h.of_quiet hquiet hmode hlatch) fun _ _ h => h.of_quiet hquiet hmode hlatch

/-- Giving the bus back leaves the mark. -/
theorem Marked.release (h : Marked bench after) (bus : BusState) :
    Marked bench { after with bus := some bus } := by
  cases h with
  | quiet h => exact .quiet ⟨h.commands, h.mirrors, h.unset⟩
  | written hsent hunset hset hclear => exact .written hsent hunset hset hclear

end QuadEntry

namespace Engine

open Bench QuadEntry

variable {bench middle after : Bench} {engine : Engine} {bus : BusState} {id : JedecId}
  {stored : Status2}

/-- A recovery that comes to its end has sent the reset on one line, and a chip that listens there
has no write enabled then. -/
theorem ends_recover_latch (hstrict : bench.chip.strict = true) (hbus : bench.bus = some bus) :
    engine.recover.Ends Bench.environment
      (fun _ after => bench.Sent after Opcode.reset.code .single false ∧
        (after.chip.Hears .single → after.chip.latches.writeEnable = false))
      (fun _ _ => True) bench := by
  refine ends_withBus hbus fun start htaken => ?_
  have hstart := htaken.chip.strict.trans hstrict
  rw [BusAction.ends_bind]
  refine ends_fourLinePass fun wake enable reset middle hpassed => ?_
  have hmiddle := hpassed.build.strict.trans hstart
  have hmem : ∀ opcode ∈ wakeSequence, opcode.code ∈ wakeRepertoire := by
    decide
  rw [BusAction.ends_bind]
  refine (ends_oneLine hmem hmiddle).mono ?_ fun _ _ _ _ => trivial
  rintro _ _ after ⟨rfl, hbuild, hafter, hkept, hsent⟩
  constructor
  · have hcommands : after.commands =
        bench.commands ++ (fourLinePass wake enable reset ++ oneLine wakeSequence) := by
      rw [hsent, hpassed.commands, htaken.commands, List.append_assoc]
    exact (sent_iff hcommands).mpr ⟨(.instruct Opcode.reset.code .single, false),
      List.mem_append_right _ (by decide), rfl, rfl, rfl⟩
  · intro hhears
    have hquad : after.chip.quad = false :=
      ((Chip.hears_single (hbuild.strict.trans hmiddle)).mp hhears).2
    have hlisten : middle.chip.listens .single = true := by
      simp [Chip.listens, Chip.width, ← hkept, hquad]
    show after.chip.latches.writeEnable = false
    rw [hafter, foldl_wakeSequence]
    exact Chip.writeEnable_afterPass hlisten

/-- A device that answers at first is found without a command, and otherwise write enable has been
ended by a reset on one line. -/
theorem ends_find_latch (hsound : Chip.Sound id bench.chip) (hbus : bench.bus = some bus) :
    engine.find.Ends Bench.environment
      (fun _ after => after.commands = bench.commands ∧
          after.chip.latches.writeEnable = bench.chip.latches.writeEnable ∨
        bench.Sent after Opcode.reset.code .single false ∧
          after.chip.latches.writeEnable = false)
      (fun _ _ => True) bench := by
  unfold find
  rw [Action.ends_tryCatch]
  refine (ends_identify hsound hbus).mono ?_ ?_
  · rintro identity after ⟨hasked, -, -⟩
    exact .inl ⟨hasked.commands, hasked.chip.writeEnable⟩
  · rintro _ first ⟨hfirst, -⟩
    have hfirstSound := hfirst.chip.sound hsound
    have horderly : engine.recover.Orderly (BusCall.Among wakeRepertoire) (fun _ => True) false :=
      engine.orderly_recover trivial
    have hkept := (ends_recoverKeeping hfirstSound hfirst.bus).and
      (Program.Orderly.free horderly ⟨_, hfirst.bus, trivial⟩)
    rw [Action.ends_bind]
    refine ((ends_recover_latch hfirstSound.strict hfirst.bus).and_run hkept).mono ?_
      fun _ _ _ => trivial
    rintro _ second ⟨⟨hreset, hlatch⟩, ⟨hsecond, -⟩, last, hlast, -⟩
    refine (ends_identify hsecond hlast).mono ?_ fun _ _ _ => trivial
    rintro identity after ⟨hasked, hheard, -⟩
    refine .inr ⟨?_, hasked.chip.writeEnable.trans (hlatch hheard)⟩
    simpa only [Sent, hasked.commands, hfirst.commands] using hreset

/-- Bringing a Winbond chip into quad mode with the bus taken leaves its mark, however far it
comes. -/
theorem ends_enterQuad_marked {identity : Identity} (hsound : Chip.Sound id bench.chip)
    (hvendor : Vendor.ofManufacturer id.manufacturer = .winbond)
    (hknows : Catalog.Knows id identity) (hhears : bench.chip.Hears .single)
    (hbus : bench.bus = some bus) :
    (engine.enterQuad identity).Ends Bench.environment (fun _ after => Marked bench after)
      (fun _ after => Marked bench after) bench := by
  refine ends_withBus hbus fun start htaken => ?_
  obtain ⟨hasleep, hquad⟩ := (Chip.hears_single hsound.strict).mp hhears
  have hquiet : bench.Quiet start :=
    ⟨⟨[], htaken.commands.trans (List.append_nil _).symm, by simp⟩,
      fun _ hstored => hstored.of_mode htaken.chip.mode, htaken.chip.writeEnable.trans⟩
  have hawake : start.chip.Awake .winbond false :=
    Chip.Awake.of_mode ⟨hsound.vendor_eq.trans hvendor, hsound.strict, hasleep, hquad⟩
      htaken.chip.mode
  have hmarked (after : Bench) (last : BusState) (h : Marked start after) :
      Marked bench { after with bus := some last } :=
    (h.of_quiet hquiet htaken.chip.mode htaken.chip.writeEnable).release last
  have hentry : identity.manufacturer.quadEntry = .winbond := by
    have hsame := hvendor.symm.trans hknows.vendor_eq
    cases h : identity.manufacturer.quadEntry with
    | winbond => rfl
    | micron =>
        rw [h] at hsame
        cases hsame
  rw [BusAction.ends_bind, BusAction.ends_lift, hentry]
  exact (ends_enterWinbond_marked identity.device hawake).mono
    (fun width after h => hmarked after ⟨width, false⟩ h) fun _ after h => hmarked after _ h

/-- The instruction bytes sent to find a device. -/
def findRepertoire : List UInt8 :=
  Operation.repertoire .readId ++ wakeRepertoire

/-- Finding a device sends nothing but what identifies, wakes and resets it. -/
theorem orderly_find (engine : Engine) :
    engine.find.Orderly (BusCall.Among findRepertoire) (fun _ => True) false := by
  have hidentify : engine.identify.Orderly (BusCall.Among findRepertoire) (fun _ => True) false :=
    engine.orderly_identify.mono (fun request h => h.mono (by decide)) fun _ h => h
  have hrecover : engine.recover.Orderly (BusCall.Among findRepertoire) (fun _ => True) false :=
    (engine.orderly_recover trivial).mono (fun request h => h.mono (by decide)) fun _ h => h
  exact hidentify.tryCatch fun _ => hrecover.bind fun _ => hidentify

/-- What entering quad mode came to, after a device was found. -/
theorem accounts_of_marked (hfound : bench.Adds findRepertoire middle)
    (hmirrors : middle.chip.Mirrors stored)
    (hlatch : middle.commands = bench.commands ∧
        middle.chip.latches.writeEnable = bench.chip.latches.writeEnable ∨
      bench.Sent middle Opcode.reset.code .single false ∧
        middle.chip.latches.writeEnable = false)
    (hentered : middle.Adds quadRepertoire after) (h : Marked middle after) :
    bench.Accounts stored after := by
  have hwrites : bench.Sent after WinbondOpcode.writeStatus2.code .single false ↔
      middle.Sent after WinbondOpcode.writeStatus2.code .single false := by
    rw [hfound.sent_iff_or hentered]
    simp [hfound.not_sent (by decide : WinbondOpcode.writeStatus2.code ∉ findRepertoire)]
  have hresets : bench.Sent after Opcode.reset.code .single false ↔
      bench.Sent middle Opcode.reset.code .single false := by
    rw [hfound.sent_iff_or hentered]
    simp [hentered.not_sent (by decide : Opcode.reset.code ∉ quadRepertoire)]
  have himprints : bench.Imprints after ↔ bench.chip.latches.writeEnable = true ∧
      middle.Sent after WinbondOpcode.writeStatus2.code .single false ∧
        ¬bench.Sent middle Opcode.reset.code .single false := by
    rw [Imprints, hwrites, hresets]
  have hmiddle : bench.chip.latches.writeEnable = false →
      middle.chip.latches.writeEnable = false := by
    intro hunset
    rcases hlatch with ⟨-, hlatch⟩ | ⟨-, hlatch⟩
    · exact hlatch.trans hunset
    · exact hlatch
  cases h with
  | quiet h =>
      exact ⟨fun hdone => absurd (himprints.mp hdone).2.1 h.not_sent,
        fun _ => h.mirrors _ hmirrors, h.unset ∘ hmiddle⟩
  | written hsent hunset hset hclear =>
      refine ⟨fun hdone hstored => ?_, fun hnot => ?_, fun _ => hunset⟩
      · obtain ⟨hlatched, -, hunreset⟩ := himprints.mp hdone
        have hkept := (hlatch.resolve_right fun hreset => hunreset hreset.1).2
        obtain ⟨hfoundClear, hstoredSet⟩ := hset (hkept.trans hlatched)
        rw [hmirrors.enabled (hstored ▸ hstoredSet)] at hfoundClear
        cases hfoundClear
      · refine hclear (Bool.eq_false_iff.mpr fun hlatched => hnot (himprints.mpr ?_)) _ hmirrors
        -- A latch that is still set was so at the start, and then nothing was sent before.
        obtain ⟨hcommands, hkept⟩ := hlatch.resolve_right fun hreset => by
          simp [hreset.2] at hlatched
        exact ⟨hkept.symm.trans hlatched, hsent, by simp [Sent, hcommands]⟩

/-- Bringing up a Winbond chip changes what is stored exactly if the record says so. -/
theorem ends_bringUp_accounts (hsound : Chip.Sound id bench.chip)
    (hvendor : Vendor.ofManufacturer id.manufacturer = .winbond) (hbus : bench.bus = some bus)
    (hmirrors : bench.chip.Mirrors stored) :
    engine.bringUp.Ends Bench.environment (fun _ after => bench.Accounts stored after) bench := by
  have hfree : bench.Free fun _ => True := ⟨bus, hbus, trivial⟩
  have hfind := (Program.Orderly.sends engine.orderly_find hfree).and
    ((Program.Orderly.mirrors engine.orderly_find hfree (by decide) hmirrors).and
      (Program.Orderly.unset engine.orderly_find hfree (by decide)))
  have hacquire : engine.acquireDevice.Ends Bench.environment
      (fun _ after => bench.Accounts stored after) (fun _ after => bench.Accounts stored after)
      bench := by
    rw [acquireDevice_eq, Action.ends_bind]
    refine ((ends_find hsound hbus).and_run
      (Program.Ends.and (ends_find_latch hsound hbus) hfind)).mono ?_ ?_
    · rintro identity middle ⟨⟨hsearched, hheard, hknows⟩, hlatch, hadds, hkept, -⟩
      obtain ⟨last, hlast⟩ := hsearched.course.bus_eq
      have horderly : (engine.enterQuad identity).Orderly (BusCall.Among quadRepertoire)
          (fun _ => True) false := engine.orderly_enterQuad (fun _ => trivial) identity
      have hsends := Program.Orderly.sends horderly ⟨last, hlast, trivial⟩
      rw [Action.ends_bind]
      exact ((ends_enterQuad_marked hsearched.sound hvendor hknows hheard hlast).and_run
        hsends).mono (fun _ _ h => accounts_of_marked hadds hkept hlatch h.2 h.1)
          fun _ _ h => accounts_of_marked hadds hkept hlatch h.2 h.1
    · rintro _ after ⟨-, -, hadds, hkept, hunset⟩
      exact ⟨fun himprints => absurd himprints.2.1 (hadds.not_sent (by decide)), fun _ => hkept,
        hunset⟩
  refine (Program.ends_bind ..).mpr (Program.Ends.mono hacquire ?_)
  rintro (fault | identity) after h
  · exact h
  · exact h

end Engine

end NorFlash
