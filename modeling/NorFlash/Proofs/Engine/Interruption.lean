import NorFlash.Proofs.Bench.Reports
import NorFlash.Proofs.Bench.Shadow
import NorFlash.Proofs.Engine.Turns
import NorFlash.Proofs.Engine.Unheard

/-!
# Programs and erases that are interrupted

A page program and an erase of a unit each make one change of the memory, by several calls of which
any can fail, and of which some wait for completions that may be lost. However failures come and go,
the change is made as a whole or not at all: `ends_pageProgram_upsetting` and
`ends_erase_upsetting`. If the operation succeeds, then the chip heard it and made the change, since
a chip that does not hear the engine never looks idle to the poll at the end.

`Poised`, `Permitted`, `Underway` and `Made` are what holds before the write enable, before the
command, before the poll and after it.
-/

namespace NorFlash

namespace Chip

variable {chip : Chip} {request : BusCall} {command : Command} {instruction : Instruction}

/-- A command that the chip hears and knows is refused, or it takes its effect. -/
theorem answer_of_hears (hsent : request.command? = some command)
    (hhears : chip.Hears command.width)
    (hdecode : Instruction.decode? chip.vendor command.instruction = some instruction) :
    (chip.answer request).2 = chip.drawn ∧ (chip.answer request).1.reply.isOk = false ∨
      (chip.answer request).2 = (chip.heed instruction command).2 := by
  have hexecute : (chip.execute command).2 = chip.drawn ∧ (chip.execute command).1.isOk = false ∨
      (chip.execute command).2 = (chip.heed instruction command).2 := by
    rw [execute_eq, accept_of_decode hhears hdecode]
    split
    · exact .inl ⟨rfl, rfl⟩
    · exact .inr rfl
  cases request with
  | command | start =>
      obtain rfl := Option.some.inj hsent
      exact hexecute
  | _ => cases hsent

end Chip

/-- The command on this width changes the memory of every chip that hears it under write enable, and
nothing of its mode. -/
structure Command.Changes (command : Command) (width : BusWidth) (change : Memory → Memory) :
    Prop where
  width_eq : command.width = width
  not_wakes : command.instruction ≠ Opcode.releasePowerDown.code
  heeded : ∃ instruction : Instruction, instruction.changesMode = false ∧
    (∀ vendor, Instruction.decode? vendor command.instruction = some instruction) ∧
    ∀ chip : Chip, chip.latches.writeEnable = true →
      (chip.heed instruction command).2.memory = change chip.memory

namespace Engine

/-- A page program makes its change on every chip that hears it. -/
theorem changes_programCommand (width : BusWidth) (address : UInt32) (bytes : Bytes) :
    (programCommand width address bytes).Changes width
      fun memory => (memory.program address.toNat bytes).memory where
  width_eq := rfl
  not_wakes := show Opcode.pageProgram.code ≠ Opcode.releasePowerDown.code by decide
  heeded := by
    have hlookup : Instruction.shared.lookup Opcode.pageProgram.code = some .program := by decide
    exact ⟨.program, rfl, Instruction.decode?_of_shared hlookup,
      fun chip hlatch => Chip.memory_heed_program hlatch rfl rfl⟩

/-- An erase makes its change on every chip that hears it. -/
theorem changes_eraseCommand (kind : EraseKind) (width : BusWidth) (address : UInt32) :
    (kind.command address width).Changes width (kind.clear address.toNat) where
  width_eq := kind.width_command address width
  not_wakes := by
    rw [kind.instruction_command]
    exact fun hcode => kind.not_wakes (hcode ▸ List.mem_cons_of_mem _ List.mem_cons_self)
  heeded := by
    refine ⟨kind.instruction, by cases kind <;> rfl, fun vendor => ?_, fun chip hlatch =>
      Chip.memory_heed_erase hlatch⟩
    rw [kind.instruction_command]
    exact Instruction.decode?_of_shared kind.lookup_opcode vendor

end Engine

namespace Bench

/-! ## What a change of the memory goes through -/

/-- The chip is in the mode it was in, it stores this, and nothing was reported. -/
structure Held (start : Bench) (memory : Memory) (bench : Bench) : Prop where
  mode : bench.chip.mode = start.chip.mode
  memory : bench.chip.memory = memory
  reports : bench.reports = start.reports

variable {start bench after : Bench} {width : BusWidth} {memory : Memory} {request : BusCall}
  {change : Memory → Memory}

/-- The chip made the change, and the engine still gets through to it. -/
structure Changed (start : Bench) (change : Memory → Memory) (bench : Bench) : Prop extends
    Held start (change start.chip.memory) bench where
  reaches : bench.Reaches

namespace Held

/-- A bench holds what it stores. -/
theorem refl (bench : Bench) : bench.Held bench.chip.memory bench :=
  ⟨rfl, rfl, rfl⟩

/-- Setting failures up anew does not change what is held. -/
theorem upset (h : start.Held memory bench) (setting : Chip → FailurePlan × CompletionMode) :
    start.Held memory (bench.upset setting) :=
  ⟨h.mode, h.memory, h.reports⟩

/-- Handing the bus around does not change what is held. -/
theorem given (h : start.Held memory bench) (setting : Chip → FailurePlan × CompletionMode)
    (bus : Option BusState) : start.Held memory { bench.upset setting with bus } :=
  ⟨h.mode, h.memory, h.reports⟩

/-- Waiting does not change what is held. -/
theorem await (h : start.Held memory bench) (patience : Nat) :
    start.Held memory (bench.await patience).2 := by
  have hchip := chip_await bench patience
  exact ⟨hchip ▸ h.mode, hchip ▸ h.memory, (reports_await bench patience).trans h.reports⟩

/-- A call that leaves the mode alone holds what it stores. -/
theorem call {stored : Memory} (h : start.Held memory bench)
    (hmode : (bench.chip.answer request).2.mode = bench.chip.mode)
    (hmemory : (bench.chip.answer request).2.memory = stored) :
    start.Held stored (bench.call request).2 := by
  have hchip := chip_call bench request
  exact ⟨hchip ▸ hmode.trans h.mode, hchip ▸ hmemory, (reports_call bench request).trans h.reports⟩

/-- A call that leaves the chip alone does not change what is held. -/
theorem idle (h : start.Held memory bench)
    (hidle : Chip.Idle bench.chip (bench.chip.answer request).2) :
    start.Held memory (bench.call request).2 :=
  h.call hidle.mode (hidle.memory.trans h.memory)

/-- A bench that holds what it did hears as it did. -/
theorem hears_iff (h : start.Held memory bench) :
    bench.chip.Hears width ↔ start.chip.Hears width :=
  ⟨fun hhears => hhears.of_mode h.mode.symm, fun hhears => hhears.of_mode h.mode⟩

/-- A command that does not wake a chip changes nothing if it is not heard. -/
theorem unheard {command : Command} (h : start.Held memory bench)
    (hunheard : ¬start.chip.Hears width) (hsent : request.command? = some command)
    (hwidth : command.width = width)
    (hwakes : command.instruction ≠ Opcode.releasePowerDown.code) :
    start.Held memory (bench.call request).2 := by
  refine h.idle (Chip.idle_answer_of_not_hears (fun hheard => hunheard (h.hears_iff.mp hheard))
    fun sent hcommand => ?_)
  obtain rfl : command = sent := Option.some.inj (hsent.symm.trans hcommand)
  exact ⟨hwidth, hwakes⟩

end Held

/-- The change was made, or it was not. -/
def Undecided (start : Bench) (change : Memory → Memory) (bench : Bench) : Prop :=
  start.Held start.chip.memory bench ∨ start.Held (change start.chip.memory) bench

/-- To abort leaves it undecided whether the change was made. -/
theorem Undecided.abort (h : start.Undecided change bench)
    (setting : Chip → FailurePlan × CompletionMode) :
    start.Undecided change ((bench.upset setting).call .abort).2 :=
  h.imp (fun hheld => (hheld.upset setting).idle (idle_abort _))
    fun hheld => (hheld.upset setting).idle (idle_abort _)

/-- To wait leaves it undecided whether the change was made. -/
theorem Undecided.await (h : start.Undecided change bench)
    (setting : Chip → FailurePlan × CompletionMode) (patience : Nat) :
    start.Undecided change ((bench.upset setting).await patience).2 :=
  h.imp (fun hheld => (hheld.upset setting).await patience)
    fun hheld => (hheld.upset setting).await patience

/-- Where the memory stands after a command that changes it: a chip that hears the width made the
change if the call succeeds, and one that does not made none. -/
theorem Held.changed {command : Command} (h : start.Held start.chip.memory bench)
    (hlatch : start.chip.Hears width → bench.chip.latches.writeEnable = true)
    (hchanges : command.Changes width change) (hsent : request.command? = some command) :
    start.Undecided change (bench.call request).2 ∧
      (start.chip.Hears width → (bench.call request).1.isOk = true →
        start.Held (change start.chip.memory) (bench.call request).2) ∧
      (¬start.chip.Hears width → start.Held start.chip.memory (bench.call request).2) := by
  obtain ⟨hwidth, hwakes, instruction, hmode, hdecode, heffect⟩ := hchanges
  by_cases hhears : start.chip.Hears width
  · have hheard : bench.chip.Hears command.width := hwidth.symm ▸ h.hears_iff.mpr hhears
    rcases Chip.answer_of_hears hsent hheard (hdecode _) with ⟨hdrawn, hrefused⟩ | hheeded
    · have hkept : start.Held start.chip.memory (bench.call request).2 :=
        h.call (hdrawn ▸ rfl) (hdrawn ▸ h.memory)
      have hreply : (bench.call request).1.isOk = false := hrefused
      exact ⟨.inl hkept, fun _ hok => absurd (hreply.symm.trans hok) (by simp),
        absurd hhears⟩
    · have hmade : start.Held (change start.chip.memory) (bench.call request).2 := by
        refine h.call (hheeded ▸ Chip.mode_heed hmode) ?_
        rw [hheeded, heffect _ (hlatch hhears), h.memory]
      exact ⟨.inr hmade, fun _ _ => hmade, absurd hhears⟩
  · have hkept := h.unheard hhears hsent hwidth hwakes
    exact ⟨.inl hkept, fun hheard => absurd hheard hhears, fun _ => hkept⟩

/-- Nothing was changed yet. If the chip does not hear the width, then completions are reported by
the chip alone. -/
structure Poised (start : Bench) (width : BusWidth) (bench : Bench) : Prop extends
    Held start start.chip.memory bench where
  truthful : ¬start.chip.Hears width → bench.Truthful

/-- As `Poised`, and a chip that hears the width has its write enable set. -/
structure Permitted (start : Bench) (width : BusWidth) (bench : Bench) : Prop extends
    Poised start width bench where
  latch : start.chip.Hears width → bench.chip.latches.writeEnable = true

/-- A chip that hears the width made the change. If it does not, then nothing was changed, and
nothing but the chip reports the next operation complete. -/
structure Underway (start : Bench) (width : BusWidth) (change : Memory → Memory) (bench : Bench) :
    Prop where
  heard : start.chip.Hears width → start.Held (change start.chip.memory) bench
  unheard : ¬start.chip.Hears width →
    start.Held start.chip.memory bench ∧ bench.Unreported bench.event.arm.token

/-- Failures set up anew leave a bench poised. -/
theorem Poised.upset (h : start.Poised width bench)
    (setting : Chip → FailurePlan × CompletionMode) : start.Poised width (bench.upset setting) :=
  ⟨⟨h.mode, h.memory, h.reports⟩, fun hunheard => (h.truthful hunheard).congr rfl rfl rfl⟩

/-- Failures set up anew do not take a permission back. -/
theorem Permitted.upset (h : start.Permitted width bench)
    (setting : Chip → FailurePlan × CompletionMode) :
    start.Permitted width (bench.upset setting) :=
  ⟨h.toPoised.upset setting, h.latch⟩

/-- A chip that hears the width has its write enable set, if the call succeeds. -/
theorem Poised.enable (h : start.Poised width bench)
    (hrequest : request = .command (.instruct Opcode.writeEnable.code width)) :
    start.Held start.chip.memory (bench.call request).2 ∧
      ((bench.call request).1.isOk = true → start.Permitted width (bench.call request).2) := by
  have hsent : request.command? = some (.instruct Opcode.writeEnable.code width) := hrequest ▸ rfl
  by_cases hhears : start.chip.Hears width
  · have hlookup : Instruction.shared.lookup Opcode.writeEnable.code = some .enableWrite := by
      decide
    rcases Chip.answer_of_hears hsent (h.hears_iff.mpr hhears)
        (Instruction.decode?_of_shared hlookup _) with ⟨hdrawn, hrefused⟩ | hheeded
    · have hreply : (bench.call request).1.isOk = false := hrefused
      exact ⟨h.toHeld.call (hdrawn ▸ rfl) (hdrawn ▸ h.memory),
        fun hok => absurd (hreply.symm.trans hok) (by simp)⟩
    · have hheld : start.Held start.chip.memory (bench.call request).2 :=
        h.toHeld.call (hheeded ▸ Chip.mode_heed rfl) (hheeded ▸ h.memory)
      have hlatch : (bench.call request).2.chip.latches.writeEnable = true := by
        rw [chip_call, hheeded]
        rfl
      exact ⟨hheld, fun _ => ⟨⟨hheld, absurd hhears⟩, fun _ => hlatch⟩⟩
  · have hheld := h.toHeld.unheard hhears hsent rfl
      (show Opcode.writeEnable.code ≠ Opcode.releasePowerDown.code by decide)
    exact ⟨hheld, fun _ => ⟨⟨hheld, fun _ => (h.truthful hhears).call (hrequest ▸ rfl)⟩,
      fun hheard => absurd hheard hhears⟩⟩

/-- The change was made by a chip that hears the width. -/
structure Made (start : Bench) (width : BusWidth) (change : Memory → Memory) (bench : Bench) :
    Prop where
  hears : start.chip.Hears width
  held : start.Held (change start.chip.memory) bench

section Command

variable {command : Command} (hchanges : command.Changes width change)

include hchanges

/-- The command of a change, if it is carried out at once. -/
theorem Permitted.carry (h : start.Permitted width bench)
    (hrequest : request = .command command) :
    start.Undecided change (bench.call request).2 ∧
      ((bench.call request).1.isOk = true →
        start.Underway width change (bench.call request).2) := by
  obtain ⟨hundecided, hheard, hunheard⟩ :=
    h.toHeld.changed h.latch hchanges (show request.command? = some command from hrequest ▸ rfl)
  refine ⟨hundecided, fun hok => ⟨fun hhears => hheard hhears hok, fun hhears => ?_⟩⟩
  exact ⟨hunheard hhears, ((h.truthful hhears).call (hrequest ▸ rfl)).next⟩

/-- The command of a change, if it is started and waited for. -/
theorem Permitted.begin (h : start.Permitted width bench)
    (setting later : Chip → FailurePlan × CompletionMode) (patience : Nat) :
    let called := (bench.arm.upset setting).call (.start command)
    start.Undecided change called.2 ∧
      (called.1.isOk = true →
        start.Underway width change ((called.2.upset later).await patience).2) := by
  intro called
  have hissued : start.Held start.chip.memory (bench.arm.upset setting) :=
    ⟨h.mode, h.memory, h.reports⟩
  obtain ⟨hundecided, hheard, hunheard⟩ := hissued.changed h.latch hchanges
    (show (BusCall.start command).command? = some command from rfl)
  refine ⟨hundecided, fun hok => ⟨fun hhears => ?_, fun hhears => ⟨?_, ?_⟩⟩⟩
  · exact ((hheard hhears hok).upset later).await patience
  · exact ((hunheard hhears).upset later).await patience
  · -- The chip may report this operation complete, but not the next one.
    have hlater := (h.truthful hhears).later
    have hnext : (bench.arm.upset setting).Unreported (bench.arm.upset setting).event.arm.token :=
      ⟨hlater.echo, hlater.deliveries⟩
    have hcalled : called.2.Unreported (bench.arm.upset setting).event.arm.token :=
      hnext.call (token_arm_ne _).symm (.start command)
    have hupset : (called.2.upset later).Unreported (bench.arm.upset setting).event.arm.token :=
      ⟨hcalled.echo, hcalled.deliveries⟩
    exact (hupset.await patience).of_token ((token_await _ patience).trans (token_call _ _))

end Command

/-- The poll that follows a change finds a chip that does not hear it busy. -/
theorem Underway.poll (h : start.Underway width change bench)
    (setting later : Chip → FailurePlan × CompletionMode) (patience : Nat) :
    let called := (bench.arm.upset setting).call (.poll (Engine.idlePoll width))
    start.Undecided change called.2 ∧
      (((called.2.upset later).await patience).1 = true →
        start.Made width change ((called.2.upset later).await patience).2) := by
  intro called
  have hidle : Chip.Idle (bench.arm.upset setting).chip
      ((bench.arm.upset setting).chip.answer (.poll (Engine.idlePoll width))).2 :=
    Chip.idle_answer (by simp [BusCall.code?, BusCall.command?])
  by_cases hhears : start.chip.Hears width
  · have hheld := h.heard hhears
    have hcalled : start.Held (change start.chip.memory) called.2 :=
      Held.idle ⟨hheld.mode, hheld.memory, hheld.reports⟩ hidle
    exact ⟨.inr hcalled, fun _ => ⟨hhears, (hcalled.upset later).await patience⟩⟩
  · obtain ⟨hheld, hnext⟩ := h.unheard hhears
    have hissued : start.Held start.chip.memory (bench.arm.upset setting) :=
      ⟨hheld.mode, hheld.memory, hheld.reports⟩
    have hcompletes := Chip.not_completes_of_not_hears
      fun hheard => hhears (hissued.hears_iff.mp hheard)
    have hquiet : (bench.arm.upset setting).echo = .quiet := hnext.echo
    obtain ⟨hevent, hdeliveries, hecho⟩ := call_of_not_completes hquiet hcompletes
    have hsilent : (called.2.upset later).Unreported (called.2.upset later).event.token := by
      refine ⟨hecho.trans hquiet, ?_⟩
      show ∀ delivery ∈ called.2.deliveries, delivery.token ≠ called.2.event.token
      rw [hdeliveries, hevent]
      exact hnext.deliveries
    have hdone : (called.2.upset later).event.done = false := congrArg Event.done hevent
    refine ⟨.inl (hissued.idle hidle), fun hwaited => ?_⟩
    rw [hsilent.await_eq hdone patience] at hwaited
    cases hwaited

end Bench

variable {settings : Nat → Chip → FailurePlan × CompletionMode} {start bench : Bench} {count : Nat}
  {bus : BusState} {change : Memory → Memory} {command : Command} {request : BusCall}
  {patience : Nat}

namespace BusAction

variable {ok : Unit → BusState → Bench × Nat → Prop} {bad : Fault → BusState → Bench × Nat → Prop}

/-- However failures come and go, a call succeeds or fails with what was set up just before it. -/
theorem ends_call_upsetting
    (hok : ∀ setting count, ((bench.upset setting).call request).1.isOk = true →
      ok () bus (((bench.upset setting).call request).2, count))
    (hbad : ∀ fault setting count, bad fault bus (((bench.upset setting).call request).2, count)) :
    (discard (BusAction.call request)).Ends (Bench.upsetting settings) ok bad bus
      (bench, count) := by
  unfold BusAction.call Action.call
  rw [ends_discard, ends_lift]
  unfold Action.Ends
  rw [ExceptT.run_mk, Program.ends_call_upsetting]
  cases hreply : ((bench.upset (settings count)).call request).1 with
  | error cause => exact hbad _ _ _
  | ok received => exact hok _ _ (congrArg Except.isOk hreply)

/-- However failures come and go, a transfer that is answered is waited for, and one that is refused
or that nothing reports complete in time is aborted. -/
theorem ends_transfer_upsetting (lost : Bench → Prop)
    (hok : ∀ setting later count, ((bench.arm.upset setting).call request).1.isOk = true →
      let waited := (((bench.arm.upset setting).call request).2.upset later).await patience
      waited.1 = true → ok () bus (waited.2, count))
    (hrefused : ∀ setting, lost ((bench.arm.upset setting).call request).2)
    (hlate : ∀ setting later,
      lost ((((bench.arm.upset setting).call request).2.upset later).await patience).2)
    (hbad : ∀ fault setting (after : Bench) count, lost after →
      bad fault bus (((after.upset setting).call .abort).2, count)) :
    (discard (BusAction.transfer request patience)).Ends (Bench.upsetting settings) ok bad bus
      (bench, count) := by
  rw [ends_discard]
  unfold BusAction.Ends
  rw [run_transfer, Program.ends_bind]
  unfold Program.exchange
  -- Failures set up before the arming are set up anew before the call.
  let setting (chip : Chip) := settings (count + 1) (chip.upset (settings count chip))
  have hissued : (bench.upset (settings count)).arm.upset (settings (count + 1)) =
      bench.arm.upset setting := rfl
  rw [Program.ends_arm_upsetting, Program.ends_call_upsetting, hissued]
  cases hreply : ((bench.arm.upset setting).call request).1 with
  | error cause => exact hbad _ _ _ _ (hrefused setting)
  | ok received =>
      have hanswered := congrArg Except.isOk hreply
      rw [Program.ends_await_upsetting]
      cases hwaited : ((((bench.arm.upset setting).call request).2.upset
          (settings (count + 1 + 1))).await patience).1 with
      | true => exact hok setting _ _ hanswered hwaited
      | false => exact hbad _ _ _ _ (hlate setting _)

end BusAction

namespace Engine

variable {ok : Unit → BusState → Bench × Nat → Prop} {bad : Fault → BusState → Bench × Nat → Prop}

/-- However failures come and go, write enable is set on a chip that hears the width. -/
theorem ends_enableWrite_upsetting (h : start.Poised bus.width bench)
    (hok : ∀ after count, start.Permitted bus.width after → ok () bus (after, count))
    (hbad : ∀ fault after count, start.Held start.chip.memory after →
      bad fault bus (after, count)) :
    enableWrite.Ends (Bench.upsetting settings) ok bad bus (bench, count) := by
  unfold enableWrite BusAction.instruct
  rw [BusAction.ends_bind, BusAction.ends_width]
  refine BusAction.ends_call_upsetting (fun setting count hreply => ?_)
    fun fault setting count => ?_
  · exact hok _ _ (((h.upset setting).enable rfl).2 hreply)
  · exact hbad _ _ _ ((h.upset setting).enable rfl).1

section Change

variable (hok : ∀ after count, start.Underway bus.width change after → ok () bus (after, count))
  (hbad : ∀ fault after count, start.Undecided change after → bad fault bus (after, count))

include hbad

section Command

variable (h : start.Permitted bus.width bench) (hchanges : command.Changes bus.width change)

include h hchanges hok

/-- A command carried out at once makes its change, or fails and leaves it undecided. -/
theorem ends_command_upsetting :
    (discard (BusAction.call (.command command))).Ends (Bench.upsetting settings) ok bad bus
      (bench, count) := by
  refine BusAction.ends_call_upsetting (fun setting count hreply => ?_)
    fun fault setting count => ?_
  · exact hok _ _ (((h.upset setting).carry hchanges rfl).2 hreply)
  · exact hbad _ _ _ ((h.upset setting).carry hchanges rfl).1

/-- A deferred command makes its change, or fails and leaves it undecided. -/
theorem ends_start_upsetting :
    (discard (BusAction.transfer (.start command) patience)).Ends (Bench.upsetting settings) ok bad
      bus (bench, count) := by
  refine BusAction.ends_transfer_upsetting (start.Undecided change)
    (fun setting later count hreply _ => ?_) (fun setting => ?_) (fun setting later => ?_)
    fun fault setting after count hlost => hbad _ _ _ (hlost.abort setting)
  · exact hok _ _ ((h.begin hchanges setting later patience).2 hreply)
  · exact (h.begin hchanges setting setting patience).1
  · exact (h.begin hchanges setting later patience).1.await later patience

end Command

/-- A wait that succeeds was for a chip that hears, and the change is made. -/
theorem ends_waitWhileBusy_upsetting (h : start.Underway bus.width change bench)
    (hmade : ∀ after count, start.Made bus.width change after → ok () bus (after, count)) :
    (waitWhileBusy patience).Ends (Bench.upsetting settings) ok bad bus (bench, count) := by
  unfold waitWhileBusy
  rw [BusAction.ends_bind, BusAction.ends_width]
  refine BusAction.ends_transfer_upsetting (start.Undecided change)
    (fun setting later count _ hwaited => ?_) (fun setting => ?_) (fun setting later => ?_)
    fun fault setting after count hlost => hbad _ _ _ (hlost.abort setting)
  · exact hmade _ _ ((h.poll setting later patience).2 hwaited)
  · exact (h.poll setting setting patience).1
  · exact (h.poll setting later patience).1.await later patience

end Change

/-- However failures come and go, the mapping is left and the memory is not changed. -/
theorem ends_leaveMapped_upsetting {width : BusWidth} (h : start.Poised width bench)
    (hok : ∀ after count, start.Poised width after →
      ok () { bus with mapped := false } (after, count)) :
    BusAction.leaveMapped.Ends (Bench.upsetting settings) ok bad bus (bench, count) := by
  obtain ⟨taken, mapped⟩ := bus
  cases mapped with
  | false => exact hok _ _ h
  | true =>
      have hupset := h.upset (settings count)
      have haborted : start.Poised width ((bench.upset (settings count)).call .abort).2 :=
        ⟨hupset.toHeld.idle (Bench.idle_abort _),
          fun hunheard => (hupset.truthful hunheard).call rfl⟩
      exact hok _ _ haborted

/-- However failures come and go, an action that takes the bus and makes a change makes it on a chip
that the engine gets through to, and if it fails, then the change was made or it was not. -/
theorem ends_withBus_upsetting {engine : Engine} {action : BusAction Unit}
    (htruthful : ¬bench.Reaches → bench.Truthful)
    (haction : ∀ bus taken count, bench.Poised bus.width taken →
      action.Ends (Bench.upsetting settings)
        (fun _ last after => last = bus ∧ bench.Made bus.width change after.1)
        (fun _ _ after => bench.Undecided change after.1) bus (taken, count)) :
    (engine.withBus action).Ends (Bench.upsetting settings)
      (fun _ after => bench.Changed change after.1)
      (fun _ after => bench.Undecided change after.1) (bench, count) := by
  have hheld : bench.Held bench.chip.memory { bench.upset (settings count) with bus := none } :=
    ⟨rfl, rfl, rfl⟩
  unfold withBus holdingBus Action.Ends
  rw [ExceptT.run_mk, Program.ends_acquire_upsetting]
  cases hbus : bench.bus with
  | none => exact .inl hheld
  | some bus =>
      have htruthful : ¬bench.chip.Hears bus.width → bench.Truthful := by
        intro hunheard
        refine htruthful fun ⟨other, hother, hhears⟩ => hunheard ?_
        rwa [Option.some.inj (hbus.symm.trans hother)]
      have hrun : BusAction.Ends (Bench.upsetting settings) (do BusAction.leaveMapped; action)
          (fun _ last after => bench.Made last.width change after.1)
          (fun _ _ after => bench.Undecided change after.1) bus
          ({ bench.upset (settings count) with bus := none }, count + 1) := by
        have hpoised : bench.Poised bus.width
            { bench.upset (settings count) with bus := none } :=
          ⟨hheld, fun hunheard => (htruthful hunheard).congr rfl rfl rfl⟩
        rw [BusAction.ends_bind]
        refine ends_leaveMapped_upsetting hpoised fun taken count hpoised => ?_
        refine (haction ⟨bus.width, false⟩ taken count hpoised).mono ?_ fun _ _ _ hafter => hafter
        rintro _ last after ⟨rfl, hmade⟩
        exact hmade
      show Program.Ends _ (_ >>= _) _ _
      rw [Program.ends_bind]
      refine Program.Ends.mono hrun ?_
      rintro ⟨fault | _, last⟩ ⟨after, counted⟩ hafter
      · exact hafter.imp (·.given _ _) (·.given _ _)
      · have hgiven := hafter.held.given (settings counted) (some last)
        exact ⟨hgiven, last, rfl, hgiven.hears_iff.mpr hafter.hears⟩

/-- However failures come and go, a page is programmed as a whole, or not at all. -/
theorem ends_pageProgram_upsetting {engine : Engine} (htruthful : ¬bench.Reaches → bench.Truthful)
    {device : Descriptor} (hdevice : engine.requireDevice = .ok device) (address : UInt32)
    (bytes : Bytes) :
    let change memory := (Memory.program memory address.toNat bytes).memory
    (engine.pageProgram address bytes).Ends (Bench.upsetting settings)
      (fun _ after => bench.Changed change after.1)
      (fun _ after => bench.Undecided change after.1) (bench, count) := by
  unfold pageProgram
  rw [hdevice, Action.ends_bind, Action.ends_discard, Action.ends_ofExcept]
  refine ends_withBus_upsetting htruthful fun bus taken count hpoised => ?_
  rw [BusAction.ends_bind, BusAction.ends_width, BusAction.ends_bind]
  refine ends_enableWrite_upsetting hpoised (fun middle count hpermitted => ?_)
    fun _ _ _ => .inl
  rw [BusAction.ends_bind]
  refine ends_start_upsetting (fun sent count hsent => ?_) (fun _ _ _ hafter => hafter)
    hpermitted (changes_programCommand bus.width address bytes)
  exact ends_waitWhileBusy_upsetting (fun _ _ _ hafter => hafter) hsent
    fun _ _ hmade => ⟨rfl, hmade⟩

/-- However failures come and go, a unit is erased as a whole, or not at all. -/
theorem ends_erase_upsetting {engine : Engine} (htruthful : ¬bench.Reaches → bench.Truthful)
    {device : Descriptor} (hdevice : engine.requireDevice = .ok device) (address : UInt32)
    (kind : EraseKind) :
    (engine.erase address kind).Ends (Bench.upsetting settings)
      (fun _ after => bench.Changed (kind.clear address.toNat) after.1)
      (fun _ after => bench.Undecided (kind.clear address.toNat) after.1) (bench, count) := by
  rw [erase_eq, hdevice, Action.ends_bind, Action.ends_discard, Action.ends_ofExcept]
  show Action.Ends _ (_ >>= _) _ _ _
  rw [Action.ends_bind, Action.ends_ofExcept]
  cases (if kind = .chip then .ok () else engine.checkRange address 1) with
  | error fault => exact .inl (.refl bench)
  | ok _ =>
      refine ends_withBus_upsetting htruthful fun bus taken count hpoised => ?_
      unfold eraseHeld
      rw [BusAction.ends_bind, BusAction.ends_width, BusAction.ends_bind]
      refine ends_enableWrite_upsetting hpoised (fun middle count hpermitted => ?_)
        fun _ _ _ => .inl
      rw [BusAction.ends_bind]
      refine ends_command_upsetting (fun sent count hsent => ?_) (fun _ _ _ hafter => hafter)
        hpermitted (changes_eraseCommand kind bus.width address)
      exact ends_waitWhileBusy_upsetting (fun _ _ _ hafter => hafter) hsent
        fun _ _ hmade => ⟨rfl, hmade⟩

end Engine

end NorFlash
