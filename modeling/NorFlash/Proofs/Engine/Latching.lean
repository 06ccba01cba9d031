import NorFlash.Proofs.Bench.Reports
import NorFlash.Proofs.Engine.Imprint
import NorFlash.Proofs.Engine.Unheard

/-!
# What leaves write enable set

A page program or an erase sets write enable with one command, and the next one uses it up. Only if
that one is refused is write enable left set, and then the operation fails of it: `Unlatches` says
so of an action, and `ends_serve_unset` of every request. `ends_serve_stores` says that no request
but bringing up changes what is stored in status register 2.
-/

namespace NorFlash

variable {α β : Type}

/-- No erase is taken for a quad read. -/
theorem EraseKind.not_readQuad (kind : EraseKind) :
    Instruction.hasOnSome (· == .readQuad) kind.opcode = false := by
  cases kind with
  | unit area => cases area <;> decide
  | chip => decide

namespace Chip

variable {chip middle : Chip} {command : Command} {instruction : Instruction} {request : BusCall}

/-- A page program uses up write enable. -/
theorem writeEnable_heed_program {bytes : Bytes} (hdata : command.data = .write bytes) :
    (chip.heed .program command).2.latches.writeEnable = false := by
  cases hlatch : chip.latches.writeEnable <;>
    simp [heed, obey, hdata, program, drawn, log, consumeWriteEnable, hlatch]

/-- So does an erase. -/
theorem writeEnable_heed_erase (kind : EraseKind) :
    (chip.heed kind.instruction command).2.latches.writeEnable = false := by
  cases kind <;> cases hlatch : chip.latches.writeEnable <;>
    simp [heed, obey, EraseKind.instruction, erase, drawn, log, consumeWriteEnable, hlatch]

/-- A chip that hears and knows an instruction heeds it. -/
theorem answer_heard (hsent : request.command? = some command)
    (hhears : chip.Hears command.width)
    (hdecode : Instruction.decode? chip.vendor command.instruction = some instruction)
    (hrefuses : chip.refuses = false) :
    (chip.answer request).2 = (chip.heed instruction command).2 := by
  have hanswer : (chip.answer request).2 = (chip.execute command).2 := by
    cases request with
    | command sent | start sent =>
        obtain rfl := Option.some.inj hsent
        rfl
    | poll | map | abort => cases hsent
  rw [hanswer, execute_eq, hrefuses, accept_of_decode hhears hdecode]
  rfl

/-- Write enable that is set for a command on the same width is used up by it, or neither of the two
is heard. -/
theorem writeEnable_used (hunset : chip.latches.writeEnable = false)
    (henabled : middle = (chip.answer (.command
      (.instruct Opcode.writeEnable.code command.width))).2)
    (hsent : request.command? = some command)
    (hcode : command.instruction ≠ Opcode.releasePowerDown.code)
    (hdecode : Instruction.decode? middle.vendor command.instruction = some instruction)
    (huses : (middle.heed instruction command).2.latches.writeEnable = false)
    (hrefuses : middle.refuses = false) :
    (middle.answer request).2.latches.writeEnable = false := by
  by_cases hhears : chip.Hears command.width
  · have hmode : middle.mode = chip.mode := by
      rw [henabled]
      refine mode_answer hhears.1 fun code hcode => ?_
      obtain rfl : Opcode.writeEnable.code = code := Option.some.inj hcode
      decide
    rw [answer_heard hsent (hhears.of_mode hmode) hdecode hrefuses]
    exact huses
  · have hidle : Idle chip middle := by
      rw [henabled]
      refine idle_answer_of_not_hears hhears fun sent hsent => ?_
      obtain rfl := Option.some.inj hsent
      exact ⟨rfl, show Opcode.writeEnable.code ≠ Opcode.releasePowerDown.code by decide⟩
    have hunheard : ¬middle.Hears command.width := mt (·.of_mode hidle.mode.symm) hhears
    have hkept : Idle middle (middle.answer request).2 := by
      refine idle_answer_of_not_hears hunheard fun other hother => ?_
      obtain rfl := Option.some.inj (hsent.symm.trans hother)
      exact ⟨rfl, hcode⟩
    exact hkept.writeEnable.trans (hidle.writeEnable.trans hunset)

end Chip

/-- If write enable is clear, then it is so at the end, unless the action fails of a command that is
refused. -/
def Action.Unlatches (action : Action α) : Prop :=
  ∀ bench : Bench, bench.chip.latches.writeEnable = false →
    action.Ends Bench.environment (fun _ after => after.chip.latches.writeEnable = false)
      (fun fault after => fault ≠ .bus .injected → after.chip.latches.writeEnable = false) bench

namespace Action

/-- Doing nothing leaves write enable unset. -/
theorem unlatches_pure (value : α) : Unlatches (pure value) :=
  fun _ hunset => hunset

/-- A check leaves write enable unset. -/
theorem unlatches_ofExcept (result : Except Fault α) :
    Unlatches (MonadExcept.ofExcept result) := by
  intro bench hunset
  rw [ends_ofExcept]
  cases result with
  | error fault => exact fun _ => hunset
  | ok value => exact hunset

/-- A report leaves write enable unset. -/
theorem unlatches_report (count : Nat) : (report count).Unlatches :=
  fun _ hunset => hunset

/-- Going on leaves write enable unset if both parts do. -/
theorem Unlatches.bind {action : Action α} {next : α → Action β} (h : action.Unlatches)
    (hnext : ∀ value, (next value).Unlatches) : Unlatches (action >>= next) := by
  intro bench hunset
  rw [ends_bind]
  exact (h bench hunset).mono (fun value after => hnext value after) fun _ _ hafter => hafter

/-- Whether the value is used does not matter for the latch. -/
theorem Unlatches.discard {action : Action α} (h : action.Unlatches) :
    Unlatches (discard action) :=
  h.bind fun _ => unlatches_pure ()

/-- Leaving the reports out does not matter for the latch. -/
theorem Unlatches.silenced {action : Action α} (h : action.Unlatches) :
    action.silenced.Unlatches :=
  fun bench hunset => ends_silenced (h bench hunset)

/-- Actions one after the other leave write enable unset if each does. -/
theorem unlatches_forM {list : List α} {action : α → Action Unit}
    (h : ∀ item, (action item).Unlatches) : Unlatches (list.forM action) := by
  induction list with
  | nil => exact unlatches_pure ()
  | cons first rest ih => exact (h first).bind fun _ => ih

end Action

namespace BusAction

variable {bench : Bench} {bus : BusState} {command : Command} {patience : Nat}

/-- A command that uses up write enable unless it is refused, and that is carried out at once. -/
theorem ends_call_used
    (hcode : Instruction.hasOnSome (· == .readQuad) command.instruction = false)
    (hused : bench.chip.refuses = false →
      (bench.chip.answer (.command command)).2.latches.writeEnable = false) :
    (BusAction.call (.command command)).Ends Bench.environment
      (fun _ last after => last = bus ∧ after.chip.latches.writeEnable = false)
      (fun fault _ _ => fault = .bus .injected) bus bench := by
  unfold BusAction.call
  rw [ends_lift]
  refine (Action.ends_issued hcode).mono (fun _ after hissued => ⟨rfl, ?_⟩) fun _ _ h => h.1
  rw [hissued.chip_eq_answer]
  exact hused hissued.refused_eq.symm

/-- As `ends_call_used`, for a deferred command, which has been carried out even if it does not
complete in time. -/
theorem ends_transfer_used
    (hcode : Instruction.hasOnSome (· == .readQuad) command.instruction = false)
    (hused : bench.chip.refuses = false →
      (bench.chip.answer (.start command)).2.latches.writeEnable = false) :
    (BusAction.transfer (.start command) patience).Ends Bench.environment
      (fun _ last after => last = bus ∧ after.chip.latches.writeEnable = false)
      (fun fault _ after => fault ≠ .bus .injected → after.chip.latches.writeEnable = false)
      bus bench := by
  unfold transfer
  rw [ends_bind, ends_lift, Action.ends_liftM]
  refine (Program.ends_exchange bench (.start command) patience).mono ?_
  rintro ⟨received, outcome⟩ after ⟨hafter, hended, -⟩
  rw [ends_bind, ends_ofExcept]
  rw [Chip.reply_start] at hended
  obtain ⟨answer, hanswer⟩ := @Chip.exists_reply_accept bench.chip command hcode
  cases hrefuses : bench.chip.refuses with
  | true =>
      rw [hrefuses] at hended
      obtain ⟨-, rfl⟩ := Prod.mk.inj hended
      exact fun hother => absurd rfl hother
  | false =>
      have hunset : after.chip.latches.writeEnable = false :=
        hafter.chip.writeEnable.trans (hused hrefuses)
      rw [hrefuses, if_neg Bool.false_ne_true, hanswer] at hended
      obtain ⟨-, rfl | rfl⟩ := hended
      · exact ⟨rfl, hunset⟩
      · exact fun _ => hunset

end BusAction

namespace Engine

variable {engine : Engine} {bench : Bench} {bus : BusState}

/-- An action that takes the bus leaves write enable clear if it does so while it holds the bus. -/
theorem unlatches_withBus {action : BusAction α}
    (h : ∀ bus (start : Bench), start.chip.latches.writeEnable = false →
      action.Ends Bench.environment (fun _ _ after => after.chip.latches.writeEnable = false)
        (fun fault _ after => fault ≠ .bus .injected → after.chip.latches.writeEnable = false)
        bus start) :
    (engine.withBus action).Unlatches := by
  intro bench hunset
  cases hbus : bench.bus with
  | none => exact ends_withBus_busy hbus fun _ => hunset
  | some bus =>
      exact ends_withBus hbus fun start htaken => h _ start (htaken.chip.writeEnable.trans hunset)

/-- Enabling a write issues its one command, or fails as injected. -/
theorem ends_enableWrite_issued {ok : Unit → BusState → Bench → Prop}
    {bad : Fault → BusState → Bench → Prop}
    (hok : ∀ after, bench.Issued (.instruct Opcode.writeEnable.code bus.width) false after →
      ok () bus after)
    (hbad : ∀ after, bad (.bus .injected) bus after) :
    enableWrite.Ends Bench.environment ok bad bus bench := by
  have hread : Instruction.hasOnSome (· == .readQuad) Opcode.writeEnable.code = false := by decide
  unfold enableWrite
  rw [BusAction.ends_bind, BusAction.ends_width, BusAction.ends_instruct]
  refine (Action.ends_issued hread).mono (fun _ after => hok after) ?_
  rintro _ after ⟨rfl, -⟩
  exact hbad after

/-- Waiting for what has used up write enable leaves it clear. -/
theorem ends_waitWhileBusy_used {patience : Nat} (hunset : bench.chip.latches.writeEnable = false) :
    (waitWhileBusy patience).Ends Bench.environment
      (fun _ _ after => after.chip.latches.writeEnable = false)
      (fun fault _ after => fault ≠ .bus .injected → after.chip.latches.writeEnable = false)
      bus bench :=
  ends_waitWhileBusy (fun _ hidle => hidle.writeEnable.trans hunset)
    fun _ _ hidle _ => hidle.writeEnable.trans hunset

/-- A page program leaves write enable unset, unless it is refused. -/
theorem unlatches_pageProgram (engine : Engine) (address : UInt32) (bytes : Bytes) :
    (engine.pageProgram address bytes).Unlatches := by
  have hread : Instruction.hasOnSome (· == .readQuad) Opcode.pageProgram.code = false := by decide
  have hwake : Opcode.pageProgram.code ≠ Opcode.releasePowerDown.code := by decide
  have hlookup : Instruction.shared.lookup Opcode.pageProgram.code = some .program := by decide
  unfold pageProgram
  refine (Action.unlatches_ofExcept _).discard.bind fun _ => unlatches_withBus ?_
  intro bus start hunset
  rw [BusAction.ends_bind, BusAction.ends_width, BusAction.ends_bind]
  refine ends_enableWrite_issued (fun middle hissued => ?_) fun _ hother => absurd rfl hother
  have hused : middle.chip.refuses = false →
      (middle.chip.answer (.start (((Command.instruct Opcode.pageProgram.code
        bus.width).atAddress address bus.width).writing bytes
          bus.width))).2.latches.writeEnable = false :=
    Chip.writeEnable_used hunset hissued.chip_eq_answer rfl hwake
      (Instruction.decode?_of_shared hlookup _) (Chip.writeEnable_heed_program rfl)
  rw [BusAction.ends_bind, BusAction.ends_discard]
  refine (BusAction.ends_transfer_used hread hused).mono ?_ fun _ _ _ h => h
  rintro _ _ done ⟨rfl, hdone⟩
  exact ends_waitWhileBusy_used hdone

/-- An erase leaves write enable unset, unless it is refused. -/
theorem unlatches_erase (engine : Engine) (address : UInt32) (kind : EraseKind) :
    (engine.erase address kind).Unlatches := by
  rw [erase_eq]
  refine (Action.unlatches_ofExcept _).discard.bind fun _ =>
    (Action.unlatches_ofExcept _).bind fun _ => unlatches_withBus ?_
  intro bus start hunset
  have hcode := kind.instruction_command address bus.width
  have hwidth := kind.width_command address bus.width
  have hread : Instruction.hasOnSome (· == .readQuad)
      (kind.command address bus.width).instruction = false := by
    rw [hcode]
    exact kind.not_readQuad
  have hwake : (kind.command address bus.width).instruction ≠ Opcode.releasePowerDown.code := by
    rw [hcode]
    exact fun hwakes => kind.not_wakes (hwakes ▸ List.mem_cons_of_mem _ List.mem_cons_self)
  unfold eraseHeld
  rw [BusAction.ends_bind, BusAction.ends_width, BusAction.ends_bind]
  refine ends_enableWrite_issued (fun middle hissued => ?_) fun _ hother => absurd rfl hother
  have hdecode : Instruction.decode? middle.chip.vendor
      (kind.command address bus.width).instruction = some kind.instruction := by
    rw [hcode]
    exact Instruction.decode?_of_shared kind.lookup_opcode _
  have henabled := hissued.chip_eq_answer
  rw [← hwidth] at henabled
  have hused : middle.chip.refuses = false →
      (middle.chip.answer (.command
        (kind.command address bus.width))).2.latches.writeEnable = false :=
    Chip.writeEnable_used hunset henabled rfl hwake hdecode (Chip.writeEnable_heed_erase kind)
  rw [BusAction.ends_bind, BusAction.ends_discard]
  refine (BusAction.ends_call_used hread hused).mono ?_ ?_
  · rintro _ _ done ⟨rfl, hdone⟩
    exact ends_waitWhileBusy_used hdone
  · rintro _ _ _ rfl hother
    exact absurd rfl hother

/-- A write leaves write enable unset, unless it is refused. -/
theorem unlatches_writeReporting (engine : Engine) (address : UInt32) (bytes : Bytes) :
    (engine.writeReporting address bytes).Unlatches := by
  unfold writeReporting
  refine (Action.unlatches_ofExcept _).discard.bind fun _ => ?_
  split
  · exact Action.unlatches_pure ()
  · refine (Action.unlatches_ofExcept _).bind fun _ => (Action.unlatches_report 0).bind fun _ => ?_
    exact Action.unlatches_forM fun piece =>
      (engine.unlatches_pageProgram _ _).bind fun _ => Action.unlatches_report _

/-- A plan leaves write enable unset, unless it is refused. -/
theorem unlatches_erasePlanned (engine : Engine) (plan : ErasePlan) (total : Nat) :
    (engine.erasePlanned plan total).Unlatches := by
  induction plan generalizing total with
  | nil => exact Action.unlatches_pure ()
  | cons planned rest ih =>
      exact (engine.unlatches_erase _ _).bind fun _ => (Action.unlatches_report _).bind fun _ =>
        ih _

/-- An erase of a range leaves write enable unset, unless it is refused. -/
theorem unlatches_eraseRangeReporting (engine : Engine) (address : UInt32) (length : Nat) :
    (engine.eraseRangeReporting address length).Unlatches := by
  unfold eraseRangeReporting
  refine (Action.unlatches_ofExcept _).discard.bind fun _ => ?_
  split
  · exact Action.unlatches_pure ()
  · exact (Action.unlatches_ofExcept _).bind fun _ => (Action.unlatches_report 0).bind fun _ =>
      engine.unlatches_erasePlanned _ 0

end Engine

/-! ## Requests -/

/-- An operation that is not listed as altering memory does not set write enable. -/
theorem Operation.keepsDisabled {operation : Operation} (h : operation.altersMemory = false) :
    Instruction.NoneAmong (· == .enableWrite) operation.repertoire := by
  cases operation with
  | sleep enter => cases enter <;> decide
  | write | writeReporting | writeMetered | writeSector | pageProgram | erase | eraseChip
  | eraseRange | eraseRangeReporting | eraseRangeMetered | eraseSector =>
      simp [altersMemory] at h
  | _ => simp only [repertoire]; decide

/-- No erase is taken for a write of status register 2. -/
theorem EraseKind.keepsStatus2 (kind : EraseKind) :
    Instruction.NoneAmong (· == .writeStatus2) kind.repertoire := by
  cases kind with
  | unit area => cases area <;> decide
  | chip => decide

/-- No operation writes the status register. -/
theorem Operation.keepsStatus2 (operation : Operation) :
    Instruction.NoneAmong (· == .writeStatus2) operation.repertoire := by
  cases operation with
  | sleep enter => cases enter <;> decide
  | erase address kind => exact kind.keepsStatus2
  | _ => simp only [repertoire]; decide

namespace EngineRequest

/-- The request programs or erases memory. -/
def altersMemory : EngineRequest → Bool
  | operation asked => asked.altersMemory
  | _ => false

/-- Only bringing up writes the status register. -/
theorem keepsStatus2 {request : EngineRequest} (h : request ≠ .bringUp) :
    Instruction.NoneAmong (· == .writeStatus2) request.repertoire := by
  cases request with
  | bringUp => exact absurd rfl h
  | shutDown => decide
  | operation operation => exact operation.keepsStatus2

end EngineRequest

/-- What holds between two requests as long as the status register is kept: the bus is free, and the
chip is sound and has this value stored. -/
structure Bench.Stores (id : JedecId) (stored : Status2) (bench : Bench) : Prop where
  free : bench.Free fun _ => True
  sound : Chip.Sound id bench.chip
  mirrors : bench.chip.Mirrors stored

/-- Unless the result says that a command was refused, write enable is clear. -/
theorem Action.Unlatches.outcome {action : Action Unit} {bench : Bench} (h : action.Unlatches)
    (hunset : bench.chip.latches.writeEnable = false) :
    (Outcome.ofUnit <$> action.run).Ends Bench.environment
      (fun outcome after => outcome.result ≠ .error (.bus .injected) →
        after.chip.latches.writeEnable = false) bench := by
  rw [Program.ends_map]
  refine Program.Ends.mono (h bench hunset) ?_
  rintro (fault | _) after hafter hresult
  · exact hafter fun hfault => hresult (congrArg Except.error hfault)
  · exact hafter

namespace Engine

variable {engine : Engine} {bench : Bench} {id : JedecId} {stored : Status2}
  {request : EngineRequest}

/-- An operation that alters memory leaves write enable unset, unless it is refused. -/
theorem ends_perform_unset (hunset : bench.chip.latches.writeEnable = false)
    {operation : Operation} (halters : operation.altersMemory = true) :
    (engine.perform operation).Ends Bench.environment
      (fun outcome after => outcome.result ≠ .error (.bus .injected) →
        after.chip.latches.writeEnable = false) bench := by
  have hsector {sector : UInt32} {action : UInt32 → Action Unit}
      (h : ∀ address, (action address).Unlatches) :
      Action.Unlatches (MonadExcept.ofExcept (engine.sectorAddress sector) >>= action) :=
    (Action.unlatches_ofExcept _).bind h
  cases operation with
  | write | writeMetered => exact (engine.unlatches_writeReporting _ _).silenced.outcome hunset
  | writeReporting => exact (engine.unlatches_writeReporting _ _).outcome hunset
  | writeSector =>
      exact (hsector fun _ => (engine.unlatches_writeReporting _ _).silenced).outcome hunset
  | pageProgram => exact (engine.unlatches_pageProgram _ _).outcome hunset
  | erase | eraseChip => exact (engine.unlatches_erase _ _).outcome hunset
  | eraseRange => exact (engine.unlatches_eraseRangeReporting _ _).silenced.outcome hunset
  | eraseRangeReporting => exact (engine.unlatches_eraseRangeReporting _ _).outcome hunset
  | eraseRangeMetered =>
      refine Action.Unlatches.outcome ((Action.unlatches_ofExcept _).discard.bind fun _ =>
        (Action.unlatches_ofExcept _).bind fun _ => ?_) hunset
      exact (engine.unlatches_eraseRangeReporting _ _).silenced
  | eraseSector => exact (hsector fun _ => engine.unlatches_erase _ _).outcome hunset
  | _ => simp [Operation.altersMemory] at halters

/-- A request other than bringing up keeps what is stored. -/
theorem ends_serve_stores (h : bench.Stores id stored) (hup : request ≠ .bringUp) :
    (engine.serve request).Ends Bench.environment (fun _ after => after.Stores id stored)
      bench := by
  have horderly := engine.orderly_serve request
  refine ((horderly.free h.free).and ((horderly.sound h.free h.sound).and
    (horderly.mirrors h.free (EngineRequest.keepsStatus2 hup) h.mirrors))).mono ?_
  exact fun _ after hafter => ⟨hafter.1, hafter.2.1, hafter.2.2⟩

/-- A request leaves write enable clear, unless it is to program or erase and fails of a refused
command. -/
theorem ends_serve_unset (h : bench.Stores id stored)
    (hvendor : Vendor.ofManufacturer id.manufacturer = .winbond)
    (hunset : bench.chip.latches.writeEnable = false) :
    (engine.serve request).Ends Bench.environment
      (fun ended after =>
        ¬(request.altersMemory = true ∧ ended.1.result = .error (.bus .injected)) →
          after.chip.latches.writeEnable = false) bench := by
  have horderly := engine.orderly_serve request
  cases request with
  | bringUp =>
      obtain ⟨bus, hbus, -⟩ := h.free
      refine (Program.ends_bind ..).mpr
        ((ends_bringUp_accounts h.sound hvendor hbus h.mirrors).mono ?_)
      exact fun _ after hafter _ => hafter.unset hunset
  | shutDown => exact (horderly.unset h.free (by decide)).mono fun _ after hafter _ => hafter hunset
  | operation operation =>
      cases halters : operation.altersMemory with
      | true =>
          refine (Program.ends_bind ..).mpr ((ends_perform_unset hunset halters).mono ?_)
          exact fun _ after hafter hnot => hafter fun hresult => hnot ⟨halters, hresult⟩
      | false =>
          refine (horderly.unset h.free (Operation.keepsDisabled halters)).mono ?_
          exact fun _ after hafter _ => hafter hunset

end Engine

end NorFlash
