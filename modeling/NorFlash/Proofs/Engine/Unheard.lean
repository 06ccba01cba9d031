import NorFlash.Proofs.Engine.Writing

/-!
# A chip that does not hear the engine

A chip that is asleep, or that listens on another width than the engine uses, ignores a program or
an erase, and the controller takes no notice. Only the status poll that follows finds out, because a
chip that does not answer looks busy: `ends_pageProgram_unheard` and `ends_erase_unheard` say that
the operation then fails and leaves the memory alone. That holds as long as completions are reported
by the chip alone, which is what `Bench.Truthful` says.
-/

namespace NorFlash

namespace Chip

variable {chip : Chip} {width : BusWidth} {request : BusCall}

/-- A call on a width that the chip does not hear changes nothing, unless it is to wake it. -/
theorem idle_answer_of_not_hears (h : ¬chip.Hears width)
    (hsent : ∀ command ∈ request.command?, command.width = width ∧
      command.instruction ≠ Opcode.releasePowerDown.code) : Idle chip (chip.answer request).2 := by
  cases effect_answer chip request with
  | idle hidle => exact hidle
  | woken _ hcode _ =>
      obtain ⟨command, hcommand, hwake⟩ := Option.map_eq_some_iff.mp hcode
      exact absurd hwake (hsent command hcommand).2
  | obeyed command _ _ _ hcommand hheard _ _ _ =>
      exact absurd ((hsent command hcommand).1 ▸ hheard) h

/-- A chip that does not hear the poll looks busy. -/
theorem not_completes_of_not_hears (h : ¬chip.Hears width) :
    (chip.answer (.poll (Engine.idlePoll width))).1.completes = false := by
  have hstatus : chip.drawn.polledStatus (Engine.idlePoll width) = 0xFF := by
    unfold polledStatus
    rw [if_neg]
    simp only [Bool.and_eq_true, Bool.not_eq_true', not_and]
    exact fun ⟨hlisten, hawake⟩ _ => h ⟨hawake, hlisten⟩
  simp only [answer, Chip.poll, drawFailure]
  cases chip.plan.next.1 with
  | true => rfl
  | false =>
      show (chip.drawn.polledStatus (Engine.idlePoll width) &&& Status1.busyMask == 0) = false
      rw [hstatus]
      decide

end Chip

namespace Bench

/-- Nothing but the chip reports the operation with the token complete. -/
structure Unreported (token : Token) (bench : Bench) : Prop where
  echo : bench.echo = .quiet
  deliveries : ∀ delivery ∈ bench.deliveries, delivery.token ≠ token

/-- Completions are reported by the chip alone: the recorder reports none, and none that is on its
way is for either of the two operations to be issued next. One that is on its way is for an
operation that was issued before, and tokens start again only after `2 ^ 64` operations. -/
structure Truthful (bench : Bench) : Prop where
  next : bench.Unreported bench.event.arm.token
  later : bench.Unreported bench.event.arm.arm.token

variable {bench : Bench} {request : BusCall} {token : Token}

/-- A new operation has another token. -/
theorem token_arm_ne (event : Event) : event.arm.token ≠ event.token := by
  intro h
  have hnumber := congrArg (fun token => token.number.toNat) h
  have hlt := event.token.number.toNat_lt
  simp only [Event.arm, UInt64.toNat_add, UInt64.toNat_one] at hnumber
  omega

/-- A completion of the chip leaves the token alone. -/
theorem token_complete (bench : Bench) : bench.complete.event.token = bench.event.token := by
  unfold complete
  split
  · rw [Event.signalFor_token]
    rfl
  · rfl
  · rfl

/-- Noting what was begun leaves the token alone. -/
theorem token_noteBegun (bench : Bench) : bench.noteBegun.event.token = bench.event.token := by
  have hsignal : ∀ token, (bench.event.signalFor token).token = bench.event.token := by
    intro token
    unfold Event.signalFor
    split <;> rfl
  unfold noteBegun
  simp only
  split
  · rfl
  · rfl
  · exact hsignal _
  · exact hsignal _
  · rfl

/-- A call leaves the token alone. -/
theorem token_call (bench : Bench) (request : BusCall) :
    (bench.call request).2.event.token = bench.event.token := by
  have hchip : (bench.callChip request).2.event.token = bench.event.token := by
    simp only [callChip]
    split
    · exact token_complete _
    · rfl
  simp only [call]
  split
  · exact (token_noteBegun _).trans hchip
  · exact hchip

/-- A call that the chip does not complete makes no difference to the completion event. -/
theorem call_of_not_completes (hecho : bench.echo = .quiet)
    (h : (bench.chip.answer request).1.completes = false) :
    (bench.call request).2.event = bench.event ∧
      (bench.call request).2.deliveries = bench.deliveries ∧
      (bench.call request).2.echo = bench.echo := by
  simp only [call, callChip, h]
  split
  · simp [noteBegun, hecho]
  · simp

/-- A call reports the newest operation complete, if any. -/
theorem Unreported.call (h : bench.Unreported token) (hold : bench.event.token ≠ token)
    (request : BusCall) : (bench.call request).2.Unreported token := by
  have hchip : (bench.callChip request).2.Unreported token := by
    simp only [callChip, complete]
    split
    · split
      · exact ⟨h.echo, h.deliveries⟩
      · refine ⟨h.echo, fun delivery hdelivery => ?_⟩
        rcases List.mem_cons.mp hdelivery with rfl | hdelivery
        · exact hold
        · exact h.deliveries delivery hdelivery
      · exact ⟨h.echo, h.deliveries⟩
    · exact ⟨h.echo, h.deliveries⟩
  simp only [Bench.call]
  split <;> exact ⟨hchip.echo, hchip.deliveries⟩

/-- Waiting brings no report of an operation that none is on its way for. -/
theorem Unreported.await (h : bench.Unreported token) (patience : Nat) :
    (bench.await patience).2.Unreported token := by
  unfold Bench.await
  split
  · exact ⟨h.echo, h.deliveries⟩
  · split
    · refine ⟨h.echo, fun delivery hdelivery => ?_⟩
      exact h.deliveries delivery (List.mem_filter.mp hdelivery).1
    · exact h

/-- Waiting leaves the token alone. -/
theorem token_await (bench : Bench) (patience : Nat) :
    (bench.await patience).2.event.token = bench.event.token := by
  unfold Bench.await
  split
  · rfl
  · split <;> rfl

/-- What nothing but the chip reports is the next operation as long as none is issued. -/
theorem Unreported.of_token {event : Event} (h : bench.Unreported event.arm.token)
    (htoken : bench.event.token = event.token) : bench.Unreported bench.event.arm.token := by
  have harm : bench.event.arm.token = event.arm.token := by
    simp only [Event.arm, htoken]
  exact harm ▸ h

/-- A wait for an operation that nothing reports complete is in vain. -/
theorem Unreported.await_eq (h : bench.Unreported bench.event.token)
    (hdone : bench.event.done = false) (patience : Nat) :
    bench.await patience = (false, bench) := by
  have hlate : bench.deliveries.any (bench.arrives patience) = false := by
    rw [List.any_eq_false]
    intro delivery hdelivery
    simp [arrives, h.deliveries delivery hdelivery]
  simp [Bench.await, hdone, hlate]

end Bench

namespace Program

variable {bench : Bench} {request : BusCall} {patience : Nat}

/-- A deferred call that the chip does not complete fails. -/
theorem ends_exchange_unanswered (h : bench.Unreported bench.event.arm.token)
    (hcompletes : (bench.chip.answer request).1.completes = false) :
    (exchange request patience).Ends Bench.environment
      (fun ended _ => ∃ fault, ended.2 = .error fault) bench := by
  unfold Ends
  cases hreply : (bench.chip.answer request).1.reply with
  | error cause =>
      rw [run_exchange_error bench request patience hreply]
      exact ⟨_, rfl⟩
  | ok received =>
      obtain ⟨hevent, hdeliveries, hecho⟩ :=
        @Bench.call_of_not_completes bench.arm request h.echo hcompletes
      have hsilent : (bench.arm.call request).2.Unreported (bench.arm.call request).2.event.token :=
        ⟨hecho.trans h.echo, by rw [hdeliveries, hevent]; exact h.deliveries⟩
      rw [run_exchange_ok bench request patience hreply,
        hsilent.await_eq (congrArg Event.done hevent) patience]
      exact ⟨_, rfl⟩

/-- A deferred call makes no difference to the completion of later operations. -/
theorem ends_exchange_later (h : bench.Unreported bench.event.arm.arm.token) :
    (exchange request patience).Ends Bench.environment
      (fun _ after => after.Unreported after.event.arm.token) bench := by
  have harmed : bench.arm.Unreported bench.event.arm.arm.token := ⟨h.echo, h.deliveries⟩
  have hold := (Bench.token_arm_ne bench.event.arm).symm
  have hcalled : (bench.arm.call request).2.Unreported bench.event.arm.arm.token :=
    harmed.call hold request
  have hcalledToken := Bench.token_call bench.arm request
  unfold Ends
  cases hreply : (bench.chip.answer request).1.reply with
  | error cause =>
      rw [run_exchange_error bench request patience hreply]
      exact (hcalled.call (hcalledToken ▸ hold) .abort).of_token
        ((Bench.token_call ..).trans hcalledToken)
  | ok received =>
      have hawaited := hcalled.await patience
      have hawaitedToken := (Bench.token_await _ patience).trans hcalledToken
      rw [run_exchange_ok bench request patience hreply]
      split
      · exact hawaited.of_token hawaitedToken
      · exact (hawaited.call (hawaitedToken ▸ hold) .abort).of_token
          ((Bench.token_call ..).trans hawaitedToken)

end Program

namespace BusAction

variable {bench : Bench} {bus : BusState} {request : BusCall} {patience : Nat}

/-- A transfer that the chip does not complete fails. -/
theorem ends_transfer_unanswered (h : bench.Unreported bench.event.arm.token)
    (hcompletes : (bench.chip.answer request).1.completes = false) :
    (transfer request patience).Ends Bench.environment (fun _ _ _ => False)
      (fun _ _ _ => True) bus bench := by
  unfold transfer
  rw [ends_bind, ends_lift, Action.ends_liftM]
  refine (Program.ends_exchange_unanswered h hcompletes).mono ?_
  rintro ⟨received, outcome⟩ after ⟨fault, rfl⟩
  trivial

/-- After a transfer that succeeds none but the chip reports the next. -/
theorem ends_transfer_later (h : bench.Unreported bench.event.arm.arm.token) :
    (transfer request patience).Ends Bench.environment
      (fun _ _ after => after.Unreported after.event.arm.token) (fun _ _ _ => True) bus bench := by
  unfold transfer
  rw [ends_bind, ends_lift, Action.ends_liftM]
  refine (Program.ends_exchange_later h).mono ?_
  rintro ⟨received, outcome⟩ after hafter
  rw [ends_bind, ends_ofExcept]
  cases outcome with
  | error fault => trivial
  | ok done => exact hafter

end BusAction

/-- The engine gets through to the chip: nobody holds the bus, and the chip hears the width that is
recorded. -/
def Bench.Reaches (bench : Bench) : Prop :=
  ∃ bus, bench.bus = some bus ∧ bench.chip.Hears bus.width

/-- The chip does not hear the width, and this is what it stores. -/
structure Bench.Deaf (width : BusWidth) (memory : Memory) (bench : Bench) : Prop where
  unheard : ¬bench.chip.Hears width
  memory : bench.chip.memory = memory

namespace Bench

variable {bench after : Bench} {width : BusWidth} {memory : Memory} {request : BusCall}

/-- A chip that idles stays deaf and keeps its memory. -/
theorem Deaf.idle (h : bench.Deaf width memory) (hidle : Chip.Idle bench.chip after.chip) :
    after.Deaf width memory :=
  ⟨fun hhears => h.unheard (hhears.of_mode hidle.mode.symm), hidle.memory.trans h.memory⟩

/-- Whether completions are truthful depends on the event and on what reports to it. -/
theorem Truthful.congr (h : bench.Truthful) (hevent : after.event = bench.event)
    (hdeliveries : after.deliveries = bench.deliveries) (hecho : after.echo = bench.echo) :
    after.Truthful :=
  ⟨⟨hecho.trans h.next.echo, by rw [hdeliveries, hevent]; exact h.next.deliveries⟩,
    ⟨hecho.trans h.later.echo, by rw [hdeliveries, hevent]; exact h.later.deliveries⟩⟩

/-- A call that completes nothing leaves completions truthful. -/
theorem Truthful.call (h : bench.Truthful)
    (hcompletes : (bench.chip.answer request).1.completes = false) :
    (bench.call request).2.Truthful := by
  obtain ⟨hevent, hdeliveries, hecho⟩ := call_of_not_completes h.next.echo hcompletes
  exact h.congr hevent hdeliveries hecho

end Bench

namespace Engine

variable {bench start after : Bench} {engine : Engine} {bus : BusState} {memory : Memory}
  {command : Command} {patience : Nat}

/-- Taking the bus leaves completions truthful. -/
theorem Taken.truthful (htaken : Taken bench start) (h : bench.Truthful) : start.Truthful :=
  h.congr htaken.event htaken.deliveries htaken.echo

/-- An action that does not get through finds a chip that does not hear it, or no bus at all. -/
theorem ends_withBus_unreached {α : Type} {action : BusAction α} {ok : α → Bench → Prop}
    {bad : Fault → Bench → Prop} (h : ¬bench.Reaches) (hbusy : bad .busy bench)
    (haction : ∀ bus start, start.Deaf bus.width bench.chip.memory →
      (bench.Truthful → start.Truthful) →
        action.Ends Bench.environment
          (fun value last after => ok value { after with bus := some last })
          (fun fault last after => bad fault { after with bus := some last }) bus start) :
    (engine.withBus action).Ends Bench.environment ok bad bench := by
  cases hbus : bench.bus with
  | none => exact ends_withBus_busy hbus hbusy
  | some bus =>
      refine ends_withBus hbus fun start htaken => haction _ start ?_ htaken.truthful
      exact Bench.Deaf.idle ⟨fun hhears => h ⟨bus, hbus, hhears⟩, rfl⟩ htaken.chip

section Deaf

variable {ok : Unit → BusState → Bench → Prop} {bad : Fault → BusState → Bench → Prop}
  (h : bench.Deaf bus.width memory)

include h

/-- A command that is carried out at once seems to succeed, even if the chip does not hear it. -/
theorem ends_command_unheard (htruthful : bench.Truthful) (hwidth : command.width = bus.width)
    (hwake : command.instruction ≠ Opcode.releasePowerDown.code)
    (hok : ∀ after : Bench, after.Deaf bus.width memory → after.Truthful → ok () bus after)
    (hbad : ∀ fault (after : Bench), after.chip.memory = memory → bad fault bus after) :
    (discard (BusAction.call (.command command))).Ends Bench.environment ok bad bus bench := by
  have hidle : Chip.Idle bench.chip (bench.call (.command command)).2.chip := by
    rw [Bench.chip_call]
    refine Chip.idle_answer_of_not_hears h.unheard fun sent hsent => ?_
    obtain rfl := Option.some.inj hsent
    exact ⟨hwidth, hwake⟩
  have hdeaf := h.idle hidle
  unfold BusAction.call
  rw [BusAction.ends_discard, BusAction.ends_lift, Action.ends_iff, Action.run_call]
  cases (bench.chip.answer (.command command)).1.reply with
  | error cause => exact hbad _ _ hdeaf.memory
  | ok received => exact hok _ hdeaf (htruthful.call rfl)

/-- Enabling a write changes nothing on a chip that does not hear. -/
theorem ends_enableWrite_unheard (htruthful : bench.Truthful)
    (hok : ∀ after : Bench, after.Deaf bus.width memory → after.Truthful → ok () bus after)
    (hbad : ∀ fault (after : Bench), after.chip.memory = memory → bad fault bus after) :
    enableWrite.Ends Bench.environment ok bad bus bench := by
  have hwake : Opcode.writeEnable.code ≠ Opcode.releasePowerDown.code := by decide
  unfold enableWrite BusAction.instruct
  rw [BusAction.ends_bind, BusAction.ends_width]
  exact ends_command_unheard h htruthful rfl hwake hok hbad

/-- Waiting for a chip that does not hear the poll fails. -/
theorem ends_waitWhileBusy_unheard (hnext : bench.Unreported bench.event.arm.token)
    (hbad : ∀ fault (after : Bench), after.chip.memory = memory → bad fault bus after) :
    (waitWhileBusy patience).Ends Bench.environment ok bad bus bench := by
  have hcompletes := Chip.not_completes_of_not_hears h.unheard
  have hidle : Chip.Idle bench.chip (bench.chip.answer (.poll (idlePoll bus.width))).2 :=
    Chip.idle_answer_of_not_hears h.unheard fun command hcommand => by
      simp [BusCall.command?] at hcommand
  unfold waitWhileBusy
  rw [BusAction.ends_bind, BusAction.ends_width, BusAction.ends_discard]
  refine ((BusAction.ends_transfer bench bus (.poll (idlePoll bus.width)) patience).and
    (BusAction.ends_transfer_unanswered hnext hcompletes)).mono ?_ ?_
  · exact fun _ _ _ hended => absurd hended.2 id
  · rintro fault _ after ⟨⟨rfl, hafter, -⟩, -⟩
    exact hbad fault after (h.idle (hidle.trans hafter.chip)).memory

end Deaf

/-- A page program that the chip does not hear fails. -/
theorem ends_pageProgram_unheard (h : ¬bench.Reaches) (htruthful : bench.Truthful)
    (address : UInt32) (bytes : Bytes) :
    (engine.pageProgram address bytes).Ends Bench.environment (fun _ _ => False)
      (fun _ after => after.chip.memory = bench.chip.memory) bench := by
  have hwake : Opcode.pageProgram.code ≠ Opcode.releasePowerDown.code := by decide
  unfold pageProgram
  rw [Action.ends_bind, Action.ends_discard, Action.ends_ofExcept]
  cases engine.requireDevice with
  | error fault => exact rfl
  | ok device =>
      refine ends_withBus_unreached h rfl fun bus start hstart hreporting => ?_
      rw [BusAction.ends_bind, BusAction.ends_width, BusAction.ends_bind]
      refine ends_enableWrite_unheard hstart (hreporting htruthful)
        (fun middle hmiddle hreported => ?_) fun fault after hafter => hafter
      rw [BusAction.ends_bind, BusAction.ends_discard]
      have hidle : Chip.Idle middle.chip (middle.chip.answer (.start
          (((Command.instruct Opcode.pageProgram.code bus.width).atAddress address
            bus.width).writing bytes bus.width))).2 := by
        refine Chip.idle_answer_of_not_hears hmiddle.unheard fun sent hsent => ?_
        obtain rfl := Option.some.inj hsent
        exact ⟨rfl, hwake⟩
      -- The controller reports the command complete, but not the poll after it.
      refine ((BusAction.ends_transfer middle _ _ _).and
        (BusAction.ends_transfer_later hreported.later)).mono ?_ ?_
      · rintro received _ done ⟨⟨rfl, hdone, -⟩, hnext⟩
        exact ends_waitWhileBusy_unheard (hmiddle.idle (hidle.trans hdone.chip)) hnext
          fun fault after hafter => hafter
      · rintro fault _ after ⟨⟨rfl, hafter, -⟩, -⟩
        exact (hmiddle.idle (hidle.trans hafter.chip)).memory

/-- An erase that the chip does not hear fails. -/
theorem ends_erase_unheard (h : ¬bench.Reaches) (htruthful : bench.Truthful) (address : UInt32)
    (kind : EraseKind) :
    (engine.erase address kind).Ends Bench.environment (fun _ _ => False)
      (fun _ after => after.chip.memory = bench.chip.memory) bench := by
  have hwake : ∀ width, (kind.command address width).instruction ≠
      Opcode.releasePowerDown.code := by
    intro width hcode
    rw [kind.instruction_command] at hcode
    exact kind.not_wakes (hcode ▸ List.mem_cons_of_mem _ List.mem_cons_self)
  have hheld : (engine.withBus (engine.eraseHeld address kind)).Ends Bench.environment
      (fun _ _ => False) (fun _ after => after.chip.memory = bench.chip.memory) bench := by
    refine ends_withBus_unreached h rfl fun bus start hstart hreporting => ?_
    unfold eraseHeld
    rw [BusAction.ends_bind, BusAction.ends_width, BusAction.ends_bind]
    refine ends_enableWrite_unheard hstart (hreporting htruthful)
      (fun middle hmiddle hreported => ?_) fun fault after hafter => hafter
    rw [BusAction.ends_bind]
    refine ends_command_unheard hmiddle hreported (kind.width_command ..) (hwake _)
      (fun done hdone hnext => ?_) fun fault after hafter => hafter
    exact ends_waitWhileBusy_unheard hdone hnext.next fun fault after hafter => hafter
  rw [erase_eq, Action.ends_bind, Action.ends_discard, Action.ends_ofExcept]
  cases engine.requireDevice with
  | error fault => exact rfl
  | ok device =>
      show Action.Ends _ (_ >>= _) _ _ _
      rw [Action.ends_bind, Action.ends_ofExcept]
      generalize (if kind = .chip then .ok () else engine.checkRange address 1) = checked
      cases checked with
      | error fault => exact rfl
      | ok _ => exact hheld

end Engine

end NorFlash
