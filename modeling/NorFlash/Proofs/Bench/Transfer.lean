import NorFlash.Proofs.Bench.Run

/-!
# Transfers on a bench

The exact ends of the two ways an operation uses the controller: `ends_transfer` for a deferred call
that is waited for, and `ends_withBus` for an action that takes the bus. On a responsive bench a
deferred call that the chip completes is never given up.
-/

namespace NorFlash

variable {α : Type}

namespace Bench

variable {bench : Bench} {request : BusCall}

/-- `after` is the bench after a call, and after an abort in case the call was given up. -/
structure After (bench : Bench) (request : BusCall) (after : Bench) : Prop where
  chip : Chip.Idle (bench.chip.answer request).2 after.chip
  latches : after.chip.latches = (bench.chip.answer request).2.latches
  bus : after.bus = bench.bus
  commands : after.commands = (bench.call request).2.commands
  idReads : after.idReads = (bench.call request).2.idReads

/-- A call adds a reading of the identification if it is one. -/
theorem idReads_call (bench : Bench) (request : BusCall) :
    (bench.call request).2.idReads =
      bench.idReads + if request.code? = some Opcode.readJedecId.code then 1 else 0 := by
  unfold idReads
  rw [trace_call, Array.toList_push, List.countP_append]
  simp [TraceEntry.readsId, List.countP_cons]

/-- To abort leaves the chip alone, but for the mapping. -/
theorem idle_abort (chip : Chip) : Chip.Idle chip (chip.answer .abort).2 :=
  ⟨⟨rfl, rfl, rfl, rfl, fun h => h, rfl⟩, rfl, rfl, rfl, rfl⟩

/-- A call leads to the bench after it. -/
theorem after_call (bench : Bench) (request : BusCall) :
    bench.After request (bench.call request).2 :=
  ⟨chip_call bench request ▸ Chip.idle_refl _, congrArg Chip.latches (chip_call bench request),
    bus_call bench request, rfl, rfl⟩

/-- Waiting for the completion is part of what comes after a call. -/
theorem After.await {after : Bench} (h : bench.After request after) (patience : Nat) :
    bench.After request (after.await patience).2 := by
  obtain ⟨hchip, hlatches, hbus, hcommands, hidReads⟩ := h
  have hkept := chip_await after patience
  refine ⟨hkept.symm ▸ hchip, (congrArg Chip.latches hkept).trans hlatches,
    (bus_await after patience).trans hbus, ?_, ?_⟩
  · rw [← hcommands]
    exact congrArg (·.toList.filterMap TraceEntry.command?) (trace_await after patience)
  · rw [← hidReads]
    exact congrArg (·.toList.countP TraceEntry.readsId) (trace_await after patience)

/-- To abort once the completion is overdue is part of what comes after a call. -/
theorem After.abort {after : Bench} (h : bench.After request after)
    (hchip : after.chip = (bench.chip.answer request).2) :
    bench.After request (after.call .abort).2 := by
  have hcalled := chip_call after .abort
  refine ⟨?_, ?_, (bus_call ..).trans h.bus, ?_, ?_⟩
  · rw [hcalled, hchip]
    exact idle_abort _
  · rw [hcalled, hchip]
    rfl
  · rw [commands_call, h.commands]
    exact List.append_nil _
  · rw [idReads_call, h.idReads]
    rfl

/-- Issuing an operation on the completion event makes no difference to the controller. -/
theorem After.of_arm {after : Bench} (h : bench.arm.After request after) :
    bench.After request after := by
  refine ⟨h.chip, h.latches, h.bus, h.commands.trans ?_, h.idReads.trans ?_⟩
  · rw [commands_call, commands_call]
    rfl
  · rw [idReads_call, idReads_call]
    rfl

/-- The chip completes only what it does not refuse. -/
theorem reply_of_completes {chip : Chip} (h : (chip.answer request).1.completes = true) :
    (chip.answer request).1.reply.isOk = true := by
  cases request with
  | command command => simp [Chip.answer] at h
  | start command => exact h
  | poll poll =>
      simp only [Chip.answer, Chip.poll] at h ⊢
      split at h
      · simp at h
      · rfl
  | map command => simp [Chip.answer] at h
  | abort => simp [Chip.answer] at h

/-- Noting an operation begun does not take a completion back. -/
theorem done_noteBegun (h : bench.event.done = true) : bench.noteBegun.event.done = true := by
  unfold noteBegun
  simp only
  split
  · exact h
  · rfl
  · simp [Event.signalFor, Event.signal]
  · unfold Event.signalFor
    split
    · rfl
    · exact h
  · exact h

/-- With immediate completion, the completion event is set before the controller returns. -/
theorem done_call (hcompletion : bench.chip.completion = .immediate)
    (hcompletes : (bench.chip.answer request).1.completes = true) :
    (bench.call request).2.event.done = true := by
  have hdone : (bench.callChip request).2.event.done = true := by
    have hmode : (bench.chip.answer request).2.completion = .immediate :=
      (Chip.sameBuild_answer bench.chip request).completion.trans hcompletion
    simp [callChip, hcompletes, complete, hmode, Event.signalFor_token, Event.signal]
  simp only [call]
  split
  · exact done_noteBegun hdone
  · exact hdone

end Bench

namespace Program

variable (bench : Bench) (request : BusCall) (patience : Nat)

/-- An exchange whose call fails is aborted. -/
theorem run_exchange_error {cause : BusFault}
    (hreply : (bench.chip.answer request).1.reply = .error cause) :
    (exchange request patience).run Bench.environment bench =
      ((none, .error (.bus cause)), ((bench.arm.call request).2.call .abort).2) := by
  have hcall : (bench.arm.call request).1 = .error cause := hreply
  simp only [exchange, run, Bench.environment, hcall]

/-- An exchange whose call is answered ends with the completion, or is aborted when that is
overdue. -/
theorem run_exchange_ok {received : Option Bytes}
    (hreply : (bench.chip.answer request).1.reply = .ok received) :
    (exchange request patience).run Bench.environment bench =
      if ((bench.arm.call request).2.await patience).1 then
        ((received, .ok ()), ((bench.arm.call request).2.await patience).2)
      else
        ((received, .error .timeout),
          (((bench.arm.call request).2.await patience).2.call .abort).2) := by
  have hcall : (bench.arm.call request).1 = .ok received := hreply
  simp only [exchange, run, Bench.environment, hcall]
  cases ((bench.arm.call request).2.await patience).1 <;> rfl

/-- A deferred call is carried out once. It is refused, or it delivers what it received whether it
completes in time or not; on a responsive bench it does once the chip has completed it. -/
theorem ends_exchange :
    (exchange request patience).Ends Bench.environment
      (fun ended after => bench.After request after ∧
        (match (bench.chip.answer request).1.reply with
          | .error cause => ended = (none, .error (.bus cause))
          | .ok received => ended.1 = received ∧ (ended.2 = .ok () ∨ ended.2 = .error .timeout)) ∧
        (bench.chip.Responsive → (bench.chip.answer request).1.completes = true →
          ended.2 = .ok ()))
      bench := by
  have hcall := Bench.after_call bench.arm request
  unfold Ends
  cases hreply : (bench.chip.answer request).1.reply with
  | error cause =>
      rw [run_exchange_error bench request patience hreply]
      refine ⟨(hcall.abort (Bench.chip_call ..)).of_arm, rfl, fun _ hcompletes => ?_⟩
      have hisOk := Bench.reply_of_completes hcompletes
      simp [hreply, Except.isOk, Except.toBool] at hisOk
  | ok received =>
      rw [run_exchange_ok bench request patience hreply]
      -- A call that does not complete in time has been carried out all the same.
      have hawait := hcall.await patience
      split
      · exact ⟨hawait.of_arm, ⟨rfl, .inl rfl⟩, fun _ _ => rfl⟩
      · rename_i hlate
        refine ⟨(hawait.abort ?_).of_arm, ⟨rfl, .inr rfl⟩, fun hresponsive hcompletes => ?_⟩
        · rw [Bench.chip_await, Bench.chip_call]
        · have hdone : (bench.arm.call request).2.event.done = true :=
            Bench.done_call hresponsive.2 hcompletes
          simp [Bench.await, hdone] at hlate

end Program

namespace BusAction

variable (bench : Bench) (bus : BusState) (request : BusCall) (patience : Nat)

/-- A transfer succeeds with what the call received, or fails because the call was refused or did
not complete in time, which does not happen on a responsive bench. -/
theorem ends_transfer :
    (transfer request patience).Ends Bench.environment
      (fun received last after => last = bus ∧ bench.After request after ∧
        (bench.chip.answer request).1.reply = .ok received)
      (fun fault last after => last = bus ∧ bench.After request after ∧
        ((∃ cause, (bench.chip.answer request).1.reply = .error cause ∧ fault = .bus cause) ∨
          fault = .timeout) ∧
        (bench.chip.Responsive → (bench.chip.answer request).1.completes = false))
      bus bench := by
  unfold transfer
  rw [ends_bind, ends_lift, Action.ends_liftM]
  refine (Program.ends_exchange bench request patience).mono ?_
  rintro ⟨received, outcome⟩ after ⟨hafter, hended, hresponsive⟩
  rw [ends_bind, ends_ofExcept]
  cases hreply : (bench.chip.answer request).1.reply with
  | error cause =>
      rw [hreply] at hended
      obtain ⟨rfl, rfl⟩ := Prod.mk.inj hended
      refine ⟨rfl, hafter, .inl ⟨cause, rfl, rfl⟩, fun h => ?_⟩
      simpa using hresponsive h
  | ok sent =>
      rw [hreply] at hended
      obtain ⟨rfl, rfl | rfl⟩ := hended
      · exact ⟨rfl, hafter, rfl⟩
      · refine ⟨rfl, hafter, .inr rfl, fun h => ?_⟩
        simpa using hresponsive h

end BusAction

namespace Engine

variable {engine : Engine} {action : BusAction α} {bench : Bench} {bus : BusState}
  {ok : α → Bench → Prop} {bad : Fault → Bench → Prop}

/-- An action that holds the bus runs with the bus as it was left, and leaves it behind. -/
theorem ends_holdingBus (hbus : bench.bus = some bus) :
    (engine.holdingBus action).Ends Bench.environment ok bad bench ↔
      action.Ends Bench.environment
        (fun value last after => ok value { after with bus := some last })
        (fun fault last after => bad fault { after with bus := some last })
        bus { bench with bus := none } := by
  have hacquire : Bench.environment.acquire engine.timeouts.command bench =
      (some bus, { bench with bus := none }) := by
    simp [Bench.environment, hbus]
  have hrun : (engine.holdingBus action).run.run Bench.environment bench =
      (action.run.run bus >>= fun ended => Program.release ended.2 (.done ended.1)).run
        Bench.environment { bench with bus := none } := by
    simp only [holdingBus, ExceptT.run_mk, Program.run, hacquire]
  rw [Action.ends_iff, hrun, Program.run_bind]
  unfold BusAction.Ends Program.Ends
  generalize (action.run.run bus).run Bench.environment { bench with bus := none } = ended
  obtain ⟨⟨result | result, last⟩, after⟩ := ended <;> rfl

/-- What an action finds when it takes a free bus: the chip as it was, and no longer mapped. -/
structure Taken (bench start : Bench) : Prop where
  bus : start.bus = none
  chip : Chip.Idle bench.chip start.chip
  latches : start.chip.latches = bench.chip.latches
  commands : start.commands = bench.commands
  idReads : start.idReads = bench.idReads
  event : start.event = bench.event
  deliveries : start.deliveries = bench.deliveries
  echo : start.echo = bench.echo

/-- An action that takes the bus runs after the mapping has been left. -/
theorem ends_withBus (hbus : bench.bus = some bus)
    (h : ∀ start, Taken bench start →
      action.Ends Bench.environment
        (fun value last after => ok value { after with bus := some last })
        (fun fault last after => bad fault { after with bus := some last })
        { bus with mapped := false } start) :
    (engine.withBus action).Ends Bench.environment ok bad bench := by
  unfold withBus
  rw [ends_holdingBus hbus, BusAction.ends_bind]
  obtain ⟨width, mapped⟩ := bus
  cases mapped with
  | false => exact h _ ⟨rfl, Chip.idle_refl _, rfl, rfl, rfl, rfl, rfl, rfl⟩
  | true =>
      -- The mapping is left by an abort, which is a call to the chip of its own.
      refine h _ ⟨?_, ?_, ?_, ?_, ?_, rfl, rfl, rfl⟩
      · exact Bench.bus_call ..
      · exact (Bench.chip_call ..).symm ▸ Bench.idle_abort _
      · exact (congrArg Chip.latches (Bench.chip_call ..)).trans rfl
      · exact (Bench.commands_call ..).trans (List.append_nil _)
      · exact Bench.idReads_call ..

/-- An action that takes the bus fails if it is not to be had. -/
theorem ends_withBus_busy (hbus : bench.bus = none) (hbusy : bad .busy bench) :
    (engine.withBus action).Ends Bench.environment ok bad bench := by
  have hacquire : Bench.environment.acquire engine.timeouts.command bench = (none, bench) := by
    simp [Bench.environment, ← hbus]
  rw [withBus, Action.ends_iff]
  simp only [holdingBus, ExceptT.run_mk, Program.run, hacquire]
  exact hbusy

end Engine

end NorFlash
