import NorFlash.Engine.Basic
import NorFlash.Proofs.Engine.Dialogue

/-!
# Custody of the bus

A caller asks nothing of the controller unless it holds the bus, and it holds the bus for one turn
at a time. While the controller is in memory-mapped mode, an abort is all that is asked of it, and
the flag given back with the bus says whether it is. `Custody.next` is that rule, read one
interaction at a time. A program proceeds if it keeps to the rule and is not rejected, whatever it
is answered; a checked one proceeds, or it ends at once. There is one lemma for each way of putting
actions together.
-/

namespace NorFlash

variable {α β : Type}

/-- The fault of a request that is turned down for what it asks. -/
def Fault.isRejection : Fault → Bool
  | notIdentified | addressOutOfRange _ | wrongLength _ _ => true
  | _ => false

/-- The result of a request that was turned down. -/
def Rejected (result : Except Fault α) : Prop :=
  ∃ fault, result = .error fault ∧ fault.isRejection = true

/-- Whether the controller is in memory-mapped mode after a call and its reply, if `mapped` tells
whether it was before. -/
def BusCall.maps (mapped : Bool) : BusCall → Reply → Bool
  | map _, .ok _ => true
  | abort, _ => false
  | _, _ => mapped

/-- Whether a caller holds the bus, and then whether the controller is in memory-mapped mode. -/
inductive Custody where
  | away
  | holding (mapped : Bool)

namespace Custody

/-- What may be said in a custody, and the custody after it. -/
def next : Rule Custody
  | away, .acquire none => some away
  | away, .acquire (some bus) => some (holding bus.mapped)
  | away, .report _ => some away
  | holding mapped, .release bus => if bus.mapped = mapped then some away else none
  | holding false, .arm | holding false, .await _ => some (holding false)
  | holding mapped, .call request reply =>
      if request = .abort ∨ mapped = false then some (holding (request.maps mapped reply))
      else none
  | _, _ => none

/-- A report makes no difference to the custody. -/
theorem eq_of_next_report {custody after : Custody} {count : Nat}
    (h : custody.next (.report count) = some after) : after = custody := by
  cases custody with
  | away => exact (Option.some.inj h).symm
  | holding mapped => simp [next] at h

end Custody

/-- Whatever the program is answered, it keeps to the rule, ends in the custody it began in, and
ends with no excluded value. -/
def Program.Proceeds (custody : Custody) (excluded : α → Prop) (program : Program α) : Prop :=
  program.Follows Custody.next (fun value after => after = custody ∧ ¬excluded value) custody

/-- As `Program.Proceeds`, excluding that the action is rejected. -/
def Action.Proceeds (custody : Custody) (action : Action α) : Prop :=
  Program.Proceeds custody Rejected action.run

/-- The action keeps to the rule while it holds an unmapped bus, which it leaves unmapped, and ends
with no excluded result. -/
def BusAction.ProceedsWith (excluded : Except Fault α → Prop) (action : BusAction α) : Prop :=
  ∀ width, Program.Proceeds (.holding false)
    (fun ended : Except Fault α × BusState => ended.2.mapped = true ∨ excluded ended.1)
    (action.run.run ⟨width, false⟩)

/-- As `Action.Proceeds`, while an unmapped bus is held. -/
abbrev BusAction.Proceeds (action : BusAction α) : Prop :=
  action.ProceedsWith Rejected

/-- The program ends at once, or it proceeds. -/
def Program.Checked (excluded : α → Prop) (program : Program α) : Prop :=
  (∃ value, program = pure value) ∨ program.Proceeds .away excluded

/-- The action ends at once, or it proceeds. -/
def Action.Checked (action : Action α) : Prop :=
  Program.Checked Rejected action.run

/-- A request that succeeded was not rejected. -/
theorem not_rejected_ok (value : α) : ¬Rejected (.ok value) := by
  simp [Rejected]

/-- Whether a result is rejected depends on its fault. -/
theorem rejected_error_iff {fault : Fault} :
    Rejected (.error fault : Except Fault α) ↔ fault.isRejection = true := by
  simp [Rejected]

/-- As `Rejected`, where a part of the value tells what something came to. -/
def RejectedIn (part : α → Except Fault β) : Except Fault α → Prop
  | .ok value => Rejected (part value)
  | .error fault => fault.isRejection = true

/-- A fault may be passed on as the result of something else. -/
theorem not_rejected_error {fault : Fault} (h : ¬Rejected (.error fault : Except Fault α)) :
    ¬Rejected (.error fault : Except Fault β) := by
  rwa [rejected_error_iff] at h ⊢

namespace Program

variable {custody : Custody} {excluded : α → Prop} {program : Program α}

/-- Doing nothing keeps custody of the bus. -/
theorem proceeds_pure {value : α} (h : ¬excluded value) :
    (pure value : Program α).Proceeds custody excluded :=
  ⟨rfl, h⟩

/-- A program that goes on proceeds if both its parts do. -/
theorem Proceeds.bind {shunned : β → Prop} {next : α → Program β}
    (h : program.Proceeds custody excluded)
    (hnext : ∀ value, ¬excluded value → (next value).Proceeds custody shunned) :
    (program >>= next).Proceeds custody shunned := by
  refine Follows.bind h fun value after hafter => ?_
  obtain ⟨rfl, hvalue⟩ := hafter
  exact hnext value hvalue

/-- Changing the value does not change the custody. -/
theorem Proceeds.map {shunned : β → Prop} {change : α → β}
    (h : program.Proceeds custody excluded)
    (hchange : ∀ value, shunned (change value) → excluded value) :
    (change <$> program).Proceeds custody shunned := by
  rw [map_eq_pure_bind]
  exact h.bind fun value hvalue => proceeds_pure (mt (hchange value) hvalue)

/-- Leaving the reports out does not change the custody. -/
theorem Proceeds.silenced (h : program.Proceeds custody excluded) :
    program.silenced.Proceeds custody excluded :=
  Follows.silenced h fun _ _ _ => Custody.eq_of_next_report

/-- A deferred call is made while the bus is held and unmapped, and so is the abort after it. -/
theorem proceeds_exchange {request : BusCall} (hdeferred : request.isDeferred = true)
    (patience : Nat) :
    (exchange request patience).Proceeds (.holding false)
      fun ended : Option Bytes × Except Fault Unit => Rejected ended.2 := by
  have hcall : ∀ reply, request.maps false reply = false := by
    intro reply
    cases request with
    | start | poll => rfl
    | command | map | abort => simp [BusCall.isDeferred] at hdeferred
  refine ⟨.holding false, rfl, fun reply => ⟨.holding false, by simp [Custody.next, hcall], ?_⟩⟩
  cases reply with
  | error cause => exact fun _ => ⟨.holding false, rfl, rfl, by simp [Rejected, Fault.isRejection]⟩
  | ok received =>
      intro arrived
      refine ⟨.holding false, rfl, ?_⟩
      cases arrived with
      | true => exact ⟨rfl, not_rejected_ok ()⟩
      | false =>
          exact fun _ => ⟨.holding false, rfl, rfl, by simp [Rejected, Fault.isRejection]⟩

/-- Changing the value does not change what is checked. -/
theorem Checked.map {shunned : β → Prop} {change : α → β} (h : program.Checked excluded)
    (hchange : ∀ value, shunned (change value) → excluded value) :
    (change <$> program).Checked shunned := by
  obtain ⟨value, rfl⟩ | h := h
  · exact .inl ⟨change value, rfl⟩
  · exact .inr (h.map hchange)

/-- A checked program keeps to the rule. -/
theorem Checked.follows (h : program.Checked excluded) :
    program.Follows Custody.next (fun _ after => after = .away) .away := by
  obtain ⟨value, rfl⟩ | h := h
  · rfl
  · exact Follows.mono h fun _ _ hafter => hafter.1

/-- Leaving the reports out does not change what is checked. -/
theorem Checked.silenced (h : program.Checked excluded) : program.silenced.Checked excluded := by
  obtain ⟨value, rfl⟩ | h := h
  · exact .inl ⟨value, rfl⟩
  · exact .inr h.silenced

end Program

namespace Action

variable {custody : Custody} {action : Action α}

/-- An action that does nothing keeps custody of the bus. -/
theorem proceeds_pure (value : α) : Action.Proceeds custody (pure value) :=
  Program.proceeds_pure (not_rejected_ok value)

/-- To fail without rejecting anything keeps custody of the bus. -/
theorem proceeds_throw {fault : Fault} (h : fault.isRejection = false) :
    Action.Proceeds custody (throw fault : Action α) :=
  Program.proceeds_pure (by simp [Rejected, h])

/-- A report is made without the bus. -/
theorem proceeds_report (count : Nat) : (Action.report count).Proceeds .away :=
  ⟨.away, rfl, rfl, not_rejected_ok ()⟩

/-- A call that does not map the controller leaves it unmapped. -/
theorem proceeds_call {request : BusCall} (h : ∀ reply, request.maps false reply = false) :
    (Action.call request).Proceeds (.holding false) := by
  intro reply
  refine ⟨.holding false, by simp [Custody.next, h], ?_⟩
  cases reply with
  | error cause => exact ⟨rfl, by simp [Rejected, Fault.isRejection]⟩
  | ok received => exact ⟨rfl, not_rejected_ok received⟩

/-- An action that goes on proceeds if both its parts do. -/
theorem Proceeds.bind {next : α → Action β} (h : action.Proceeds custody)
    (hnext : ∀ value, (next value).Proceeds custody) :
    Action.Proceeds custody (action >>= next) := by
  refine Program.Proceeds.bind h fun result hresult => ?_
  cases result with
  | ok value => exact hnext value
  | error fault => exact Program.proceeds_pure (not_rejected_error hresult)

/-- An action whose faults are handled proceeds if the handling does. -/
theorem Proceeds.tryCatch {handler : Fault → Action α} (h : action.Proceeds custody)
    (hhandler : ∀ fault, (handler fault).Proceeds custody) :
    Action.Proceeds custody (tryCatch action handler) := by
  refine Program.Proceeds.bind h fun result hresult => ?_
  cases result with
  | ok value => exact Program.proceeds_pure hresult
  | error fault => exact hhandler fault

/-- Whether the value is used does not change the custody. -/
theorem Proceeds.discard (h : action.Proceeds custody) :
    Action.Proceeds custody (discard action) :=
  h.bind fun _ => proceeds_pure ()

/-- Actions one after the other proceed if each does. -/
theorem proceeds_forM {list : List α} {action : α → Action Unit}
    (h : ∀ item ∈ list, (action item).Proceeds custody) :
    Action.Proceeds custody (list.forM action) := by
  induction list with
  | nil => exact proceeds_pure ()
  | cons first rest ih =>
      exact (h first List.mem_cons_self).bind fun _ =>
        ih fun item hitem => h item (List.mem_cons_of_mem first hitem)

/-- Actions one after the other, with their values, proceed if each does. -/
theorem proceeds_mapM {list : List α} {action : α → Action β}
    (h : ∀ item ∈ list, (action item).Proceeds custody) :
    Action.Proceeds custody (list.mapM action) := by
  rw [← List.mapM'_eq_mapM]
  induction list with
  | nil => exact proceeds_pure []
  | cons first rest ih =>
      exact (h first List.mem_cons_self).bind fun _ =>
        (ih fun item hitem => h item (List.mem_cons_of_mem first hitem)).bind fun _ =>
          proceeds_pure _

/-- A check fails at once, or it lets what follows go ahead. -/
theorem checked_ofExcept_bind {result : Except Fault α} {next : α → Action β}
    (h : ∀ value, result = .ok value → (next value).Checked) :
    Action.Checked (MonadExcept.ofExcept result >>= next) := by
  cases result with
  | ok value => exact h value rfl
  | error fault => exact .inl ⟨.error fault, rfl⟩

end Action

namespace BusAction

variable {action : BusAction α}

/-- A bus action that does nothing proceeds. -/
theorem proceeds_pure (value : α) : BusAction.Proceeds (pure value) :=
  fun _ => Program.proceeds_pure (by simp [Rejected])

/-- A bus action that goes on proceeds if both its parts do, with what they exclude. -/
theorem ProceedsWith.bind {excluded : Except Fault α → Prop} {shunned : Except Fault β → Prop}
    {next : α → BusAction β} (h : action.ProceedsWith excluded)
    (hnext : ∀ value, ¬excluded (.ok value) → (next value).ProceedsWith shunned)
    (hfault : ∀ fault, shunned (.error fault) → excluded (.error fault)) :
    BusAction.ProceedsWith shunned (action >>= next) := by
  intro width
  refine Program.Proceeds.bind (h width) fun ended hended => ?_
  obtain ⟨result, ⟨after, mapped⟩⟩ := ended
  obtain ⟨hmapped, hresult⟩ := not_or.mp hended
  cases mapped with
  | true => exact absurd rfl hmapped
  | false =>
      cases result with
      | ok value => exact hnext value hresult after
      | error fault =>
          exact Program.proceeds_pure (not_or.mpr ⟨hmapped, mt (hfault fault) hresult⟩)

/-- A bus action that goes on proceeds if both its parts do. -/
theorem Proceeds.bind {next : α → BusAction β} (h : action.Proceeds)
    (hnext : ∀ value, (next value).Proceeds) : BusAction.Proceeds (action >>= next) :=
  ProceedsWith.bind h (fun value _ => hnext value) fun _ => rejected_error_iff.mpr ∘
    rejected_error_iff.mp

/-- Whether the value of a bus action is used does not change the custody. -/
theorem Proceeds.discard (h : action.Proceeds) : BusAction.Proceeds (discard action) :=
  h.bind fun _ => proceeds_pure ()

/-- A bus action whose faults are ignored proceeds if it does. -/
theorem Proceeds.attempt (h : action.Proceeds) : BusAction.Proceeds (attempt action) := by
  intro width
  refine Program.Proceeds.bind (h.discard width) fun ended hended => ?_
  obtain ⟨result, after⟩ := ended
  obtain ⟨hmapped, -⟩ := not_or.mp hended
  cases result <;> exact Program.proceeds_pure (not_or.mpr ⟨hmapped, not_rejected_ok ()⟩)

/-- What depends on the width proceeds if it does at every width. -/
theorem proceeds_width_bind {excluded : Except Fault α → Prop} {next : BusWidth → BusAction α}
    (h : ∀ width, (next width).ProceedsWith excluded) :
    BusAction.ProceedsWith excluded (BusAction.width >>= next) :=
  fun width => h width width

/-- Recording a width proceeds. -/
theorem proceeds_setWidth (width : BusWidth) : (setWidth width).Proceeds :=
  fun _ => Program.proceeds_pure (by simp [Rejected])

/-- An action that keeps custody of an unmapped bus proceeds. -/
theorem proceeds_lift {action : Action α} (h : action.Proceeds (.holding false)) :
    (lift action).Proceeds :=
  fun _ => Program.Proceeds.bind h fun _ hresult => Program.proceeds_pure (by simpa using hresult)

/-- A command proceeds. -/
theorem proceeds_command (command : Command) : (call (.command command)).Proceeds :=
  proceeds_lift (Action.proceeds_call fun _ => rfl)

/-- An instruction alone proceeds. -/
theorem proceeds_instruct (code : UInt8) (width : BusWidth) : (instruct code width).Proceeds :=
  (proceeds_command _).discard

/-- The exchange of a deferred call proceeds. -/
theorem proceeds_exchange {request : BusCall} (h : request.isDeferred = true) (patience : Nat) :
    (lift (liftM (Program.exchange request patience))).ProceedsWith (RejectedIn Prod.snd) :=
  fun _ => Program.Proceeds.bind (Program.Proceeds.bind (Program.proceeds_exchange h patience)
    fun ended hended => Program.proceeds_pure fun h : RejectedIn Prod.snd (.ok ended) => hended h)
      fun _ hresult => Program.proceeds_pure (by simpa using hresult)

/-- The transfer of a deferred call proceeds. -/
theorem proceeds_transfer {request : BusCall} (h : request.isDeferred = true) (patience : Nat) :
    (transfer request patience).Proceeds := by
  refine (proceeds_exchange h patience).bind ?_ fun _ => rejected_error_iff.mp
  rintro ⟨received, outcome⟩ hended width
  cases outcome with
  | ok _ => exact Program.proceeds_pure (by simp [Rejected])
  | error fault =>
      exact Program.proceeds_pure (not_or.mpr ⟨Bool.false_ne_true, not_rejected_error hended⟩)

/-- Bus actions one after the other proceed if each does. -/
theorem proceeds_forM {list : List α} {action : α → BusAction Unit}
    (h : ∀ item, (action item).Proceeds) : BusAction.Proceeds (list.forM action) := by
  induction list with
  | nil => exact proceeds_pure ()
  | cons first rest ih => exact (h first).bind fun _ => ih

end BusAction

namespace Engine

variable {engine : Engine} {action : BusAction α}

/-- The bus is taken and given back around what is done while it is held. -/
theorem proceeds_holdingBus {excluded : Except Fault α → Prop} (hbusy : ¬excluded (.error .busy))
    (h : ∀ bus : BusState, Program.Follows Custody.next
      (fun (ended : Except Fault α × BusState) after =>
        after = .holding ended.2.mapped ∧ ¬excluded ended.1)
      (action.run.run bus) (.holding bus.mapped)) :
    Program.Proceeds .away excluded (engine.holdingBus action).run := by
  have hgiven : ∀ bus : BusState,
      (do let ended ← action.run.run bus
          Program.release ended.2 (.done ended.1)).Follows Custody.next
        (fun result after => after = Custody.away ∧ ¬excluded result) (.holding bus.mapped) := by
    intro bus
    refine Program.Follows.bind (h bus) fun ended after hafter => ?_
    obtain ⟨rfl, hresult⟩ := hafter
    exact ⟨.away, by simp [Custody.next], rfl, hresult⟩
  intro bus
  cases bus with
  | none => exact ⟨.away, rfl, rfl, hbusy⟩
  | some bus => exact ⟨.holding bus.mapped, rfl, hgiven bus⟩

/-- The mapping is left before anything else is done. -/
theorem proceedsWith_withBus {excluded : Except Fault α → Prop}
    (hbusy : ¬excluded (.error .busy)) (h : action.ProceedsWith excluded) :
    Program.Proceeds .away excluded (engine.withBus action).run := by
  refine proceeds_holdingBus hbusy ?_
  rintro ⟨width, mapped⟩
  have hheld : Program.Follows Custody.next
      (fun (ended : Except Fault α × BusState) after =>
        after = .holding ended.2.mapped ∧ ¬excluded ended.1)
      (action.run.run ⟨width, false⟩) (.holding false) := by
    refine Program.Follows.mono (h width) fun ended after hafter => ?_
    obtain ⟨rfl, hended⟩ := hafter
    obtain ⟨hmapped, hresult⟩ := not_or.mp hended
    rw [Bool.not_eq_true] at hmapped
    exact ⟨by rw [hmapped], hresult⟩
  cases mapped with
  | false => exact hheld
  | true => exact fun _ => ⟨.holding false, rfl, hheld⟩

/-- Taking the bus for an action that proceeds keeps custody of the bus. -/
theorem proceeds_withBus (h : action.Proceeds) : (engine.withBus action).Proceeds .away :=
  proceedsWith_withBus (by simp [Rejected, Fault.isRejection]) h

end Engine

end NorFlash
