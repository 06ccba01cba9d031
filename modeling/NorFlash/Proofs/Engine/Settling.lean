import NorFlash.Engine.Basic
import NorFlash.Proofs.Engine.Settlement

/-!
# Programs that settle their deferred calls

A program settles if it follows `Phase.next` from any phase in which nothing is in progress to one
in which nothing is, and if a result that tells of a time-out comes only after an abort. There is
one lemma for each way of putting actions together; `settles_exchange` is the one in which a
deferred call is made.
-/

namespace NorFlash

variable {α β : Type}

/-- Started while nothing is in progress, the program leaves nothing in progress. If `before` holds
at its start then the last call was an abort, and likewise if `late` holds of its value. -/
def Program.Settles (before : Prop) (late : α → Prop) (program : Program α) : Prop :=
  ∀ phase : Phase, phase.Clear before →
    program.Follows Phase.next (fun value after => after.Clear (late value)) phase

/-- The result tells of a completion that did not come in time. -/
def TimedOut (result : Except Fault α) : Prop :=
  result = .error .timeout

/-- A success is no time-out. -/
theorem not_timedOut_ok (value : α) : ¬TimedOut (.ok value) := by
  simp [TimedOut]

/-- No other fault is a time-out. -/
theorem not_timedOut_error {fault : Fault} (h : fault ≠ .timeout) :
    ¬TimedOut (.error fault : Except Fault α) :=
  fun hlate => h (Except.error.inj hlate)

/-- What the bus finds wrong is no time-out. -/
theorem not_timedOut_bus (cause : BusFault) :
    ¬TimedOut (.error (.bus cause) : Except Fault α) :=
  not_timedOut_error (by simp)

/-- As `TimedOut`, where what the exchange came to is the value. -/
def LateExchange : Except Fault (Option Bytes × Except Fault Unit) → Prop
  | .ok ended => TimedOut ended.2
  | .error fault => fault = .timeout

/-- The action leaves nothing in progress, and fails of a time-out only after an abort. -/
def Action.Settles (action : Action α) : Prop :=
  Program.Settles False TimedOut action.run

/-- The action leaves nothing in progress while the bus is held. A result with `late` comes only
after an abort. -/
def BusAction.SettlesWith (late : Except Fault α → Prop) (action : BusAction α) : Prop :=
  ∀ bus, Program.Settles False (fun ended => late ended.1) (action.run.run bus)

/-- As `Action.Settles`, while the bus is held. -/
abbrev BusAction.Settles (action : BusAction α) : Prop :=
  action.SettlesWith TimedOut

namespace Program

variable {before : Prop} {late : α → Prop} {program : Program α}

/-- A program that only returns a value settles, unless that tells of a time-out. -/
theorem settles_pure {value : α} (h : late value → before) :
    Settles before late (pure value : Program α) :=
  fun _ hphase => hphase.mono h

/-- A program settles if its parts do, and each begins with what the one before it knows. -/
theorem Settles.bind {later : β → Prop} {next : α → Program β} (h : program.Settles before late)
    (hnext : ∀ value, (next value).Settles (late value) later) :
    (program >>= next).Settles before later :=
  fun phase hphase => (h phase hphase).bind fun value after hafter => hnext value after hafter

/-- It may be known that the last call was an abort even if it does not matter. -/
theorem Settles.of_false (h : program.Settles False late) : program.Settles before late :=
  fun phase hphase => h phase (hphase.mono False.elim)

/-- A program settles after a change of its value that tells of no more time-outs. -/
theorem Settles.map {later : β → Prop} {change : α → β} (h : program.Settles before late)
    (hlater : ∀ value, later (change value) → late value) :
    (change <$> program).Settles before later := by
  rw [map_eq_pure_bind]
  exact h.bind fun value => settles_pure (hlater value)

/-- A program that reports to nobody settles as before. -/
theorem Settles.silenced (h : program.Settles before late) :
    program.silenced.Settles before late :=
  fun phase hphase => (h phase hphase).silenced fun _ _ _ => Phase.eq_of_next_report

/-- A deferred call that is waited for leaves nothing in progress, however it is answered. -/
theorem settles_exchange {request : BusCall} (hdeferred : request.isDeferred = true)
    (patience : Nat) :
    (exchange request patience).Settles False fun ended => TimedOut ended.2 := by
  intro phase hphase
  have harm : phase.next .arm = some .armed := by
    cases phase with
    | clear | abandoned => rfl
    | armed | begun | owing => exact hphase.elim
  refine ⟨.armed, harm, fun reply => ?_⟩
  cases reply with
  | error cause =>
      exact ⟨.owing false, by simp [Phase.next, hdeferred, Except.isOk, Except.toBool],
        fun _ => ⟨.clear, rfl, not_timedOut_bus cause⟩⟩
  | ok received =>
      refine ⟨.begun, by simp [Phase.next, hdeferred, Except.isOk, Except.toBool],
        fun arrived => ?_⟩
      cases arrived with
      | true => exact ⟨.clear, rfl, not_timedOut_ok ()⟩
      | false => exact ⟨.owing true, rfl, fun _ => ⟨.abandoned, rfl, trivial⟩⟩

end Program

namespace Action

variable {action : Action α}

/-- An action that only returns a value settles. -/
theorem settles_pure (value : α) : Action.Settles (pure value) :=
  Program.settles_pure (not_timedOut_ok _)

/-- A check settles, unless what it found is a time-out. -/
theorem settles_ofExcept {result : Except Fault α} (h : result ≠ .error .timeout) :
    Action.Settles (MonadExcept.ofExcept result) := by
  cases result with
  | ok value => exact settles_pure value
  | error fault => exact Program.settles_pure fun hlate => h hlate

/-- A failure settles, unless it is a time-out. -/
theorem settles_throw {fault : Fault} (h : fault ≠ .timeout) :
    Action.Settles (throw fault : Action α) :=
  Program.settles_pure fun hlate => absurd hlate (not_timedOut_error h)

/-- A call that is not deferred is over once it is answered. -/
theorem settles_call {request : BusCall} (h : request.isDeferred = false) :
    (Action.call request).Settles := by
  intro phase hphase reply
  have hnext : phase.next (.call request reply) = some .clear := by
    cases phase with
    | clear | abandoned => simp [Phase.next, h]
    | armed | begun | owing => exact hphase.elim
  refine ⟨.clear, hnext, ?_⟩
  cases reply with
  | error cause => exact not_timedOut_bus cause
  | ok received => exact not_timedOut_ok received

/-- An abort settles. -/
theorem settles_abort : Action.abort.Settles := by
  intro phase hphase reply
  cases phase with
  | clear | abandoned => exact ⟨.clear, rfl, not_timedOut_ok ()⟩
  | armed | begun | owing => exact hphase.elim

/-- A report settles. -/
theorem settles_report (count : Nat) : (Action.report count).Settles := by
  intro phase hphase
  cases phase with
  | clear | abandoned => exact ⟨_, rfl, hphase.mono (not_timedOut_ok ())⟩
  | armed | begun | owing => exact hphase.elim

/-- Actions that settle follow one another. -/
theorem Settles.bind {next : α → Action β} (h : action.Settles)
    (hnext : ∀ value, (next value).Settles) : Action.Settles (action >>= next) := by
  refine Program.Settles.bind h fun result => ?_
  cases result with
  | ok value => exact (hnext value).of_false
  | error fault => exact Program.settles_pure fun hlate => congrArg _ (Except.error.inj hlate)

/-- A handler that settles may follow any fault. -/
theorem Settles.tryCatch {handler : Fault → Action α} (h : action.Settles)
    (hhandler : ∀ fault, (handler fault).Settles) :
    Action.Settles (tryCatch action handler) := by
  refine Program.Settles.bind h fun result => ?_
  cases result with
  | ok value => exact Program.settles_pure id
  | error fault => exact (hhandler fault).of_false

/-- An action whose value is dropped settles as before. -/
theorem Settles.discard (h : action.Settles) : Action.Settles (discard action) :=
  h.bind fun _ => settles_pure ()

/-- An action that reports to nobody settles as before. -/
theorem Settles.silenced (h : action.Settles) : action.silenced.Settles :=
  Program.Settles.silenced h

/-- A list of actions settles if each does. -/
theorem settles_forM {list : List α} {action : α → Action Unit}
    (h : ∀ item, (action item).Settles) : Action.Settles (list.forM action) := by
  induction list with
  | nil => exact settles_pure ()
  | cons first rest ih => exact (h first).bind fun _ => ih

/-- A list of actions that return values settles if each does. -/
theorem settles_mapM {list : List α} {action : α → Action β} (h : ∀ item, (action item).Settles) :
    Action.Settles (list.mapM action) := by
  rw [← List.mapM'_eq_mapM]
  induction list with
  | nil => exact settles_pure []
  | cons first rest ih => exact (h first).bind fun _ => ih.bind fun _ => settles_pure _

end Action

namespace BusAction

variable {action : BusAction α}

/-- An action on the bus that only returns a value settles. -/
theorem settles_pure (value : α) : BusAction.Settles (pure value) :=
  fun _ => Program.settles_pure (not_timedOut_ok _)

/-- What follows on the bus may begin with what the first part knows of its value. -/
theorem SettlesWith.bind {late : Except Fault α → Prop} {later : Except Fault β → Prop}
    {next : α → BusAction β} (h : action.SettlesWith late)
    (hnext : ∀ value bus,
      Program.Settles (late (.ok value)) (fun ended => later ended.1) ((next value).run.run bus))
    (hfault : ∀ fault, later (.error fault) → late (.error fault)) :
    BusAction.SettlesWith later (action >>= next) := by
  intro bus
  refine Program.Settles.bind (h bus) fun ended => ?_
  obtain ⟨result, after⟩ := ended
  cases result with
  | ok value => exact hnext value after
  | error fault => exact Program.settles_pure (hfault fault)

/-- Actions on the bus that settle follow one another. -/
theorem Settles.bind {next : α → BusAction β} (h : action.Settles)
    (hnext : ∀ value, (next value).Settles) : BusAction.Settles (action >>= next) :=
  SettlesWith.bind h (fun value bus => (hnext value bus).of_false) fun _ hlate =>
    congrArg _ (Except.error.inj hlate)

/-- An action on the bus whose value is dropped settles as before. -/
theorem Settles.discard (h : action.Settles) : BusAction.Settles (discard action) :=
  h.bind fun _ => settles_pure ()

/-- An action whose failure is passed over settles, and tells of no time-out. -/
theorem Settles.attempt (h : action.Settles) : BusAction.Settles (attempt action) := by
  intro bus
  refine Program.Settles.bind (h.discard bus) fun ended => ?_
  obtain ⟨result, after⟩ := ended
  cases result <;> exact Program.settles_pure fun hlate => absurd hlate (not_timedOut_ok _)

/-- An action that reads the width settles if it does for each. -/
theorem settles_width_bind {next : BusWidth → BusAction α} {late : Except Fault α → Prop}
    (h : ∀ width, (next width).SettlesWith late) :
    BusAction.SettlesWith late (BusAction.width >>= next) :=
  fun bus => h bus.width bus

/-- A change of the bus state settles. -/
theorem settles_modify (change : BusState → BusState) : BusAction.Settles (modify change) :=
  fun _ => Program.settles_pure (not_timedOut_ok _)

/-- An action that settles does so while the bus is held. -/
theorem settles_lift {action : Action α} (h : action.Settles) :
    BusAction.Settles (lift action) :=
  fun _ => Program.Settles.bind h fun _ => Program.settles_pure id

/-- A call that defers nothing settles. -/
theorem settles_call {request : BusCall} (h : request.isDeferred = false) :
    (BusAction.call request).Settles :=
  settles_lift (Action.settles_call h)

/-- An instruction settles. -/
theorem settles_instruct (code : UInt8) (width : BusWidth) :
    (BusAction.instruct code width).Settles :=
  (settles_call rfl).discard

/-- A deferred call settles, where its value tells of the time-out. -/
theorem settles_exchange {request : BusCall} (h : request.isDeferred = true) (patience : Nat) :
    (lift (liftM (Program.exchange request patience))).SettlesWith LateExchange :=
  fun _ => Program.Settles.bind (Program.Settles.bind (Program.settles_exchange h patience)
    fun _ => Program.settles_pure fun hlate : LateExchange (.ok _) => hlate)
      fun _ => Program.settles_pure id

/-- A transfer settles. -/
theorem settles_transfer {request : BusCall} (h : request.isDeferred = true) (patience : Nat) :
    (transfer request patience).Settles := by
  refine (settles_exchange h patience).bind ?_ fun _ hlate => Except.error.inj hlate
  rintro ⟨received, outcome⟩ bus
  cases outcome with
  | ok _ => exact Program.settles_pure fun hlate => absurd hlate (not_timedOut_ok _)
  | error fault => exact Program.settles_pure fun hlate => congrArg _ (Except.error.inj hlate)

/-- A list of actions on the bus settles if each does. -/
theorem settles_forM {list : List α} {action : α → BusAction Unit}
    (h : ∀ item, (action item).Settles) : BusAction.Settles (list.forM action) := by
  induction list with
  | nil => exact settles_pure ()
  | cons first rest ih => exact (h first).bind fun _ => ih

/-- Ending a mapping settles. -/
theorem settles_leaveMapped : BusAction.leaveMapped.Settles := by
  rintro ⟨width, mapped⟩
  cases mapped with
  | false => exact Program.settles_pure (not_timedOut_ok _)
  | true =>
      -- What leaves the mapping is an abort, whose reply nothing depends on.
      show Program.Settles _ _ (Action.abort.run >>= fun _ =>
        pure ((Except.ok () : Except Fault Unit), BusState.mk width false))
      exact Program.Settles.bind Action.settles_abort fun _ =>
        Program.settles_pure fun hlate => absurd hlate (not_timedOut_ok _)

end BusAction

namespace Engine

variable {engine : Engine} {action : BusAction α}

/-- Taking the bus and giving it back makes no difference to what is in progress. -/
theorem settlesWith_holdingBus {late : Except Fault α → Prop} (hbusy : ¬late (.error .busy))
    (h : action.SettlesWith late) :
    Program.Settles False late (engine.holdingBus action).run := by
  have hgiven : ∀ bus (phase : Phase), phase.Clear False →
      (do let ended ← action.run.run bus
          Program.release ended.2 (.done ended.1)).Follows Phase.next
        (fun result after => after.Clear (late result)) phase := by
    intro bus phase hphase
    refine Program.Follows.bind (h bus phase hphase) fun ended after hafter => ?_
    cases after with
    | clear | abandoned => exact ⟨_, rfl, hafter⟩
    | armed | begun | owing => exact hafter.elim
  intro phase hphase bus
  have hnext : phase.next (.acquire bus) = some phase := by
    cases phase with
    | clear | abandoned => rfl
    | armed | begun | owing => exact hphase.elim
  refine ⟨phase, hnext, ?_⟩
  cases bus with
  | none => exact hphase.mono hbusy
  | some bus => exact hgiven bus phase hphase

/-- An action that ends a mapping first settles as it does without one. -/
theorem settlesWith_withBus {late : Except Fault α → Prop}
    (hlate : ∀ fault, late (.error fault) → fault = .timeout) (h : action.SettlesWith late) :
    Program.Settles False late (engine.withBus action).run := by
  refine settlesWith_holdingBus (fun hbusy => Fault.noConfusion (hlate _ hbusy)) ?_
  exact BusAction.SettlesWith.bind BusAction.settles_leaveMapped
    (fun _ bus => (h bus).of_false) fun fault hfault => congrArg _ (hlate fault hfault)

/-- An action on the bus settles between taking it and giving it back. -/
theorem settles_holdingBus (h : action.Settles) : (engine.holdingBus action).Settles :=
  settlesWith_holdingBus (not_timedOut_error (by simp)) h

/-- So does one that ends a mapping first. -/
theorem settles_withBus (h : action.Settles) : (engine.withBus action).Settles :=
  settlesWith_withBus (fun _ => Except.error.inj) h

end Engine

end NorFlash
