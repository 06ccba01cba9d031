import NorFlash.Bench.Basic
import NorFlash.Engine.Basic

/-!
# Orderly programs

An orderly program calls the controller only while it holds the bus, takes the bus only when it does
not hold it, and gives it back. `Program.Orderly` also says which calls it makes and which widths it
records. It is read off the program alone, whatever the surroundings answer; `Program.Orderly.run`
turns it into an invariant of a run on a bench: what its calls cannot change stays as it is.
-/

namespace NorFlash

variable {α β : Type} {calls : BusCall → Prop} {widths : BusWidth → Prop}

/-- The program, started while the bus is held or not, makes only calls with `calls`, records only
widths with `widths`, and ends with a value with `values`, holding the bus as `last` says. -/
def Program.Orderly (calls : BusCall → Prop) (widths : BusWidth → Prop) (last : Bool)
    (values : α → Prop) : (held : Bool) → Program α → Prop
  | held, done value => held = last ∧ values value
  | held, acquire _ next =>
      held = false ∧ (next none).Orderly calls widths last values false ∧
        ∀ bus, widths bus.width → (next (some bus)).Orderly calls widths last values true
  | held, release bus next =>
      held = true ∧ widths bus.width ∧ next.Orderly calls widths last values false
  | held, arm next => next.Orderly calls widths last values held
  | held, await _ next => ∀ arrived, (next arrived).Orderly calls widths last values held
  | held, call request next =>
      held = true ∧ calls request ∧ ∀ reply, (next reply).Orderly calls widths last values held
  | held, report _ next => next.Orderly calls widths last values held

/-- The action is orderly, and it holds the bus both before and afterwards, or neither. -/
def Action.Orderly (calls : BusCall → Prop) (widths : BusWidth → Prop) (held : Bool)
    (action : Action α) : Prop :=
  Program.Orderly calls widths held (fun _ => True) held action.run

/-- The action is orderly while it holds the bus. -/
def BusAction.Orderly (calls : BusCall → Prop) (widths : BusWidth → Prop)
    (action : BusAction α) : Prop :=
  ∀ bus, widths bus.width →
    (action.run.run bus).Orderly calls widths true (fun ended => widths ended.2.width) true

namespace Program

/-- An orderly program stays so when more calls and more values are allowed. -/
theorem Orderly.mono {first last : Bool} {values weaker : α → Prop} {more : BusCall → Prop}
    {program : Program α} (h : program.Orderly calls widths last values first)
    (hcalls : ∀ request, calls request → more request)
    (hvalues : ∀ value, values value → weaker value) :
    program.Orderly more widths last weaker first := by
  induction program generalizing first with
  | done value => exact ⟨h.1, hvalues value h.2⟩
  | acquire patience next ih => exact ⟨h.1, ih none h.2.1, fun bus hbus => ih _ (h.2.2 bus hbus)⟩
  | release bus next ih => exact ⟨h.1, h.2.1, ih h.2.2⟩
  | arm next ih => exact ih h
  | await patience next ih => exact fun arrived => ih arrived (h arrived)
  | call request next ih =>
      exact ⟨h.1, hcalls request h.2.1, fun reply => ih reply (h.2.2 reply)⟩
  | report count next ih => exact ih h

/-- An orderly program goes on orderly from where the first part leaves the lock. -/
theorem Orderly.bind {first middle last : Bool} {values : α → Prop} {results : β → Prop}
    {program : Program α} {next : α → Program β}
    (h : program.Orderly calls widths middle values first)
    (hnext : ∀ value, values value → (next value).Orderly calls widths last results middle) :
    (program >>= next).Orderly calls widths last results first := by
  show (program.bind next).Orderly calls widths last results first
  induction program generalizing first with
  | done value =>
      obtain ⟨rfl, hvalue⟩ := h
      exact hnext value hvalue
  | acquire patience rest ih =>
      exact ⟨h.1, ih none h.2.1, fun bus hbus => ih (some bus) (h.2.2 bus hbus)⟩
  | release bus rest ih => exact ⟨h.1, h.2.1, ih h.2.2⟩
  | arm rest ih => exact ih h
  | await patience rest ih => exact fun arrived => ih arrived (h arrived)
  | call request rest ih => exact ⟨h.1, h.2.1, fun reply => ih reply (h.2.2 reply)⟩
  | report count rest ih => exact ih h

/-- A change of what a program returns keeps it orderly. -/
theorem Orderly.map {first last : Bool} {values : α → Prop} {change : α → β}
    {program : Program α} (h : program.Orderly calls widths last values first) :
    (change <$> program).Orderly calls widths last (fun _ => True) first := by
  rw [map_eq_pure_bind]
  exact h.bind fun _ _ => ⟨rfl, trivial⟩

/-- A program whose value is dropped stays orderly. -/
theorem Orderly.discard {first last : Bool} {values : α → Prop} {program : Program α}
    (h : program.Orderly calls widths last values first) :
    (discard program).Orderly calls widths last (fun _ => True) first :=
  h.bind fun _ _ => ⟨rfl, trivial⟩

/-- A program that reports to nobody stays orderly. -/
theorem Orderly.silenced {first last : Bool} {values : α → Prop} {program : Program α}
    (h : program.Orderly calls widths last values first) :
    program.silenced.Orderly calls widths last values first := by
  induction program generalizing first with
  | done value => exact h
  | acquire patience next ih => exact ⟨h.1, ih none h.2.1, fun bus hbus => ih _ (h.2.2 bus hbus)⟩
  | release bus next ih => exact ⟨h.1, h.2.1, ih h.2.2⟩
  | arm next ih => exact ih h
  | await patience next ih => exact fun arrived => ih arrived (h arrived)
  | call request next ih => exact ⟨h.1, h.2.1, fun reply => ih reply (h.2.2 reply)⟩
  | report count next ih => exact ih h

/-- A deferred call comes with an abort in case it fails or does not complete. -/
theorem orderly_exchange {request : BusCall} (hcall : calls request) (habort : calls .abort)
    (patience : Nat) :
    (exchange request patience).Orderly calls widths true (fun _ => True) true := by
  refine ⟨rfl, hcall, fun reply => ?_⟩
  cases reply with
  | error cause => exact ⟨rfl, habort, fun _ => ⟨rfl, trivial⟩⟩
  | ok received =>
      intro arrived
      cases arrived with
      | true => exact ⟨rfl, trivial⟩
      | false => exact ⟨rfl, habort, fun _ => ⟨rfl, trivial⟩⟩

end Program

namespace Action

variable {held : Bool}

/-- An action that only returns a value is orderly. -/
theorem orderly_pure (value : α) : Action.Orderly calls widths held (pure value) :=
  ⟨rfl, trivial⟩

/-- A call that is allowed is orderly while the bus is held. -/
theorem orderly_call {request : BusCall} (h : calls request) :
    (Action.call request).Orderly calls widths true := by
  refine ⟨rfl, h, fun reply => ?_⟩
  cases reply <;> exact ⟨rfl, trivial⟩

/-- An action that only fails is orderly. -/
theorem orderly_throw (fault : Fault) : Action.Orderly calls widths held (throw fault : Action α) :=
  ⟨rfl, trivial⟩

/-- An action that returns what was computed before is orderly. -/
theorem orderly_ofExcept (result : Except Fault α) :
    Action.Orderly calls widths held (MonadExcept.ofExcept result) := by
  cases result <;> exact ⟨rfl, trivial⟩

/-- An action may go on knowing what a check found. -/
theorem orderly_ofExcept_bind {result : Except Fault α} {next : α → Action β}
    (h : ∀ value, result = .ok value → (next value).Orderly calls widths held) :
    Action.Orderly calls widths held (MonadExcept.ofExcept result >>= next) := by
  cases result with
  | ok value => exact h value rfl
  | error fault => exact ⟨rfl, trivial⟩

/-- A report neither calls nor moves the lock. -/
theorem orderly_report (count : Nat) : Action.Orderly calls widths held (Action.report count) :=
  ⟨rfl, trivial⟩

/-- Orderly actions follow one another, whether the first succeeds or not. -/
theorem Orderly.bind {action : Action α} {next : α → Action β}
    (h : action.Orderly calls widths held)
    (hnext : ∀ value, (next value).Orderly calls widths held) :
    Action.Orderly calls widths held (action >>= next) := by
  refine Program.Orderly.bind h fun result _ => ?_
  cases result with
  | ok value => exact hnext value
  | error fault => exact ⟨rfl, trivial⟩

/-- An orderly action may fall back on an orderly handler. -/
theorem Orderly.tryCatch {action : Action α} {handler : Fault → Action α}
    (h : action.Orderly calls widths held)
    (hhandler : ∀ fault, (handler fault).Orderly calls widths held) :
    Action.Orderly calls widths held (tryCatch action handler) := by
  refine Program.Orderly.bind h fun result _ => ?_
  cases result with
  | ok value => exact ⟨rfl, trivial⟩
  | error fault => exact hhandler fault

/-- An action whose value is dropped stays orderly. -/
theorem Orderly.discard {action : Action α} (h : action.Orderly calls widths held) :
    Action.Orderly calls widths held (discard action) :=
  h.bind fun _ => orderly_pure ()

/-- What an orderly action comes to may be changed. -/
theorem Orderly.map {change : Except Fault α → β} {action : Action α}
    (h : action.Orderly calls widths held) :
    (change <$> action.run).Orderly calls widths held (fun _ => True) held :=
  Program.Orderly.map h

/-- An action that reports to nobody stays orderly. -/
theorem Orderly.silenced {action : Action α} (h : action.Orderly calls widths held) :
    action.silenced.Orderly calls widths held :=
  Program.Orderly.silenced h

/-- A list of orderly actions is orderly. -/
theorem orderly_forM {list : List α} {action : α → Action Unit}
    (h : ∀ item ∈ list, (action item).Orderly calls widths held) :
    Action.Orderly calls widths held (list.forM action) := by
  induction list with
  | nil => exact orderly_pure ()
  | cons first rest ih =>
      exact (h first List.mem_cons_self).bind fun _ =>
        ih fun item hitem => h item (List.mem_cons_of_mem first hitem)

/-- A list of orderly actions that return values is orderly. -/
theorem orderly_mapM {list : List α} {action : α → Action β}
    (h : ∀ item ∈ list, (action item).Orderly calls widths held) :
    Action.Orderly calls widths held (list.mapM action) := by
  rw [← List.mapM'_eq_mapM]
  induction list with
  | nil => exact orderly_pure []
  | cons first rest ih =>
      exact (h first List.mem_cons_self).bind fun _ =>
        (ih fun item hitem => h item (List.mem_cons_of_mem first hitem)).bind fun _ =>
          orderly_pure _

end Action

namespace BusAction

/-- An action on the bus that only returns a value is orderly. -/
theorem orderly_pure (value : α) : BusAction.Orderly calls widths (pure value) :=
  fun _ hbus => ⟨rfl, hbus⟩

/-- Orderly actions on the bus follow one another. -/
theorem Orderly.bind {action : BusAction α} {next : α → BusAction β}
    (h : action.Orderly calls widths) (hnext : ∀ value, (next value).Orderly calls widths) :
    BusAction.Orderly calls widths (action >>= next) := by
  intro bus hbus
  refine Program.Orderly.bind (h bus hbus) fun ended hended => ?_
  obtain ⟨result, after⟩ := ended
  cases result with
  | ok value => exact hnext value after hended
  | error fault => exact ⟨rfl, hended⟩

/-- An action on the bus whose value is dropped stays orderly. -/
theorem Orderly.discard {action : BusAction α} (h : action.Orderly calls widths) :
    BusAction.Orderly calls widths (discard action) :=
  h.bind fun _ => orderly_pure ()

/-- An action whose failure is passed over stays orderly. -/
theorem Orderly.attempt {action : BusAction α} (h : action.Orderly calls widths) :
    BusAction.Orderly calls widths (attempt action) := by
  intro _ hbus
  refine Program.Orderly.bind (h.discard _ hbus) fun ended hended => ?_
  obtain ⟨result, after⟩ := ended
  cases result <;> exact ⟨rfl, hended⟩

/-- An action may go on knowing the width, since only widths with `widths` are ever recorded. -/
theorem orderly_width_bind {next : BusWidth → BusAction α}
    (h : ∀ width, widths width → (next width).Orderly calls widths) :
    BusAction.Orderly calls widths (BusAction.width >>= next) :=
  fun bus hbus => h bus.width hbus bus hbus

/-- Setting a width that is allowed is orderly. -/
theorem orderly_setWidth {width : BusWidth} (h : widths width) :
    BusAction.Orderly calls widths (setWidth width) :=
  fun _ _ => ⟨rfl, h⟩

/-- Noting that memory is mapped leaves the width alone. -/
theorem orderly_setMapped (mapped : Bool) :
    BusAction.Orderly calls widths (modify fun bus => { bus with mapped }) :=
  fun _ hbus => ⟨rfl, hbus⟩

/-- An action that makes calls without taking or giving back the bus. -/
theorem orderly_lift {action : Action α} (h : action.Orderly calls widths true) :
    BusAction.Orderly calls widths (lift action) :=
  fun _ hbus => Program.Orderly.bind h fun _ _ => ⟨rfl, hbus⟩

/-- An action on the bus that returns what was computed before is orderly. -/
theorem orderly_ofExcept (result : Except Fault α) :
    BusAction.Orderly calls widths (MonadExcept.ofExcept result) := by
  cases result <;> exact fun _ hbus => ⟨rfl, hbus⟩

/-- A call that is allowed is orderly as an action on the bus. -/
theorem orderly_call {request : BusCall} (h : calls request) :
    BusAction.Orderly calls widths (call request) :=
  orderly_lift (Action.orderly_call h)

/-- An instruction that is allowed is orderly. -/
theorem orderly_instruct {code : UInt8} {width : BusWidth}
    (h : calls (.command (.instruct code width))) :
    BusAction.Orderly calls widths (instruct code width) :=
  (orderly_call h).discard

/-- A deferred call is orderly with the abort it may end in. -/
theorem orderly_exchange {request : BusCall} (hcall : calls request) (habort : calls .abort)
    (patience : Nat) :
    BusAction.Orderly calls widths (lift (liftM (Program.exchange request patience))) :=
  orderly_lift (Program.Orderly.bind (Program.orderly_exchange hcall habort patience) fun _ _ =>
    ⟨rfl, trivial⟩)

/-- A transfer is orderly with the abort it may end in. -/
theorem orderly_transfer {request : BusCall} (hcall : calls request) (habort : calls .abort)
    (patience : Nat) : BusAction.Orderly calls widths (transfer request patience) :=
  (orderly_exchange hcall habort patience).bind fun ended =>
    (orderly_ofExcept ended.2).bind fun _ => orderly_pure ended.1

/-- A list of orderly actions on the bus is orderly. -/
theorem orderly_forM {list : List α} {action : α → BusAction Unit}
    (h : ∀ item ∈ list, (action item).Orderly calls widths) :
    BusAction.Orderly calls widths (list.forM action) := by
  induction list with
  | nil => exact orderly_pure ()
  | cons first rest ih =>
      exact (h first List.mem_cons_self).bind fun _ =>
        ih fun item hitem => h item (List.mem_cons_of_mem first hitem)

/-- Ending a mapping is orderly where an abort is allowed. -/
theorem orderly_leaveMapped (habort : calls .abort) :
    BusAction.Orderly calls widths leaveMapped := by
  rintro ⟨width, mapped⟩ hbus
  cases mapped with
  | false => exact ⟨rfl, hbus⟩
  | true => exact ⟨rfl, habort, fun _ => ⟨rfl, hbus⟩⟩

end BusAction

namespace Engine

variable {engine : Engine} {action : BusAction α}

/-- An orderly action on the bus is run between taking it and giving it back. -/
theorem orderly_holdingBus (h : action.Orderly calls widths) :
    (engine.holdingBus action).Orderly calls widths false := by
  refine ⟨rfl, ⟨rfl, trivial⟩, fun bus hbus => ?_⟩
  exact Program.Orderly.bind (h bus hbus) fun _ hended => ⟨rfl, hended, rfl, trivial⟩

/-- So is one that ends a mapping first. -/
theorem orderly_withBus (habort : calls .abort) (h : action.Orderly calls widths) :
    (engine.withBus action).Orderly calls widths false :=
  orderly_holdingBus ((BusAction.orderly_leaveMapped habort).bind fun _ => h)

end Engine

end NorFlash
