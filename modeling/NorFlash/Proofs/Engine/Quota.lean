import NorFlash.Proofs.Engine.Dialogue
import NorFlash.Proofs.Engine.Repertoire

/-!
# How often a program makes a call

`Program.CallsAtMost` says that a program makes at most so many calls of a kind, whatever it is
answered. Like a cost, it adds up along a sequence. `countP_dialogue_le` counts the calls in the
dialogue of any run, and `callsAtMost_bringUp` says that bringing a device up asks for its
identification twice at most.
-/

namespace NorFlash

variable {σ α β : Type}

/-- The interaction is a call of the kind. -/
def Interaction.isCallOf (kind : BusCall → Bool) : Interaction → Bool
  | call request _ => kind request
  | _ => false

/-- Counts down the calls of the kind that are left to be made. -/
def Rule.countdown (kind : BusCall → Bool) : Rule Nat
  | 0, interaction => if interaction.isCallOf kind then none else some 0
  | left + 1, interaction => if interaction.isCallOf kind then some left else some (left + 1)

/-- The program makes at most so many calls of the kind, whatever it is answered. -/
def Program.CallsAtMost (kind : BusCall → Bool) (most : Nat) (program : Program α) : Prop :=
  ∀ left, program.Follows (.countdown kind) (fun _ after => left ≤ after) (left + most)

/-- As `Program.CallsAtMost`, for an action. -/
def Action.CallsAtMost (kind : BusCall → Bool) (most : Nat) (action : Action α) : Prop :=
  Program.CallsAtMost kind most action.run

/-- As `Action.CallsAtMost`, while the bus is held. -/
def BusAction.CallsAtMost (kind : BusCall → Bool) (most : Nat) (action : BusAction α) : Prop :=
  ∀ bus, (action.run.run bus).CallsAtMost kind most

variable {kind : BusCall → Bool} {most first second : Nat}

namespace Rule

/-- An interaction of another kind uses nothing up. -/
theorem countdown_of_not {interaction : Interaction} (h : interaction.isCallOf kind = false)
    (left : Nat) : countdown kind left interaction = some left := by
  cases left <;> simp [countdown, h]

/-- A call of the kind uses one up. -/
theorem countdown_of_call {interaction : Interaction} (h : interaction.isCallOf kind = true)
    (left : Nat) : countdown kind (left + 1) interaction = some left := by
  simp [countdown, h]

/-- What is left at the end and what was said of the kind make up what was left before. -/
theorem countP_of_countdown {dialogue : Dialogue} {left last : Nat}
    (h : dialogue.foldlM (countdown kind) left = some last) :
    dialogue.countP (Interaction.isCallOf kind) + last = left := by
  induction dialogue generalizing left with
  | nil =>
      obtain rfl := Option.some.inj h
      exact Nat.zero_add left
  | cons interaction rest ih =>
      rw [List.foldlM_cons] at h
      obtain ⟨after, hafter, hrest⟩ := Option.bind_eq_some_iff.mp h
      have hcount := ih hrest
      cases hkind : interaction.isCallOf kind with
      | false =>
          rw [countdown_of_not hkind] at hafter
          obtain rfl := Option.some.inj hafter
          rwa [List.countP_cons_of_neg (by simp [hkind])]
      | true =>
          rw [List.countP_cons_of_pos hkind]
          cases left with
          | zero => simp [countdown, hkind] at hafter
          | succ left =>
              rw [countdown_of_call hkind] at hafter
              obtain rfl := Option.some.inj hafter
              omega

end Rule

namespace Program

variable {program : Program α}

/-- The dialogue of any run has at most so many calls of the kind. -/
theorem CallsAtMost.countP_dialogue_le (h : program.CallsAtMost kind most)
    (environment : Environment σ) (state : σ) :
    (program.dialogue environment state).countP (Interaction.isCallOf kind) ≤ most := by
  obtain ⟨last, hlast, -⟩ := (h 0).run environment state
  have hcount := Rule.countP_of_countdown hlast
  omega

/-- A program that only returns a value calls nothing. -/
theorem callsAtMost_pure (value : α) : (pure value : Program α).CallsAtMost kind 0 :=
  fun left => Nat.le_refl left

/-- A program keeps to any greater quota. -/
theorem CallsAtMost.mono {more : Nat} (h : program.CallsAtMost kind most) (hmore : most ≤ more) :
    program.CallsAtMost kind more := by
  intro left
  obtain ⟨spare, rfl⟩ := Nat.exists_eq_add_of_le hmore
  have hleft := h (left + spare)
  rw [show left + spare + most = left + (most + spare) by omega] at hleft
  exact hleft.mono fun _ _ hlast => Nat.le_trans (Nat.le_add_right left spare) hlast

/-- The quotas of two programs add up. -/
theorem CallsAtMost.bind {next : α → Program β} (h : program.CallsAtMost kind first)
    (hnext : ∀ value, (next value).CallsAtMost kind second) :
    (program >>= next).CallsAtMost kind (first + second) := by
  intro left
  have hfirst := h (left + second)
  rw [show left + second + first = left + (first + second) by omega] at hfirst
  refine hfirst.bind fun value after hafter => ?_
  -- What the first part has not used up stays left for good.
  obtain ⟨spare, rfl⟩ := Nat.exists_eq_add_of_le hafter
  have hsecond := hnext value (left + spare)
  rw [show left + spare + second = left + second + spare by omega] at hsecond
  exact hsecond.mono fun _ _ hlast => Nat.le_trans (Nat.le_add_right left spare) hlast

/-- An orderly program makes no call of a kind that is not among its calls. -/
theorem Orderly.callsAtMost {calls : BusCall → Prop} {first last : Bool} {values : α → Prop}
    (h : program.Orderly calls (fun _ => True) last values first)
    (hcalls : ∀ request, calls request → kind request = false) : program.CallsAtMost kind 0 := by
  intro left
  have hquiet : ∀ {interaction : Interaction}, interaction.isCallOf kind = false →
      Rule.countdown kind left interaction = some left :=
    fun hnot => Rule.countdown_of_not hnot left
  induction program generalizing first with
  | done value => exact Nat.le_refl left
  | acquire patience next ih =>
      rintro (_ | bus)
      · exact ⟨left, hquiet rfl, ih none h.2.1⟩
      · exact ⟨left, hquiet rfl, ih (some bus) (h.2.2 bus trivial)⟩
  | release bus next ih => exact ⟨left, hquiet rfl, ih h.2.2⟩
  | arm next ih => exact ⟨left, hquiet rfl, ih h⟩
  | await patience next ih => exact fun arrived => ⟨left, hquiet rfl, ih arrived (h arrived)⟩
  | call request next ih =>
      exact fun reply => ⟨left, hquiet (hcalls request h.2.1), ih reply (h.2.2 reply)⟩
  | report count next ih => exact ⟨left, hquiet rfl, ih h⟩

/-- A deferred call is made once, and the abort that may follow it is another call. -/
theorem callsAtMost_exchange (request : BusCall) (habort : kind .abort = false) (patience : Nat) :
    (exchange request patience).CallsAtMost kind 1 := by
  intro left
  have habandoned (reply : Reply) : (Interaction.call .abort reply).isCallOf kind = false := habort
  refine ⟨left + 1, Rule.countdown_of_not rfl _, fun reply => ?_⟩
  obtain ⟨after, hafter, hleft⟩ : ∃ after,
      Rule.countdown kind (left + 1) (.call request reply) = some after ∧ left ≤ after := by
    cases hkind : (Interaction.call request reply).isCallOf kind with
    | false => exact ⟨left + 1, Rule.countdown_of_not hkind _, Nat.le_succ left⟩
    | true => exact ⟨left, Rule.countdown_of_call hkind _, Nat.le_refl left⟩
  refine ⟨after, hafter, ?_⟩
  cases reply with
  | error cause =>
      exact fun reply => ⟨after, Rule.countdown_of_not (habandoned reply) _, hleft⟩
  | ok received =>
      rintro (_ | _)
      · exact ⟨after, Rule.countdown_of_not rfl _, fun reply =>
          ⟨after, Rule.countdown_of_not (habandoned reply) _, hleft⟩⟩
      · exact ⟨after, Rule.countdown_of_not rfl _, hleft⟩

end Program

namespace Action

variable {action : Action α}

/-- An action that only returns a value calls nothing. -/
theorem callsAtMost_pure (value : α) : Action.CallsAtMost kind 0 (pure value) :=
  Program.callsAtMost_pure _

/-- The quotas of two actions add up. -/
theorem CallsAtMost.bind {next : α → Action β} (h : action.CallsAtMost kind first)
    (hnext : ∀ value, (next value).CallsAtMost kind second) :
    Action.CallsAtMost kind (first + second) (action >>= next) := by
  refine Program.CallsAtMost.bind h fun result => ?_
  cases result with
  | ok value => exact hnext value
  | error fault => exact (Program.callsAtMost_pure _).mono (Nat.zero_le second)

/-- A handler adds its own quota. -/
theorem CallsAtMost.tryCatch {handler : Fault → Action α} (h : action.CallsAtMost kind first)
    (hhandler : ∀ fault, (handler fault).CallsAtMost kind second) :
    Action.CallsAtMost kind (first + second) (tryCatch action handler) := by
  refine Program.CallsAtMost.bind h fun result => ?_
  cases result with
  | ok value => exact (Program.callsAtMost_pure _).mono (Nat.zero_le second)
  | error fault => exact hhandler fault

end Action

namespace BusAction

variable {action : BusAction α}

/-- The quotas of two actions on the bus add up. -/
theorem CallsAtMost.bind {next : α → BusAction β} (h : action.CallsAtMost kind first)
    (hnext : ∀ value, (next value).CallsAtMost kind second) :
    BusAction.CallsAtMost kind (first + second) (action >>= next) := by
  intro bus
  refine Program.CallsAtMost.bind (h bus) fun ended => ?_
  obtain ⟨result, after⟩ := ended
  cases result with
  | ok value => exact hnext value after
  | error fault => exact (Program.callsAtMost_pure _).mono (Nat.zero_le second)

/-- An orderly action on the bus with no call of the kind needs no quota. -/
theorem Orderly.callsAtMost {calls : BusCall → Prop} (h : action.Orderly calls fun _ => True)
    (hcalls : ∀ request, calls request → kind request = false) : action.CallsAtMost kind 0 :=
  fun bus => (h bus trivial).callsAtMost hcalls

/-- A transfer makes one call of the kind at most. -/
theorem callsAtMost_transfer (request : BusCall) (habort : kind .abort = false)
    (patience : Nat) : (transfer request patience).CallsAtMost kind 1 := by
  have hexchange : (lift (liftM (Program.exchange request patience)) :
      BusAction (Option Bytes × Except Fault Unit)).CallsAtMost kind 1 :=
    fun _ => ((Program.callsAtMost_exchange request habort patience).bind fun _ =>
      Program.callsAtMost_pure _).bind fun _ => Program.callsAtMost_pure _
  have hended : ∀ ended : Option Bytes × Except Fault Unit, BusAction.CallsAtMost kind 0 (do
      MonadExcept.ofExcept ended.2
      return ended.1) := by
    rintro ⟨received, fault | _⟩ bus <;> exact Program.callsAtMost_pure _
  exact hexchange.bind hended

end BusAction

namespace Engine

variable {engine : Engine} {action : BusAction α}

/-- Taking the bus takes no call but the one that ends the mapping. -/
theorem callsAtMost_withBus (habort : kind .abort = false) (h : action.CallsAtMost kind most) :
    (engine.withBus action).CallsAtMost kind most := by
  have horderly : BusAction.leaveMapped.Orderly (· = .abort) fun _ => True :=
    BusAction.orderly_leaveMapped rfl
  have hunmapped : BusAction.leaveMapped.CallsAtMost kind 0 :=
    horderly.callsAtMost fun _ hrequest => hrequest ▸ habort
  have haction := hunmapped.bind fun _ => h
  rw [Nat.zero_add] at haction
  intro left bus
  refine ⟨left + most, Rule.countdown_of_not rfl _, ?_⟩
  cases bus with
  | none => exact Nat.le_add_right left most
  | some bus =>
      exact (haction bus left).bind fun _ after hafter =>
        ⟨after, Rule.countdown_of_not rfl _, hafter⟩

end Engine

/-- The call asks the device for its identification. -/
def BusCall.readsId (request : BusCall) : Bool :=
  request.code? == some Opcode.readJedecId.code

namespace Engine

variable (engine : Engine)

/-- Identifying a device reads its identification once. -/
theorem callsAtMost_identify : engine.identify.CallsAtMost BusCall.readsId 1 := by
  have hread : engine.readId.CallsAtMost BusCall.readsId 1 :=
    callsAtMost_withBus rfl <| (BusAction.callsAtMost_transfer _ rfl _).bind fun _ _ =>
      Program.callsAtMost_pure _
  show Action.CallsAtMost BusCall.readsId (1 + 0) _
  refine hread.bind fun id => ?_
  split <;> exact Program.callsAtMost_pure _

/-- The calls for other instructions are no question for the identification. -/
theorem readsId_eq_false {codes : List UInt8} {request : BusCall} (h : request.Among codes)
    (hcodes : Opcode.readJedecId.code ∉ codes) : request.readsId = false :=
  beq_false_of_ne fun hcode => hcodes (h _ hcode)

/-- A device that does not answer at first is asked once more. -/
theorem callsAtMost_acquireDevice : engine.acquireDevice.CallsAtMost BusCall.readsId 2 := by
  have hrecover : engine.recover.CallsAtMost BusCall.readsId 0 :=
    (engine.orderly_recover trivial).callsAtMost fun _ h => readsId_eq_false h (by decide)
  have henter (identity : Identity) :
      (engine.enterQuad identity).CallsAtMost BusCall.readsId 0 :=
    (engine.orderly_enterQuad (fun _ => trivial) identity).callsAtMost fun _ h =>
      readsId_eq_false h (by decide)
  exact (engine.callsAtMost_identify.tryCatch fun _ =>
    hrecover.bind fun _ => engine.callsAtMost_identify).bind fun identity =>
      (henter identity).bind fun _ => Action.callsAtMost_pure identity

/-- Bringing a device up reads its identification twice at most. -/
theorem callsAtMost_bringUp : engine.bringUp.CallsAtMost BusCall.readsId 2 := by
  show Program.CallsAtMost BusCall.readsId (2 + 0) _
  refine Program.CallsAtMost.bind engine.callsAtMost_acquireDevice fun result => ?_
  cases result <;> exact Program.callsAtMost_pure _

end Engine

end NorFlash
