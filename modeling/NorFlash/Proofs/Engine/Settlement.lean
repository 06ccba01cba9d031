import Mathlib.Data.List.Induction
import NorFlash.Proofs.Engine.Dialogue

/-!
# Settling deferred calls

A deferred call is issued on the completion event first. If it fails it is aborted at once. If it
begins, its completion is awaited before anything else, and if that does not come in time the call
is aborted as well. `Phase.next` is that rule, read one interaction at a time. The statements at the
end say what it means for a whole dialogue: `settled_of_accepted` for each deferred call in it,
`outstanding_of_accepted` for its end, and `gaveUp_of_accepted` for a time-out.
-/

namespace NorFlash

/-- The interaction is a call to the controller. -/
def Interaction.isCall : Interaction → Bool
  | call .. => true
  | _ => false

/-- How far a program has come with a deferred call. -/
inductive Phase where
  /-- Nothing is in progress. -/
  | clear
  /-- As `clear`, and the last call was an abort because a completion did not come in time. -/
  | abandoned
  /-- A new operation was issued on the completion event. -/
  | armed
  /-- The deferred call has begun. -/
  | begun
  /-- The deferred call has failed, or it was too late, and is to be aborted. -/
  | owing (late : Bool)

namespace Phase

/-- What may be said in a phase, and the phase after it. -/
def next : Rule Phase
  | clear, .acquire _ | clear, .release _ | clear, .report _ => some clear
  | abandoned, .acquire _ | abandoned, .release _ | abandoned, .report _ => some abandoned
  | clear, .arm | abandoned, .arm => some armed
  | clear, .call request _ | abandoned, .call request _ =>
      if request.isDeferred then none else some clear
  | armed, .call request reply =>
      if request.isDeferred then some (if reply.isOk then begun else owing false) else none
  | begun, .await arrived => some (if arrived then clear else owing true)
  | owing late, .call .abort _ => some (if late then abandoned else clear)
  | _, _ => none

/-- Nothing is in progress, and if `late` holds then the last call was an abort. -/
def Clear (late : Prop) : Phase → Prop
  | clear => ¬late
  | abandoned => True
  | _ => False

/-- A deferred call was made and is not over. -/
def inProgress : Phase → Bool
  | begun | owing _ => true
  | _ => false

variable {phase after : Phase} {late later : Prop}

/-- A phase that is clear is so when fewer calls are late. -/
theorem Clear.mono (h : phase.Clear late) (hlate : later → late) : phase.Clear later := by
  cases phase with
  | clear => exact mt hlate h
  | abandoned => exact h
  | armed | begun | owing => exact h.elim

/-- Nothing is in progress in a clear phase. -/
theorem Clear.inProgress_eq (h : phase.Clear late) : phase.inProgress = false := by
  cases phase with
  | clear | abandoned | armed => rfl
  | begun | owing => exact h.elim

/-- A report makes no difference to what is in progress. -/
theorem eq_of_next_report {count : Nat} (h : phase.next (.report count) = some after) :
    after = phase := by
  cases phase with
  | clear | abandoned => exact (Option.some.inj h).symm
  | armed | begun | owing => simp [next] at h

/-! ## Steps of the rule -/

/-- A deferred call is made only once it is issued on the completion event. -/
theorem eq_of_next_deferred {request : BusCall} {reply : Reply} (hdeferred : request.isDeferred)
    (h : phase.next (.call request reply) = some after) :
    phase = armed ∧ after = if reply.isOk then begun else owing false := by
  cases phase with
  | armed =>
      simp only [next, hdeferred, if_true, Option.some.injEq] at h
      exact ⟨rfl, h.symm⟩
  | clear | abandoned => simp [next, hdeferred] at h
  | begun => simp [next] at h
  | owing late =>
      cases request with
      | start | poll => simp [next] at h
      | command | map | abort => simp [BusCall.isDeferred] at hdeferred

/-- What is to be aborted is aborted next. -/
theorem exists_abort_of_next_owing {late : Bool} {interaction : Interaction}
    (h : (owing late).next interaction = some after) :
    (∃ reply, interaction = .call .abort reply) ∧ after = if late then abandoned else clear := by
  cases interaction with
  | call request reply =>
      cases request with
      | abort => exact ⟨⟨reply, rfl⟩, by simpa [next, eq_comm] using h⟩
      | command | start | poll | map => simp [next] at h
  | acquire | release | arm | await | report => simp [next] at h

/-- What has begun is awaited next. -/
theorem exists_await_of_next_begun {interaction : Interaction}
    (h : begun.next interaction = some after) :
    ∃ arrived, interaction = .await arrived ∧ after = if arrived then clear else owing true := by
  cases interaction with
  | await arrived => exact ⟨arrived, rfl, by simpa [next, eq_comm] using h⟩
  | call request => cases request <;> simp [next] at h
  | acquire | release | arm | report => simp [next] at h

/-- A call is abandoned only where it was, or by the abort it owed. -/
theorem of_next_eq_abandoned {interaction : Interaction}
    (h : phase.next interaction = some abandoned) :
    phase = abandoned ∧ interaction.isCall = false ∨
      phase = owing true ∧ ∃ reply, interaction = .call .abort reply := by
  cases phase with
  | clear => cases interaction <;> simp [next] at h
  | armed =>
      cases interaction <;> simp [next] at h
      obtain ⟨-, h⟩ := h
      split at h <;> cases h
  | abandoned =>
      cases interaction with
      | call request => simp [next] at h
      | _ => exact .inl ⟨rfl, rfl⟩
  | begun =>
      obtain ⟨arrived, -, hafter⟩ := exists_await_of_next_begun h
      cases arrived <;> cases hafter
  | owing late =>
      obtain ⟨habort, hafter⟩ := exists_abort_of_next_owing h
      cases late with
      | true => exact .inr ⟨rfl, habort⟩
      | false => cases hafter

/-- An abort comes to be owed by an await that timed out. -/
theorem of_next_eq_owing {interaction : Interaction}
    (h : phase.next interaction = some (owing true)) : interaction = .await false := by
  cases phase with
  | clear | abandoned => cases interaction <;> simp [next] at h
  | armed =>
      cases interaction <;> simp [next] at h
      obtain ⟨-, h⟩ := h
      split at h <;> cases h
  | begun =>
      obtain ⟨arrived, rfl, hafter⟩ := exists_await_of_next_begun h
      cases arrived with
      | true => cases hafter
      | false => rfl
  | owing late =>
      obtain ⟨-, hafter⟩ := exists_abort_of_next_owing h
      cases late <;> cases hafter

end Phase

/-- Whether a deferred call is outstanding after an interaction, if `outstanding` tells whether one
was before. A deferred call may have had an effect even if it failed, so only an abort or its
completion ends it. -/
def Interaction.leaves (outstanding : Bool) : Interaction → Bool
  | call .abort _ => false
  | call request _ => request.isDeferred || outstanding
  | await arrived => outstanding && !arrived
  | _ => outstanding

namespace Dialogue

/-- A deferred call is outstanding at the end. -/
def outstanding (dialogue : Dialogue) : Bool :=
  dialogue.foldl Interaction.leaves false

/-- Every deferred call that failed is aborted next. For every other one the completion is awaited
next, and if it did not come the call is aborted next. -/
structure Settled (dialogue : Dialogue) : Prop where
  failed : ∀ before request cause after, request.isDeferred = true →
    dialogue = before ++ .call request (.error cause) :: after →
      ∃ reply rest, after = .call .abort reply :: rest
  begun : ∀ before request received after, request.isDeferred = true →
    dialogue = before ++ .call request (.ok received) :: after →
      (∃ rest, after = .await true :: rest) ∨
        ∃ reply rest, after = .await false :: .call .abort reply :: rest

/-- The last call was an abort, because a completion did not come in time. -/
def GaveUp (dialogue : Dialogue) : Prop :=
  ∃ before reply after, dialogue = before ++ .await false :: .call .abort reply :: after ∧
    ∀ interaction ∈ after, interaction.isCall = false

variable {dialogue : Dialogue} {phase last : Phase} {late : Prop}

/-- What the rule accepts in two parts. -/
theorem accepted_append {first second : Dialogue}
    (h : (first ++ second).foldlM Phase.next phase = some last) :
    ∃ middle, first.foldlM Phase.next phase = some middle ∧
      second.foldlM Phase.next middle = some last := by
  rw [List.foldlM_append] at h
  exact Option.bind_eq_some_iff.mp h

/-- A dialogue is accepted when its first interaction is, and the rest after it. -/
theorem accepted_cons {interaction : Interaction} {rest : Dialogue}
    (h : (interaction :: rest).foldlM Phase.next phase = some last) :
    ∃ after, phase.next interaction = some after ∧ rest.foldlM Phase.next after = some last := by
  rw [List.foldlM_cons] at h
  exact Option.bind_eq_some_iff.mp h

/-- While something is to be aborted, the dialogue cannot end and can go on with an abort only. -/
theorem exists_abort_of_owing {late : Prop} {tooLate : Bool} (hlast : last.Clear late)
    (h : dialogue.foldlM Phase.next (.owing tooLate) = some last) :
    ∃ reply rest, dialogue = .call .abort reply :: rest := by
  cases dialogue with
  | nil =>
      obtain rfl := Option.some.inj h
      exact hlast.elim
  | cons interaction rest =>
      obtain ⟨after, hnext, -⟩ := accepted_cons h
      obtain ⟨⟨reply, rfl⟩, -⟩ := Phase.exists_abort_of_next_owing hnext
      exact ⟨reply, rest, rfl⟩

/-- A dialogue that the rule accepts settles all its deferred calls. -/
theorem settled_of_accepted (hlast : last.Clear late)
    (h : dialogue.foldlM Phase.next phase = some last) : dialogue.Settled := by
  constructor
  · intro before request cause after hdeferred hsplit
    rw [hsplit] at h
    obtain ⟨_, -, hrest⟩ := accepted_append h
    obtain ⟨_, hcall, hafter⟩ := accepted_cons hrest
    obtain ⟨-, rfl⟩ := Phase.eq_of_next_deferred hdeferred hcall
    exact exists_abort_of_owing hlast hafter
  · intro before request received after hdeferred hsplit
    rw [hsplit] at h
    obtain ⟨_, -, hrest⟩ := accepted_append h
    obtain ⟨_, hcall, hafter⟩ := accepted_cons hrest
    obtain ⟨-, rfl⟩ := Phase.eq_of_next_deferred hdeferred hcall
    cases after with
    | nil =>
        obtain rfl := Option.some.inj hafter
        exact hlast.elim
    | cons interaction rest =>
        obtain ⟨awaited, hnext, hrest⟩ := accepted_cons hafter
        obtain ⟨arrived, rfl, rfl⟩ := Phase.exists_await_of_next_begun hnext
        cases arrived with
        | true => exact .inl ⟨rest, rfl⟩
        | false =>
            obtain ⟨reply, later, rfl⟩ := exists_abort_of_owing hlast hrest
            exact .inr ⟨reply, later, rfl⟩

/-- The phase tells what is outstanding, after each interaction. -/
theorem leaves_of_next {interaction : Interaction} {after : Phase}
    (h : phase.next interaction = some after) :
    interaction.leaves phase.inProgress = after.inProgress := by
  cases phase with
  | clear | abandoned =>
      cases interaction with
      | call request =>
          cases request <;> simp [Phase.next, BusCall.isDeferred] at h <;> subst h <;> rfl
      | acquire | release | arm | await | report =>
          simp [Phase.next] at h <;> subst h <;> rfl
  | armed =>
      cases interaction with
      | call request reply =>
          cases request <;> simp [Phase.next, BusCall.isDeferred] at h <;> subst h <;>
            cases reply <;> rfl
      | acquire | release | arm | await | report => simp [Phase.next] at h
  | begun =>
      obtain ⟨arrived, rfl, rfl⟩ := Phase.exists_await_of_next_begun h
      cases arrived <;> rfl
  | owing late =>
      obtain ⟨⟨reply, rfl⟩, rfl⟩ := Phase.exists_abort_of_next_owing h
      cases late <;> rfl

/-- Nothing is outstanding at the end of a dialogue that the rule accepts. -/
theorem outstanding_of_accepted (hlast : last.Clear late)
    (h : dialogue.foldlM Phase.next .clear = some last) : dialogue.outstanding = false := by
  have hrun : ∀ phase : Phase, dialogue.foldlM Phase.next phase = some last →
      dialogue.foldl Interaction.leaves phase.inProgress = last.inProgress := by
    clear h
    induction dialogue with
    | nil =>
        intro phase h
        obtain rfl := Option.some.inj h
        rfl
    | cons interaction rest ih =>
        intro phase h
        obtain ⟨after, hnext, hrest⟩ := accepted_cons h
        rw [List.foldl_cons, leaves_of_next hnext]
        exact ih after hrest
  exact (hrun .clear h).trans hlast.inProgress_eq

/-- The rule comes to the phase after a time-out only by an abort, and then no call has followed. -/
theorem gaveUp_of_accepted (h : dialogue.foldlM Phase.next .clear = some .abandoned) :
    dialogue.GaveUp := by
  -- An abort for a time-out follows the wait for it, so both phases are traced back together.
  suffices hboth : ∀ last, dialogue.foldlM Phase.next .clear = some last →
      (last = .abandoned → dialogue.GaveUp) ∧
        (last = .owing true → ∃ before, dialogue = before ++ [.await false]) from
    (hboth _ h).1 rfl
  clear h
  induction dialogue using List.reverseRecOn with
  | nil =>
      intro last h
      obtain rfl := Option.some.inj h
      exact ⟨nofun, nofun⟩
  | append_singleton dialogue interaction ih =>
      intro last h
      obtain ⟨middle, hmiddle, hlast⟩ := accepted_append h
      obtain ⟨after, hnext, hend⟩ := accepted_cons hlast
      obtain rfl := Option.some.inj hend
      refine ⟨?_, ?_⟩
      · rintro rfl
        obtain ⟨rfl, hquiet⟩ | ⟨rfl, reply, rfl⟩ := Phase.of_next_eq_abandoned hnext
        · obtain ⟨before, reply, after, rfl, hafter⟩ := (ih _ hmiddle).1 rfl
          refine ⟨before, reply, after ++ [interaction], by simp, fun other hother => ?_⟩
          rcases List.mem_append.mp hother with hold | hnew
          · exact hafter other hold
          · exact List.mem_singleton.mp hnew ▸ hquiet
        · obtain ⟨before, rfl⟩ := (ih _ hmiddle).2 rfl
          exact ⟨before, reply, [], by simp, by simp⟩
      · rintro rfl
        obtain rfl := Phase.of_next_eq_owing hnext
        exact ⟨dialogue, rfl⟩

end Dialogue

end NorFlash
