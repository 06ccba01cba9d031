import NorFlash.Engine.Basic

/-!
# How actions end

`Program.Ends` says what holds of the value a program ends with and of the surroundings it leaves
behind. `Action.Ends` and `BusAction.Ends` say it apart for an action that succeeds and for one that
fails. There is one rule for each way of putting actions together: `ends_bind` continues after
success and passes a fault on, `ends_tryCatch` and `ends_attempt` continue after a fault as well.
-/

namespace NorFlash

variable {σ α β : Type}

/-- `post` holds of the value the program ends with and of the state it leaves. -/
def Program.Ends (environment : Environment σ) (program : Program α) (post : α → σ → Prop)
    (state : σ) : Prop :=
  post (program.run environment state).1 (program.run environment state).2

/-- What holds of a result, given what holds of a value and what of a fault. -/
def settle (ok : α → σ → Prop) (bad : Fault → σ → Prop) : Except Fault α → σ → Prop
  | .ok value => ok value
  | .error fault => bad fault

/-- The action succeeds in a state with `ok`, or fails in one with `bad`. -/
def Action.Ends (environment : Environment σ) (action : Action α) (ok : α → σ → Prop)
    (bad : Fault → σ → Prop) (state : σ) : Prop :=
  Program.Ends environment action.run (settle ok bad) state

/-- As `Action.Ends`, for an action that knows the bus: `ok` and `bad` are about the bus too. -/
def BusAction.Ends (environment : Environment σ) (action : BusAction α)
    (ok : α → BusState → σ → Prop) (bad : Fault → BusState → σ → Prop) (bus : BusState)
    (state : σ) : Prop :=
  (action.run.run bus).Ends environment
    (fun ended => settle (ok · ended.2) (bad · ended.2) ended.1) state

namespace Program

variable {environment : Environment σ} {post : α → σ → Prop} {state : σ}

/-- A program that does nothing ends where it began. -/
theorem ends_pure (value : α) :
    (pure value : Program α).Ends environment post state ↔ post value state :=
  Iff.rfl

/-- A program that goes on ends where the second part does from where the first ended. -/
theorem ends_bind (program : Program α) (next : α → Program β) (post : β → σ → Prop) :
    (program >>= next).Ends environment post state ↔
      program.Ends environment (fun value => (next value).Ends environment post) state := by
  unfold Ends
  rw [run_bind]

/-- Changing the value changes what is said of it. -/
theorem ends_map (change : α → β) (program : Program α) (post : β → σ → Prop) :
    (change <$> program).Ends environment post state ↔
      program.Ends environment (fun value => post (change value)) state := by
  rw [map_eq_pure_bind, ends_bind]
  rfl

/-- What holds at the end may be weakened. -/
theorem Ends.mono {program : Program α} {weaker : α → σ → Prop}
    (h : program.Ends environment post state)
    (hpost : ∀ value after, post value after → weaker value after) :
    program.Ends environment weaker state :=
  hpost _ _ h

/-- What always holds holds at the end. -/
theorem ends_of_forall (program : Program α) (h : ∀ value after, post value after) :
    program.Ends environment post state :=
  h _ _

/-- A program has one end only, so two facts about its end hold together. -/
theorem Ends.and {program : Program α} {other : α → σ → Prop}
    (h : program.Ends environment post state) (hother : program.Ends environment other state) :
    program.Ends environment (fun value after => post value after ∧ other value after) state :=
  ⟨h, hother⟩

end Program

namespace Action

variable {environment : Environment σ} {ok : α → σ → Prop} {bad : Fault → σ → Prop} {state : σ}

/-- The two ways an action can end, one of which it does. -/
theorem ends_iff (action : Action α) :
    action.Ends environment ok bad state ↔
      match action.run.run environment state with
      | (.ok value, after) => ok value after
      | (.error fault, after) => bad fault after := by
  unfold Action.Ends Program.Ends
  generalize action.run.run environment state = ended
  obtain ⟨result | result, after⟩ := ended <;> rfl

/-- An action that does nothing succeeds where it began. -/
theorem ends_pure (value : α) :
    Action.Ends environment (pure value) ok bad state ↔ ok value state :=
  Iff.rfl

/-- After a success an action goes on, and it passes a fault on. -/
theorem ends_bind (action : Action α) (next : α → Action β) (ok : β → σ → Prop) :
    Action.Ends environment (action >>= next) ok bad state ↔
      action.Ends environment (fun value => (next value).Ends environment ok bad) bad state := by
  show Program.Ends _ (action.run >>= _) _ _ ↔ _
  rw [Program.ends_bind, ends_iff]
  unfold Program.Ends
  generalize action.run.run environment state = ended
  obtain ⟨result | result, after⟩ := ended <;> rfl

/-- After a fault its handler goes on, and a success stays. -/
theorem ends_tryCatch (action : Action α) (handler : Fault → Action α) :
    Action.Ends environment (tryCatch action handler) ok bad state ↔
      action.Ends environment ok
        (fun fault => (handler fault).Ends environment ok bad) state := by
  show Program.Ends _ (action.run >>= _) _ _ ↔ _
  rw [Program.ends_bind, ends_iff]
  unfold Program.Ends
  generalize action.run.run environment state = ended
  obtain ⟨result | result, after⟩ := ended <;> rfl

/-- A check ends as its result says. -/
theorem ends_ofExcept (result : Except Fault α) :
    Action.Ends environment (MonadExcept.ofExcept result) ok bad state ↔
      settle ok bad result state := by
  cases result <;> rfl

/-- An action whose value is not used ends where it does with it. -/
theorem ends_discard (action : Action α) (ok : Unit → σ → Prop) :
    Action.Ends environment (discard action) ok bad state ↔
      action.Ends environment (fun _ => ok ()) bad state := by
  show Action.Ends _ (action >>= fun _ => pure ()) _ _ _ ↔ _
  rw [ends_bind]
  rfl

/-- A program as an action succeeds. -/
theorem ends_liftM (program : Program α) :
    Action.Ends environment (liftM program) ok bad state ↔ program.Ends environment ok state := by
  show Program.Ends _ (program >>= _) _ _ ↔ _
  rw [Program.ends_bind]
  rfl

/-- The last of a list of actions begins where the others succeed. -/
theorem ends_forM_concat (list : List α) (last : α) (action : α → Action Unit)
    (ok : Unit → σ → Prop) :
    Action.Ends environment ((list ++ [last]).forM action) ok bad state ↔
      (list.forM action).Ends environment
        (fun _ => (action last).Ends environment ok bad) bad state := by
  have h : (list ++ [last]).forM action = (list.forM action >>= fun _ => action last) := by
    show forM (list ++ [last]) action = (forM list action >>= fun _ => action last)
    simp
  rw [h, ends_bind]

/-- What holds at the end may be weakened. -/
theorem Ends.mono {action : Action α} {weakOk : α → σ → Prop} {weakBad : Fault → σ → Prop}
    (h : action.Ends environment ok bad state)
    (hok : ∀ value after, ok value after → weakOk value after)
    (hbad : ∀ fault after, bad fault after → weakBad fault after) :
    action.Ends environment weakOk weakBad state := by
  rw [ends_iff] at h ⊢
  generalize action.run.run environment state = ended at h ⊢
  obtain ⟨fault | value, after⟩ := ended
  · exact hbad fault after h
  · exact hok value after h

/-- An action that has no way to fail succeeds. -/
theorem Ends.isOk {action : Action α} (h : action.Ends environment ok bad state)
    (hbad : ∀ fault after, ¬bad fault after) :
    (action.run.run environment state).1.isOk = true := by
  rw [ends_iff] at h
  generalize action.run.run environment state = ended at h ⊢
  obtain ⟨fault | value, after⟩ := ended
  · exact absurd h (hbad fault after)
  · rfl

/-- What holds at the end of the action's program holds however the action ends. -/
theorem Ends.and_run {action : Action α} {post : Except Fault α → σ → Prop}
    (h : action.Ends environment ok bad state)
    (hrun : Program.Ends environment action.run post state) :
    action.Ends environment (fun value after => ok value after ∧ post (.ok value) after)
      (fun fault after => bad fault after ∧ post (.error fault) after) state := by
  refine Program.Ends.mono (Program.Ends.and h hrun) ?_
  rintro (fault | value) after hafter
  · exact hafter
  · exact hafter

/-- What does not depend on how the action ends holds at the end of its program. -/
theorem ends_run_iff {action : Action α} {post : σ → Prop} :
    action.Ends environment (fun _ after => post after) (fun _ after => post after) state ↔
      Program.Ends environment action.run (fun _ after => post after) state := by
  rw [ends_iff]
  unfold Program.Ends
  generalize action.run.run environment state = ended
  obtain ⟨result | result, after⟩ := ended <;> rfl

end Action

namespace BusAction

variable {environment : Environment σ} {ok : α → BusState → σ → Prop}
  {bad : Fault → BusState → σ → Prop} {bus : BusState} {state : σ}

/-- After a success a bus action goes on, and it passes a fault on. -/
theorem ends_bind (action : BusAction α) (next : α → BusAction β)
    (ok : β → BusState → σ → Prop) :
    BusAction.Ends environment (action >>= next) ok bad bus state ↔
      action.Ends environment (fun value => (next value).Ends environment ok bad) bad
        bus state := by
  show Program.Ends _ (action.run.run bus >>= _) _ _ ↔ _
  rw [Program.ends_bind]
  unfold BusAction.Ends Program.Ends
  generalize (action.run.run bus).run environment state = ended
  obtain ⟨⟨result | result, after⟩, last⟩ := ended <;> rfl

/-- The width is the one recorded. -/
theorem ends_width (ok : BusWidth → BusState → σ → Prop) :
    BusAction.Ends environment BusAction.width ok bad bus state ↔ ok bus.width bus state :=
  Iff.rfl

/-- An action leaves what is recorded of the bus alone. -/
theorem ends_lift (action : Action α) :
    BusAction.Ends environment (BusAction.lift action) ok bad bus state ↔
      action.Ends environment (ok · bus) (bad · bus) state := by
  show Program.Ends _ (action.run >>= _) _ _ ↔ _
  rw [Program.ends_bind, Action.ends_iff]
  unfold Program.Ends
  generalize action.run.run environment state = ended
  obtain ⟨result | result, after⟩ := ended <;> rfl

/-- A bus action whose value is not used ends where it does with it. -/
theorem ends_discard (action : BusAction α) (ok : Unit → BusState → σ → Prop) :
    BusAction.Ends environment (discard action) ok bad bus state ↔
      action.Ends environment (fun _ => ok ()) bad bus state := by
  show BusAction.Ends _ (action >>= fun _ => pure ()) _ _ _ _ ↔ _
  rw [ends_bind]
  rfl

/-- A check while the bus is held ends as its result says. -/
theorem ends_ofExcept (result : Except Fault α) :
    BusAction.Ends environment (MonadExcept.ofExcept result) ok bad bus state ↔
      settle (ok · bus) (bad · bus) result state := by
  cases result <;> rfl

/-- A bus action whose faults are ignored goes on after either. -/
theorem ends_attempt (action : BusAction α) (ok : Unit → BusState → σ → Prop) :
    BusAction.Ends environment (BusAction.attempt action) ok bad bus state ↔
      action.Ends environment (fun _ => ok ()) (fun _ => ok ()) bus state := by
  show Program.Ends _ ((discard action).run.run bus >>= _) _ _ ↔ _
  rw [Program.ends_bind, ← ends_discard]
  unfold BusAction.Ends Program.Ends
  generalize ((discard action).run.run bus).run environment state = ended
  obtain ⟨⟨result | result, after⟩, last⟩ := ended <;> rfl

/-- A command without address or data is a call to the controller. -/
theorem ends_instruct (code : UInt8) (width : BusWidth) (ok : Unit → BusState → σ → Prop) :
    BusAction.Ends environment (BusAction.instruct code width) ok bad bus state ↔
      (Action.call (.command (.instruct code width))).Ends environment (fun _ => ok () bus)
        (bad · bus) state := by
  unfold BusAction.instruct BusAction.call
  rw [ends_discard, ends_lift]

/-- What holds at the end may be weakened. -/
theorem Ends.mono {action : BusAction α} {weakOk : α → BusState → σ → Prop}
    {weakBad : Fault → BusState → σ → Prop} (h : action.Ends environment ok bad bus state)
    (hok : ∀ value bus after, ok value bus after → weakOk value bus after)
    (hbad : ∀ fault bus after, bad fault bus after → weakBad fault bus after) :
    action.Ends environment weakOk weakBad bus state := by
  unfold BusAction.Ends Program.Ends at *
  generalize (action.run.run bus).run environment state = ended at h ⊢
  obtain ⟨⟨fault | value, bus⟩, after⟩ := ended
  · exact hbad fault bus after h
  · exact hok value bus after h

/-- An action has one end only, so two facts about its end hold together. -/
theorem Ends.and {action : BusAction α} {otherOk : α → BusState → σ → Prop}
    {otherBad : Fault → BusState → σ → Prop} (h : action.Ends environment ok bad bus state)
    (hother : action.Ends environment otherOk otherBad bus state) :
    action.Ends environment (fun value bus after => ok value bus after ∧ otherOk value bus after)
      (fun fault bus after => bad fault bus after ∧ otherBad fault bus after) bus state := by
  unfold BusAction.Ends Program.Ends at *
  generalize (action.run.run bus).run environment state = ended at h hother ⊢
  obtain ⟨⟨fault | value, bus⟩, after⟩ := ended
  · exact ⟨h, hother⟩
  · exact ⟨h, hother⟩

end BusAction

end NorFlash
