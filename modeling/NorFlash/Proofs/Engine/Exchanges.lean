import NorFlash.Proofs.Engine.Dialogue

/-!
# What a program exchanges

The exchanges of a run are what its program says to the controller and to the completion event,
without what it says to the bus lock and to its caller. `Program.Says` is a statement about the
value of a program and its exchanges, in any surroundings: what a program says is known from the
parts it is made of (`Says.bind`), and its reports make no difference (`Says.silenced`).
-/

namespace NorFlash

variable {σ α β : Type}

/-- Something said to the controller or to the completion event. -/
def Interaction.isExchange : Interaction → Bool
  | arm | await _ | call _ _ => true
  | acquire _ | release _ | report _ => false

namespace Dialogue

/-- What is said to the controller and to the completion event. -/
def exchanges (said : Dialogue) : Dialogue :=
  said.filter Interaction.isExchange

/-- The exchanges of two dialogues follow each other. -/
theorem exchanges_append (said more : Dialogue) :
    (said ++ more).exchanges = said.exchanges ++ more.exchanges :=
  List.filter_append ..

end Dialogue

namespace Program

/-- The dialogue of a sequence is that of its parts, one after the other. -/
theorem dialogue_bind (environment : Environment σ) (program : Program α) (next : α → Program β)
    (state : σ) :
    (program >>= next).dialogue environment state =
      program.dialogue environment state ++
        (next (program.run environment state).1).dialogue environment
          (program.run environment state).2 := by
  show (program.bind next).dialogue environment state = _
  induction program generalizing state <;> simp_all [bind, run, dialogue, -Bool.forall_bool]

/-- In any surroundings, the property holds of the program's value and of its exchanges. -/
def Says (post : α → Dialogue → Prop) (program : Program α) : Prop :=
  ∀ (σ : Type) (environment : Environment σ) (state : σ),
    post (program.run environment state).1 (program.dialogue environment state).exchanges

variable {post : α → Dialogue → Prop}

/-- A program that does nothing exchanges nothing. -/
theorem says_pure {value : α} (h : post value []) : (pure value : Program α).Says post :=
  fun _ _ _ => h

/-- A program that goes on exchanges what both its parts do. -/
theorem Says.bind {program : Program α} {next : α → Program β} {last : β → Dialogue → Prop}
    (h : program.Says post)
    (hnext : ∀ value said, post value said →
      (next value).Says fun result more => last result (said ++ more)) :
    (program >>= next).Says last := by
  intro σ environment state
  rw [run_bind, dialogue_bind, Dialogue.exchanges_append]
  exact hnext _ _ (h σ environment state) σ environment _

/-- What is said of a program may be weakened. -/
theorem Says.mono {program : Program α} {weaker : α → Dialogue → Prop} (h : program.Says post)
    (hpost : ∀ value said, post value said → weaker value said) : program.Says weaker :=
  fun σ environment state => hpost _ _ (h σ environment state)

/-- Changing the value exchanges nothing. -/
theorem Says.map {program : Program α} {last : β → Dialogue → Prop} {f : α → β}
    (h : program.Says post) (hpost : ∀ value said, post value said → last (f value) said) :
    (f <$> program).Says last := by
  rw [map_eq_pure_bind]
  exact h.bind fun value said hvalue => says_pure (by simpa using hpost value said hvalue)

end Program

/-- The surroundings, when nobody listens to the reports. -/
def Environment.deaf (environment : Environment σ) : Environment σ :=
  { environment with report := fun _ state => state }

namespace Program

/-- Without its reports a program does what it does when nobody listens to them. -/
theorem silenced_eq_deaf (environment : Environment σ) (program : Program α) (state : σ) :
    program.silenced.run environment state = program.run environment.deaf state ∧
      (program.silenced.dialogue environment state).exchanges =
        (program.dialogue environment.deaf state).exchanges := by
  induction program generalizing state with
  | done value => exact ⟨rfl, rfl⟩
  | acquire patience next ih => exact ih _ _
  | release bus next ih => exact ih _
  | arm next ih => exact (ih _).imp_right (congrArg (Interaction.arm :: ·))
  | await patience next ih => exact (ih _ _).imp_right (congrArg (Interaction.await _ :: ·))
  | call request next ih => exact (ih _ _).imp_right (congrArg (Interaction.call _ _ :: ·))
  | report count next ih => exact ih _

/-- Without its reports a program exchanges the same. -/
theorem Says.silenced {post : α → Dialogue → Prop} {program : Program α} (h : program.Says post) :
    program.silenced.Says post := by
  intro σ environment state
  obtain ⟨hrun, hsaid⟩ := silenced_eq_deaf environment program state
  rw [hrun, hsaid]
  exact h σ environment.deaf state

end Program

end NorFlash
