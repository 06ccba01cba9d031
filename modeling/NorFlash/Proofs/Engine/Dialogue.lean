import NorFlash.Engine.Program

/-!
# Dialogues

The dialogue of a run lists the requests of a program in order, each with its answer. A rule reads a
dialogue one interaction after the other: it goes from phase to phase, or it rejects what was said.
`Program.Follows` says of a program alone that it keeps to a rule whatever it is answered, and
`Program.Follows.run` that the rule then accepts the dialogue of every run, in any surroundings.
-/

namespace NorFlash

variable {σ φ γ α β : Type}

/-- A request of a program and the answer to it. -/
inductive Interaction where
  | acquire (bus : Option BusState)
  | release (bus : BusState)
  | arm
  | await (arrived : Bool)
  | call (request : BusCall) (reply : Reply)
  | report (count : Nat)

/-- What is said between a program and its surroundings. -/
abbrev Dialogue := List Interaction

/-- The phase after an interaction, if the interaction is allowed. -/
abbrev Rule (φ : Type) := φ → Interaction → Option φ

/-- The surroundings go from one state to another in an interaction. -/
inductive Environment.Says (environment : Environment σ) : σ → Interaction → σ → Prop where
  | acquire (patience : Nat) (state : σ) :
      Says environment state (.acquire (environment.acquire patience state).1)
        (environment.acquire patience state).2
  | release (bus : BusState) (state : σ) :
      Says environment state (.release bus) (environment.release bus state)
  | arm (state : σ) : Says environment state .arm (environment.arm state)
  | await (patience : Nat) (state : σ) :
      Says environment state (.await (environment.await patience state).1)
        (environment.await patience state).2
  | call (request : BusCall) (state : σ) :
      Says environment state (.call request (environment.call request state).1)
        (environment.call request state).2
  | report (count : Nat) (state : σ) :
      Says environment state (.report count) (environment.report count state)

namespace Dialogue

/-- The property holds of every interaction and of what has come of those before it. -/
def Throughout (advance : γ → Interaction → γ) (holds : γ → Interaction → Prop) :
    γ → Dialogue → Prop
  | _, [] => True
  | start, interaction :: rest =>
      holds start interaction ∧ Throughout advance holds (advance start interaction) rest

/-- What holds throughout holds of an interaction after what was said before it. -/
theorem Throughout.of_split {advance : γ → Interaction → γ} {holds : γ → Interaction → Prop}
    {start : γ} {before rest : Dialogue} {interaction : Interaction}
    (h : Throughout advance holds start (before ++ interaction :: rest)) :
    holds (before.foldl advance start) interaction := by
  induction before generalizing start with
  | nil => exact h.1
  | cons first before ih => exact ih h.2

end Dialogue

namespace Program

/-- The dialogue of a run. -/
def dialogue (environment : Environment σ) : Program α → σ → Dialogue
  | done _, _ => []
  | acquire patience next, state =>
      let (bus, state) := environment.acquire patience state
      .acquire bus :: (next bus).dialogue environment state
  | release bus next, state =>
      .release bus :: next.dialogue environment (environment.release bus state)
  | arm next, state => .arm :: next.dialogue environment (environment.arm state)
  | await patience next, state =>
      let (arrived, state) := environment.await patience state
      .await arrived :: (next arrived).dialogue environment state
  | call request next, state =>
      let (reply, state) := environment.call request state
      .call request reply :: (next reply).dialogue environment state
  | report count next, state =>
      .report count :: next.dialogue environment (environment.report count state)

/-- If every interaction tells what becomes of a part of the surroundings, so does the dialogue of a
run. -/
theorem tracks_run {environment : Environment σ} (part : σ → γ) (advance : γ → Interaction → γ)
    (holds : γ → Interaction → Prop)
    (hstep : ∀ state interaction after, environment.Says state interaction after →
      holds (part state) interaction ∧ part after = advance (part state) interaction)
    (program : Program α) (state : σ) :
    (program.dialogue environment state).Throughout advance holds (part state) ∧
      part (program.run environment state).2 =
        (program.dialogue environment state).foldl advance (part state) := by
  have hcons : ∀ {state interaction after last} {rest : Dialogue},
      environment.Says state interaction after →
      rest.Throughout advance holds (part after) ∧ part last = rest.foldl advance (part after) →
      Dialogue.Throughout advance holds (part state) (interaction :: rest) ∧
        part last = (interaction :: rest).foldl advance (part state) := by
    intro state interaction after last rest hsaid hrest
    obtain ⟨hholds, hafter⟩ := hstep state interaction after hsaid
    rw [hafter] at hrest
    exact ⟨⟨hholds, hrest.1⟩, hrest.2⟩
  induction program generalizing state with
  | done value => exact ⟨trivial, rfl⟩
  | acquire patience next ih => exact hcons (.acquire patience state) (ih _ _)
  | release bus next ih => exact hcons (.release bus state) (ih _)
  | arm next ih => exact hcons (.arm state) (ih _)
  | await patience next ih => exact hcons (.await patience state) (ih _ _)
  | call request next ih => exact hcons (.call request state) (ih _ _)
  | report count next ih => exact hcons (.report count state) (ih _)

/-- Whatever the program is answered, the rule allows what it does, and `post` holds of its value
and of the phase at its end. -/
def Follows (rule : Rule φ) (post : α → φ → Prop) : Program α → φ → Prop
  | done value, phase => post value phase
  | acquire _ next, phase =>
      ∀ bus, ∃ after, rule phase (.acquire bus) = some after ∧ (next bus).Follows rule post after
  | release bus next, phase =>
      ∃ after, rule phase (.release bus) = some after ∧ next.Follows rule post after
  | arm next, phase => ∃ after, rule phase .arm = some after ∧ next.Follows rule post after
  | await _ next, phase =>
      ∀ arrived, ∃ after, rule phase (.await arrived) = some after ∧
        (next arrived).Follows rule post after
  | call request next, phase =>
      ∀ reply, ∃ after, rule phase (.call request reply) = some after ∧
        (next reply).Follows rule post after
  | report count next, phase =>
      ∃ after, rule phase (.report count) = some after ∧ next.Follows rule post after

variable {rule : Rule φ} {phase : φ}

/-- A sequence follows a rule if its second part does from wherever the first one ends. -/
theorem Follows.bind {program : Program α} {next : α → Program β} {middle : α → φ → Prop}
    {post : β → φ → Prop} (h : program.Follows rule middle phase)
    (hnext : ∀ value after, middle value after → (next value).Follows rule post after) :
    (program >>= next).Follows rule post phase := by
  show (program.bind next).Follows rule post phase
  induction program generalizing phase with
  | done value => exact hnext value phase h
  | acquire patience rest ih => exact fun bus => (h bus).imp fun _ => And.imp_right (ih bus)
  | release bus rest ih => exact h.imp fun _ => And.imp_right ih
  | arm rest ih => exact h.imp fun _ => And.imp_right ih
  | await patience rest ih =>
      exact fun arrived => (h arrived).imp fun _ => And.imp_right (ih arrived)
  | call request rest ih => exact fun reply => (h reply).imp fun _ => And.imp_right (ih reply)
  | report count rest ih => exact h.imp fun _ => And.imp_right ih

/-- What holds at the end may be weakened. -/
theorem Follows.mono {program : Program α} {post weaker : α → φ → Prop}
    (h : program.Follows rule post phase)
    (hpost : ∀ value after, post value after → weaker value after) :
    program.Follows rule weaker phase := by
  have hbound : (program >>= pure).Follows rule weaker phase := h.bind hpost
  rwa [bind_pure] at hbound

/-- Without its reports a program follows a rule to which they make no difference. -/
theorem Follows.silenced {program : Program α} {post : α → φ → Prop}
    (h : program.Follows rule post phase)
    (hreport : ∀ phase count after, rule phase (.report count) = some after → after = phase) :
    program.silenced.Follows rule post phase := by
  induction program generalizing phase with
  | done value => exact h
  | acquire patience next ih => exact fun bus => (h bus).imp fun _ => And.imp_right (ih bus)
  | release bus next ih => exact h.imp fun _ => And.imp_right ih
  | arm next ih => exact h.imp fun _ => And.imp_right ih
  | await patience next ih =>
      exact fun arrived => (h arrived).imp fun _ => And.imp_right (ih arrived)
  | call request next ih => exact fun reply => (h reply).imp fun _ => And.imp_right (ih reply)
  | report count next ih =>
      obtain ⟨after, hafter, hnext⟩ := h
      exact ih (hreport _ _ _ hafter ▸ hnext)

/-- The rule accepts the dialogue of every run. -/
theorem Follows.run {program : Program α} {post : α → φ → Prop}
    (h : program.Follows rule post phase) (environment : Environment σ) (state : σ) :
    ∃ last, (program.dialogue environment state).foldlM rule phase = some last ∧
      post (program.run environment state).1 last := by
  -- The answers of the surroundings are among those the program was looked at for.
  induction program generalizing phase state with
  | done value => exact ⟨phase, rfl, h⟩
  | acquire patience next ih =>
      obtain ⟨after, hafter, hnext⟩ := h (environment.acquire patience state).1
      obtain ⟨last, hlast, hpost⟩ := ih _ hnext (environment.acquire patience state).2
      exact ⟨last, by simpa [dialogue, hafter] using hlast, hpost⟩
  | release bus next ih =>
      obtain ⟨after, hafter, hnext⟩ := h
      obtain ⟨last, hlast, hpost⟩ := ih hnext (environment.release bus state)
      exact ⟨last, by simpa [dialogue, hafter] using hlast, hpost⟩
  | arm next ih =>
      obtain ⟨after, hafter, hnext⟩ := h
      obtain ⟨last, hlast, hpost⟩ := ih hnext (environment.arm state)
      exact ⟨last, by simpa [dialogue, hafter] using hlast, hpost⟩
  | await patience next ih =>
      obtain ⟨after, hafter, hnext⟩ := h (environment.await patience state).1
      obtain ⟨last, hlast, hpost⟩ := ih _ hnext (environment.await patience state).2
      exact ⟨last, by simpa [dialogue, hafter] using hlast, hpost⟩
  | call request next ih =>
      obtain ⟨after, hafter, hnext⟩ := h (environment.call request state).1
      obtain ⟨last, hlast, hpost⟩ := ih _ hnext (environment.call request state).2
      exact ⟨last, by simpa [dialogue, hafter] using hlast, hpost⟩
  | report count next ih =>
      obtain ⟨after, hafter, hnext⟩ := h
      obtain ⟨last, hlast, hpost⟩ := ih hnext (environment.report count state)
      exact ⟨last, by simpa [dialogue, hafter] using hlast, hpost⟩

end Program

end NorFlash
