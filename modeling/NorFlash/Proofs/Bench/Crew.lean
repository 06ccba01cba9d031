import Mathlib.Logic.Function.Basic
import NorFlash.Proofs.Engine.Dialogue

/-!
# Several callers at once

The members of a crew make their requests of the same surroundings, one request at a time, in the
order of a schedule. `Crew.interleave_keeps` is how to reason about all schedules: if each member
keeps to a rule, and each interaction that the rule allows keeps an invariant of the phases of all
members, the surroundings and what was said, then the invariant holds whatever the schedule.
-/

namespace NorFlash

variable {σ φ α : Type} {count : Nat}

namespace Program

variable {environment : Environment σ} {program rest : Program α} {state after : σ}
  {interaction : Interaction}

/-- Carries out the first request of a program: the interaction, the rest of the program and the
surroundings afterwards. -/
def advance (environment : Environment σ) : Program α → σ → Option (Interaction × Program α × σ)
  | done _, _ => none
  | acquire patience next, state =>
      let (bus, state) := environment.acquire patience state
      some (.acquire bus, next bus, state)
  | release bus next, state => some (.release bus, next, environment.release bus state)
  | arm next, state => some (.arm, next, environment.arm state)
  | await patience next, state =>
      let (arrived, state) := environment.await patience state
      some (.await arrived, next arrived, state)
  | call request next, state =>
      let (reply, state) := environment.call request state
      some (.call request reply, next reply, state)
  | report count next, state => some (.report count, next, environment.report count state)

/-- The value of a program that has nothing left to do. -/
def value? : Program α → Option α
  | done value => some value
  | _ => none

/-- Carrying out one request and then the rest is carrying out the program. -/
theorem run_of_advance (h : program.advance environment state = some (interaction, rest, after)) :
    program.run environment state = rest.run environment after ∧
      program.dialogue environment state = interaction :: rest.dialogue environment after := by
  cases program <;> cases h <;> exact ⟨rfl, rfl⟩

/-- What a program says in a turn is what its surroundings answer then. -/
theorem says_of_advance (h : program.advance environment state = some (interaction, rest, after)) :
    environment.Says state interaction after := by
  cases program with
  | done value => cases h
  | acquire patience next => cases h; exact .acquire patience state
  | release bus next => cases h; exact .release bus state
  | arm next => cases h; exact .arm state
  | await patience next => cases h; exact .await patience state
  | call request next => cases h; exact .call request state
  | report count next => cases h; exact .report count state

/-- The rule allows the first request of a program that keeps to it, and the rest keeps to it. -/
theorem Follows.advance {rule : Rule φ} {post : α → φ → Prop} {phase : φ}
    (hfollows : program.Follows rule post phase)
    (h : program.advance environment state = some (interaction, rest, after)) :
    ∃ next, rule phase interaction = some next ∧ rest.Follows rule post next := by
  cases program with
  | done value => cases h
  | acquire patience next => cases h; exact hfollows _
  | release bus next => cases h; exact hfollows
  | arm next => cases h; exact hfollows
  | await patience next => cases h; exact hfollows _
  | call request next => cases h; exact hfollows _
  | report count next => cases h; exact hfollows

/-- A program that is done has the value its rule promises. -/
theorem Follows.of_value? {rule : Rule φ} {post : α → φ → Prop} {phase : φ} {value : α}
    (hfollows : program.Follows rule post phase) (h : value ∈ program.value?) :
    post value phase := by
  cases program with
  | done result => exact Option.some.inj h ▸ hfollows
  | _ => cases h

end Program

/-- Several callers, each with the rest of its program, and what they have said so far. -/
structure Crew (σ α : Type) (count : Nat) where
  state : σ
  left : Fin count → Program α
  said : List (Fin count × Interaction)

namespace Crew

/-- The callers before any of them has said anything. -/
def assemble (state : σ) (programs : Fin count → Program α) : Crew σ α count :=
  ⟨state, programs, []⟩

variable (environment : Environment σ)

/-- Lets one member make its next request, if it is not done. -/
def pick (crew : Crew σ α count) (who : Fin count) : Crew σ α count :=
  match (crew.left who).advance environment crew.state with
  | none => crew
  | some (interaction, rest, state) =>
      ⟨state, Function.update crew.left who rest, crew.said ++ [(who, interaction)]⟩

/-- Lets the members make their requests in the order of a schedule. -/
def interleave (crew : Crew σ α count) (schedule : List (Fin count)) : Crew σ α count :=
  schedule.foldl (pick environment) crew

variable {environment}

/-- A member that is picked goes on as it would alone. -/
theorem run_pick (crew : Crew σ α count) (who : Fin count) :
    ((crew.pick environment who).left who).run environment (crew.pick environment who).state =
      (crew.left who).run environment crew.state := by
  unfold pick
  split
  · rfl
  · rename_i interaction rest state hadvance
    dsimp only
    rw [Function.update_self]
    exact (Program.run_of_advance hadvance).1.symm

section Keeps

variable {rule : Rule φ} {post : Fin count → α → φ → Prop}
  {invariant : (Fin count → φ) → σ → List (Fin count × Interaction) → Prop}
  {phases : Fin count → φ} {crew : Crew σ α count}

/-- Every member keeps to the rule in its phase, and the invariant holds. -/
structure Keeps (rule : Rule φ) (post : Fin count → α → φ → Prop)
    (invariant : (Fin count → φ) → σ → List (Fin count × Interaction) → Prop)
    (phases : Fin count → φ) (crew : Crew σ α count) : Prop where
  follows : ∀ who, (crew.left who).Follows rule (post who) (phases who)
  holds : invariant phases crew.state crew.said

/-- An invariant that whatever is said in turn keeps, a crew keeps when one member has its turn. -/
theorem Keeps.pick (h : crew.Keeps rule post invariant phases) (who : Fin count)
    (hstep : ∀ phases state said who interaction phase after,
      invariant phases state said → rule (phases who) interaction = some phase →
      environment.Says state interaction after →
      invariant (Function.update phases who phase) after (said ++ [(who, interaction)])) :
    ∃ phases, (crew.pick environment who).Keeps rule post invariant phases := by
  unfold Crew.pick
  split
  · exact ⟨phases, h⟩
  · rename_i interaction rest state hadvance
    obtain ⟨phase, hnext, hrest⟩ := (h.follows who).advance hadvance
    refine ⟨Function.update phases who phase, fun other => ?_, ?_⟩
    · by_cases hother : other = who
      · subst hother
        simpa using hrest
      · simpa [hother] using h.follows other
    · exact hstep _ _ _ _ _ _ _ h.holds hnext (Program.says_of_advance hadvance)

/-- What every interaction that the rule allows keeps, every schedule keeps. -/
theorem interleave_keeps (h : crew.Keeps rule post invariant phases)
    (hstep : ∀ phases state said who interaction phase after,
      invariant phases state said → rule (phases who) interaction = some phase →
      environment.Says state interaction after →
      invariant (Function.update phases who phase) after (said ++ [(who, interaction)]))
    (schedule : List (Fin count)) :
    ∃ phases, (crew.interleave environment schedule).Keeps rule post invariant phases := by
  induction schedule generalizing crew phases with
  | nil => exact ⟨phases, h⟩
  | cons who rest ih =>
      obtain ⟨next, hnext⟩ := h.pick who hstep
      exact ih hnext

end Keeps

end Crew

end NorFlash
