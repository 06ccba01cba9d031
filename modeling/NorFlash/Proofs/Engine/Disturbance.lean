import NorFlash.Engine.Program

/-!
# Disturbed surroundings

What happens to the surroundings of a program between two of its requests, apart from the program:
`Environment.disturbed` changes its state before every request that it answers. Its state counts the
requests, so that each change can be a different one.
-/

namespace NorFlash

variable {σ α : Type}

/-- The surroundings, with a change of their state before each request they answer. The requests are
counted. -/
def Environment.disturbed (environment : Environment σ) (disturb : Nat → σ → σ) :
    Environment (σ × Nat) where
  acquire patience state :=
    let (bus, after) := environment.acquire patience (disturb state.2 state.1)
    (bus, after, state.2 + 1)
  release bus state := (environment.release bus (disturb state.2 state.1), state.2 + 1)
  arm state := (environment.arm (disturb state.2 state.1), state.2 + 1)
  await patience state :=
    let (arrived, after) := environment.await patience (disturb state.2 state.1)
    (arrived, after, state.2 + 1)
  call request state :=
    let (reply, after) := environment.call request (disturb state.2 state.1)
    (reply, after, state.2 + 1)
  report count state := (environment.report count (disturb state.2 state.1), state.2 + 1)

/-- Changes that change nothing make no difference to a run. -/
theorem Program.run_disturbed {disturb : Nat → σ → σ}
    (h : ∀ count state, disturb count state = state) (environment : Environment σ)
    (program : Program α) (state : σ) (count : Nat) :
    ((program.run (environment.disturbed disturb) (state, count)).1,
        (program.run (environment.disturbed disturb) (state, count)).2.1) =
      program.run environment state := by
  obtain rfl : disturb = fun _ state => state := funext fun count => funext (h count)
  induction program generalizing state count with
  | done value => rfl
  | acquire patience next ih => exact ih _ _ _
  | release bus next ih => exact ih _ _
  | arm next ih => exact ih _ _
  | await patience next ih => exact ih _ _ _
  | call request next ih => exact ih _ _ _
  | report reported next ih => exact ih _ _

end NorFlash
