import NorFlash.Fault

/-!
# Engine programs

An operation of the flash engine is a program: a tree of requests to its surroundings, each followed
by a continuation for every answer. Requests are for the bus lock, the completion event, the
controller and the caller's progress report. `Program.run` carries out a program in an environment,
and `Program.runToCall` carries it out as far as its first request to the controller, so that other
callers can be given their turn there.

`run_bind` and `run_runToCall` say that running is compatible with sequencing and with pausing.
-/

namespace NorFlash

/-- What the bus lock guards: the engine's knowledge of the bus. -/
structure BusState where
  /-- The width of instructions that the device currently expects. -/
  width : BusWidth
  /-- The controller is in memory-mapped mode. -/
  mapped : Bool
  deriving DecidableEq

namespace BusState

/-- The bus before anything was done with it. -/
def fresh : BusState :=
  ⟨.single, false⟩

end BusState

/-- A program that ends with a value of type `α`. Times are in milliseconds. -/
inductive Program (α : Type) where
  | done (value : α)
  /-- Take the bus, waiting so long at most; the answer is `none` if it was not to be had. -/
  | acquire (patience : Nat) (next : Option BusState → Program α)
  /-- Give the bus back. -/
  | release (bus : BusState) (next : Program α)
  /-- Issue a new operation on the completion event. -/
  | arm (next : Program α)
  /-- Wait for the completion event, so long at most; the answer tells whether it came. -/
  | await (patience : Nat) (next : Bool → Program α)
  /-- Make a call to the controller. -/
  | call (request : BusCall) (next : Reply → Program α)
  /-- Tell the caller how many bytes are done. -/
  | report (count : Nat) (next : Program α)

namespace Program

/-- Continues a program with what follows its value. -/
def bind {α β : Type} : Program α → (α → Program β) → Program β
  | done value, next => next value
  | acquire patience rest, next => acquire patience fun bus => (rest bus).bind next
  | release bus rest, next => release bus (rest.bind next)
  | arm rest, next => arm (rest.bind next)
  | await patience rest, next => await patience fun arrived => (rest arrived).bind next
  | call request rest, next => call request fun reply => (rest reply).bind next
  | report count rest, next => report count (rest.bind next)

instance : Monad Program where
  pure := done
  bind := bind

/-- Going on by being done is not going on. -/
theorem bind_done {α : Type} (program : Program α) : program.bind done = program := by
  induction program <;> simp_all [bind, -Bool.forall_bool]

/-- Going on twice is going on by going on. -/
theorem bind_assoc {α β γ : Type} (program : Program α) (first : α → Program β)
    (second : β → Program γ) :
    (program.bind first).bind second = program.bind fun value => (first value).bind second := by
  induction program <;> simp_all [bind, -Bool.forall_bool]

instance : LawfulMonad Program :=
  LawfulMonad.mk' Program bind_done (fun _ _ => rfl) bind_assoc

/-- The program without its progress reports. -/
def silenced {α : Type} : Program α → Program α
  | done value => done value
  | acquire patience next => acquire patience fun bus => (next bus).silenced
  | release bus next => release bus next.silenced
  | arm next => arm next.silenced
  | await patience next => await patience fun arrived => (next arrived).silenced
  | call request next => call request fun reply => (next reply).silenced
  | report _ next => next.silenced

end Program

/-- Surroundings with a state of type `σ` that answer a program's requests. -/
structure Environment (σ : Type) where
  acquire : (patience : Nat) → σ → Option BusState × σ
  release : BusState → σ → σ
  arm : σ → σ
  await : (patience : Nat) → σ → Bool × σ
  call : BusCall → σ → Reply × σ
  report : (count : Nat) → σ → σ

namespace Program

variable {σ : Type} {α β : Type}

/-- Carries out a program to its end. -/
def run (environment : Environment σ) : Program α → σ → α × σ
  | done value, state => (value, state)
  | acquire patience next, state =>
      let (bus, state) := environment.acquire patience state
      (next bus).run environment state
  | release bus next, state => next.run environment (environment.release bus state)
  | arm next, state => next.run environment (environment.arm state)
  | await patience next, state =>
      let (arrived, state) := environment.await patience state
      (next arrived).run environment state
  | call request next, state =>
      let (reply, state) := environment.call request state
      (next reply).run environment state
  | report count next, state => next.run environment (environment.report count state)

/-- Carries out a program as far as its first request to the controller. What is left starts with
that request, or is done. -/
def runToCall (environment : Environment σ) : Program α → σ → Program α × σ
  | done value, state => (done value, state)
  | acquire patience next, state =>
      let (bus, state) := environment.acquire patience state
      (next bus).runToCall environment state
  | release bus next, state => next.runToCall environment (environment.release bus state)
  | arm next, state => next.runToCall environment (environment.arm state)
  | await patience next, state =>
      let (arrived, state) := environment.await patience state
      (next arrived).runToCall environment state
  | call request next, state => (call request next, state)
  | report count next, state => next.runToCall environment (environment.report count state)

/-- Running a sequence is running its parts one after the other. -/
theorem run_bind (environment : Environment σ) (program : Program α) (next : α → Program β)
    (state : σ) :
    (program >>= next).run environment state =
      (next (program.run environment state).1).run environment
        (program.run environment state).2 := by
  show (program.bind next).run environment state = _
  induction program generalizing state <;> simp_all [bind, run, -Bool.forall_bool]

/-- Pausing at the first request to the controller changes nothing by itself. -/
theorem run_runToCall (environment : Environment σ) (program : Program α) (state : σ) :
    (program.runToCall environment state).1.run environment
        (program.runToCall environment state).2 =
      program.run environment state := by
  induction program generalizing state <;> simp_all [runToCall, run, -Bool.forall_bool]

end Program

end NorFlash
