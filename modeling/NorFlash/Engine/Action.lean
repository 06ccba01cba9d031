import NorFlash.Engine.Program

/-!
# Engine actions

An action is a program that can fail. A bus action is one that runs while the engine holds the bus,
and so knows and changes the state of the bus; what it changed stays changed when it fails.
-/

namespace NorFlash

/-- A program that can fail. -/
abbrev Action := ExceptT Fault Program

/-- A program that can fail and that runs while the bus is held. -/
abbrev BusAction := ExceptT Fault (StateT BusState Program)

namespace Program

/-- Makes a deferred call and waits for its completion. The result is what the call received, and
how it ended. A call that fails or does not complete in time is aborted at once, so that nothing is
left in progress. -/
def exchange (request : BusCall) (patience : Nat) : Program (Option Bytes × Except Fault Unit) :=
  .arm <| .call request fun
    | .error cause => .call .abort fun _ => .done (none, .error (.bus cause))
    | .ok received => .await patience fun
        | true => .done (received, .ok ())
        | false => .call .abort fun _ => .done (received, .error .timeout)

end Program

namespace Action

/-- Makes a call to the controller. -/
def call (request : BusCall) : Action (Option Bytes) :=
  ExceptT.mk <| .call request fun
    | .error cause => .done (.error (.bus cause))
    | .ok received => .done (.ok received)

/-- Stops whatever is in progress, which a controller never refuses. -/
def abort : Action Unit :=
  ExceptT.mk <| .call .abort fun _ => .done (.ok ())

/-- Tells the caller how many bytes are done. -/
def report (count : Nat) : Action Unit :=
  ExceptT.mk <| .report count <| .done (.ok ())

/-- The action without its progress reports. -/
def silenced {α : Type} (action : Action α) : Action α :=
  ExceptT.mk (Program.silenced action.run)

end Action

namespace BusAction

variable {α : Type}

/-- An action as a bus action that leaves the bus state alone. -/
def lift (action : Action α) : BusAction α :=
  ExceptT.mk (liftM action.run)

/-- The width the device expects instructions on. -/
def width : BusAction BusWidth :=
  return (← get).width

/-- Records the width the device expects from now on. -/
def setWidth (width : BusWidth) : BusAction Unit :=
  modify fun bus => { bus with width }

/-- Makes a call to the controller. -/
def call (request : BusCall) : BusAction (Option Bytes) :=
  lift (Action.call request)

/-- Sends an instruction without address or data. -/
def instruct (code : UInt8) (width : BusWidth) : BusAction Unit :=
  discard <| call (.command (.instruct code width))

/-- Makes a deferred call and waits for its completion. -/
def transfer (request : BusCall) (patience : Nat) : BusAction (Option Bytes) := do
  let (received, outcome) ← lift (liftM (Program.exchange request patience))
  MonadExcept.ofExcept outcome
  return received

/-- Ends the mapping, if the controller is in memory-mapped mode. -/
def leaveMapped : BusAction Unit := do
  if (← get).mapped then
    lift Action.abort
    modify fun bus => { bus with mapped := false }

/-- Carries out an action and goes on after it, however it ended. -/
def attempt (action : BusAction α) : BusAction Unit :=
  tryCatch (discard action) fun _ => pure ()

end BusAction

end NorFlash
