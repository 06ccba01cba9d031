/-!
# Completion events

A completion event is a latch that a controller sets when a deferred operation has finished, and
that the engine waits for. Every operation is issued under a fresh token. A controller that reports
by token cannot finish a later operation with a late report: `Event.signalFor` heeds the newest
token only.
-/

namespace NorFlash

/-- The number of one issued operation. -/
structure Token where
  number : UInt64
  deriving DecidableEq

namespace Token

/-- The token as shown to a user. -/
def text (token : Token) : String :=
  "Token(" ++ toString token.number.toNat ++ ")"

end Token

/-- The latch, and the token of the newest operation. -/
structure Event where
  token : Token
  done : Bool
  deriving DecidableEq

namespace Event

/-- An event that no operation has used. -/
def fresh : Event :=
  ⟨⟨0⟩, false⟩

/-- Issues an operation: the next token, and no completion yet. -/
def arm (event : Event) : Event :=
  ⟨⟨event.token.number + 1⟩, false⟩

/-- Reports the newest operation finished. -/
def signal (event : Event) : Event :=
  { event with done := true }

/-- Reports the operation with the given token finished, which matters only while it is the
newest. -/
def signalFor (event : Event) (token : Token) : Event :=
  if event.token = token then event.signal else event

/-- A wait with no report arriving during it: whether the latch was set, and the latch cleared. -/
def wait (event : Event) : Bool × Event :=
  (event.done, { event with done := false })

/-- Reporting the operation begun last completes the event. -/
theorem signalFor_token (event : Event) : event.signalFor event.token = event.signal := by
  simp [signalFor]

/-- Reporting an operation that is not the one begun last changes nothing. -/
theorem signalFor_of_ne {event : Event} {token : Token} (h : event.token ≠ token) :
    event.signalFor token = event := by
  simp [signalFor, h]

end Event

end NorFlash
