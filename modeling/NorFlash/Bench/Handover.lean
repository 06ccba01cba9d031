import NorFlash.Event
import NorFlash.Lock

/-!
# Event and lock exercises

Steps that exercise one completion event and one timed lock around a number, with a second party
that acts a little later. The caller here is client 0 of the lock and the other party is client 1.
-/

namespace NorFlash

/-- One step of an exercise. Times are in milliseconds, and issued tokens are referred to by their
place in a list. -/
inductive SyncStep where
  | arm
  | token
  | equal (first second : Nat)
  | signal
  | signalFor (place : Nat)
  | wait (patience : Nat)
  /-- A wait while the other party signals after its delay. -/
  | waitForOther (patience : Nat)
  | lock (patience : Nat)
  | add (amount : UInt32)
  | get
  | unlock
  /-- The other party locks, and the caller lets go of the lock after the delay. -/
  | handover (patience : Nat)

/-- What a step answers. -/
inductive SyncAnswer where
  | nothing
  | flag (value : Bool)
  | number (value : UInt32)
  | token (token : Token)
  | unlocked
  deriving DecidableEq

/-- An event, a lock around a number, and the tokens asked for so far. -/
structure SyncBench where
  event : Event
  lock : TimedLock UInt32
  tokens : Array Token

namespace SyncBench

/-- The caller's number among the clients of the lock. -/
def caller : Nat := 0

/-- The other party's number among the clients of the lock. -/
def other : Nat := 1

/-- The delay after which the other party or the caller acts. -/
def delay : Nat := 2

/-- A fresh event, and a lock around a number. -/
def fresh (value : UInt32) : SyncBench :=
  ⟨.fresh, .free value, #[]⟩

/-- Adds a token to the list and answers it. -/
def listToken (bench : SyncBench) (token : Token) : SyncAnswer × SyncBench :=
  (.token token, { bench with tokens := bench.tokens.push token })

/-- The value the caller holds. -/
def heldAnswer (bench : SyncBench) : SyncAnswer :=
  match bench.lock.held? caller with
  | some value => .number value
  | none => .unlocked

/-- Whether a client holds the lock. -/
def holds (bench : SyncBench) (who : Nat) : Bool :=
  (bench.lock.held? who).isSome

/-- Takes one step. -/
def take (bench : SyncBench) : SyncStep → SyncAnswer × SyncBench
  | .arm =>
      let event := bench.event.arm
      { bench with event }.listToken event.token
  | .token => bench.listToken bench.event.token
  | .equal first second => (.flag (bench.tokens[first]? == bench.tokens[second]?), bench)
  | .signal => (.nothing, { bench with event := bench.event.signal })
  | .signalFor place =>
      match bench.tokens[place]? with
      | some token => (.nothing, { bench with event := bench.event.signalFor token })
      | none => (.nothing, bench)
  | .wait _ =>
      let (arrived, event) := bench.event.wait
      (.flag arrived, { bench with event })
  | .waitForOther patience =>
      if bench.event.done then
        (.flag true, { bench with event := bench.event.wait.2.signal })
      else if delay < patience then
        (.flag true, { bench with event := bench.event.signal.wait.2 })
      else
        (.flag false, { bench with event := bench.event.signal })
  | .lock _ =>
      if bench.holds caller then
        (.flag false, bench)
      else
        let bench := { bench with lock := bench.lock.attempt caller true }
        (.flag (bench.holds caller), bench)
  | .add amount =>
      let bench := { bench with lock := bench.lock.update caller (· + amount) }
      (bench.heldAnswer, bench)
  | .get => (bench.heldAnswer, bench)
  | .unlock => (.flag (bench.holds caller), { bench with lock := bench.lock.release caller })
  | .handover patience =>
      let queued := bench.lock.attempt other false
      let released := queued.release caller
      let taken := released.attempt other (patience ≤ delay)
      let answer := match taken.held? other with
        | some value => SyncAnswer.number value
        | none => .nothing
      (answer, { bench with lock := taken.release other })

/-- Takes steps one after the other. -/
def play (bench : SyncBench) : List SyncStep → List SyncAnswer
  | [] => []
  | step :: rest =>
      let (answer, bench) := bench.take step
      answer :: bench.play rest

end SyncBench

end NorFlash
