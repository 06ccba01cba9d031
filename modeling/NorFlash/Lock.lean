/-!
# Timed locks

A timed lock guards a value by moving it: the value lies in the slot while nobody holds the lock,
and with its holder otherwise, so there is never a second copy. A client that finds the slot empty
queues until the value is back or its patience ends. `TimedLock.step` is one atomic action of one
client, and an interleaving is a list of such actions.
-/

namespace NorFlash

/-- One client of a lock. -/
inductive LockClient (α : Type) where
  | away
  | queueing
  | holding (value : α)
  deriving DecidableEq

/-- A lock and its clients, by number. -/
structure TimedLock (α : Type) where
  slot : Option α
  client : Nat → LockClient α

/-- An action of one client. -/
inductive LockAction (α : Type) where
  /-- Look at the slot; give up if it is empty and the deadline has passed. -/
  | attempt (who : Nat) (expired : Bool)
  /-- Change the value while holding it. -/
  | update (who : Nat) (change : α → α)
  /-- Put the value back. -/
  | release (who : Nat)

namespace TimedLock

variable {α : Type}

/-- A lock that nobody has touched. -/
def free (value : α) : TimedLock α :=
  ⟨some value, fun _ => .away⟩

/-- The lock with one client in a new position. -/
def place (lock : TimedLock α) (who : Nat) (position : LockClient α) : TimedLock α :=
  { lock with client := fun other => if other = who then position else lock.client other }

/-- A client that holds nothing takes the value if it is in the slot, whatever the time. If the slot
is empty it goes on queueing, or goes away once its deadline has passed. -/
def attempt (lock : TimedLock α) (who : Nat) (expired : Bool) : TimedLock α :=
  match lock.client who, lock.slot with
  | .holding _, _ => lock
  | _, some value => { lock with slot := none }.place who (.holding value)
  | _, none => lock.place who (if expired then .away else .queueing)

/-- A holder changes its value. -/
def update (lock : TimedLock α) (who : Nat) (change : α → α) : TimedLock α :=
  match lock.client who with
  | .holding value => lock.place who (.holding (change value))
  | _ => lock

/-- A holder puts its value back. -/
def release (lock : TimedLock α) (who : Nat) : TimedLock α :=
  match lock.client who with
  | .holding value => { lock with slot := some value }.place who .away
  | _ => lock

/-- One action of one client. -/
def step (lock : TimedLock α) : LockAction α → TimedLock α
  | .attempt who expired => lock.attempt who expired
  | .update who change => lock.update who change
  | .release who => lock.release who

/-- The value a client holds. -/
def held? (lock : TimedLock α) (who : Nat) : Option α :=
  match lock.client who with
  | .holding value => some value
  | _ => none

end TimedLock

end NorFlash
