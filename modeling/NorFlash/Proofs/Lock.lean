import Mathlib.Logic.Basic
import NorFlash.Lock

/-!
# One value, one holder

What matters of a timed lock is its slot and who holds what, and six equations, two for each kind of
action, say what an action makes of the two. `TimedLock.Carries` says that the value is in one
place: in the slot while nobody holds the lock, and with one holder otherwise. Every action keeps
that (`carries_step`), so every interleaving does (`carries_after`). The value itself is the one the
lock was made for, with the changes made by its holders. `guards_one_value` is what a client can
rely on.
-/

namespace NorFlash

namespace TimedLock

variable {α : Type}

/-- The lock after actions. -/
def after (lock : TimedLock α) (actions : List (LockAction α)) : TimedLock α :=
  actions.foldl step lock

/-- What an action makes of the value. Only a holder can change it. -/
def change (lock : TimedLock α) : LockAction α → α → α
  | .update who change => if (lock.held? who).isSome then change else id
  | _ => id

/-- The value after actions. -/
def valueAfter (lock : TimedLock α) (value : α) : List (LockAction α) → α
  | [] => value
  | action :: rest => (lock.step action).valueAfter (lock.change action value) rest

/-- The value that an action puts back. -/
def putBack? (lock : TimedLock α) : LockAction α → Option α
  | .release who => lock.held? who
  | _ => none

/-- The value that a holder put back last, and the given one if none has. -/
def lastPutBack (lock : TimedLock α) (value : α) : List (LockAction α) → α
  | [] => value
  | action :: rest => (lock.step action).lastPutBack ((lock.putBack? action).getD value) rest

/-- The value is in the slot and nobody holds the lock. -/
def IsFree (lock : TimedLock α) (value : α) : Prop :=
  lock.slot = some value ∧ ∀ who, lock.held? who = none

/-- The slot is empty and one client holds the value, and no other holds anything. -/
def IsTaken (lock : TimedLock α) (value : α) : Prop :=
  lock.slot = none ∧ ∃ holder, ∀ who, lock.held? who = if who = holder then some value else none

/-- The lock has its value in one place. -/
def Carries (lock : TimedLock α) (value : α) : Prop :=
  lock.IsFree value ∨ lock.IsTaken value

/-- Two locks differ at most in which clients queue. -/
structure Alike (first second : TimedLock α) : Prop where
  slot : first.slot = second.slot
  held : ∀ who, first.held? who = second.held? who

variable (lock : TimedLock α) (who other : Nat)

/-! ## One action -/

/-- An attempt empties the slot, unless the client holds the value already. -/
theorem slot_attempt (expired : Bool) :
    (lock.attempt who expired).slot = if (lock.held? who).isSome then lock.slot else none := by
  unfold attempt held?
  cases lock.client who <;> cases hslot : lock.slot <;> simp [place, hslot]

/-- The client of an attempt holds what it held, or else what was in the slot. -/
theorem held?_attempt (expired : Bool) :
    (lock.attempt who expired).held? other =
      if other = who then (lock.held? who).or lock.slot else lock.held? other := by
  by_cases hother : other = who
  · unfold attempt held?
    cases hwho : lock.client who <;> cases hslot : lock.slot <;> cases expired <;>
      simp [place, hother, hwho]
  · unfold attempt held?
    cases lock.client who <;> cases lock.slot <;> simp [place, hother]

/-- A change of the value leaves the slot alone. -/
theorem slot_update (change : α → α) : (lock.update who change).slot = lock.slot := by
  unfold update
  cases lock.client who <;> rfl

/-- The value a client changes is its own. -/
theorem held?_update (change : α → α) :
    (lock.update who change).held? other =
      if other = who then (lock.held? who).map change else lock.held? other := by
  unfold update held?
  by_cases hother : other = who <;> cases hwho : lock.client who <;> simp [place, hother, hwho]

/-- A release puts into the slot what the client held. -/
theorem slot_release : (lock.release who).slot = (lock.held? who).or lock.slot := by
  unfold release held?
  cases lock.client who <;> simp [place]

/-- The client of a release holds nothing after it. -/
theorem held?_release :
    (lock.release who).held? other = if other = who then none else lock.held? other := by
  unfold release held?
  by_cases hother : other = who <;> cases hwho : lock.client who <;> simp [place, hother, hwho]

/-- An attempt that leaves a client with nothing changes nothing but who queues. -/
theorem alike_attempt {lock : TimedLock α} {who : Nat} {expired : Bool}
    (hnothing : (lock.attempt who expired).held? who = none) :
    (lock.attempt who expired).Alike lock := by
  rw [held?_attempt, if_pos rfl, Option.or_eq_none_iff] at hnothing
  obtain ⟨hheld, hslot⟩ := hnothing
  refine ⟨by simp [slot_attempt, hheld, hslot], fun other => ?_⟩
  by_cases hother : other = who
  · simp [held?_attempt, hother, hheld, hslot]
  · simp [held?_attempt, hother]

/-! ## Where the value is -/

/-- An attempt leaves the value in one place. -/
theorem carries_attempt {lock : TimedLock α} {value : α} (hcarries : lock.Carries value)
    (who : Nat) (expired : Bool) : (lock.attempt who expired).Carries value := by
  obtain ⟨hslot, hnobody⟩ | ⟨hslot, holder, hholder⟩ := hcarries
  case inl =>
    refine .inr ⟨by simp [slot_attempt, hnobody], who, fun other => ?_⟩
    simp [held?_attempt, hnobody, hslot]
  case inr =>
    refine .inr ⟨by simp [slot_attempt, hslot], holder, fun other => ?_⟩
    rw [held?_attempt, hslot, Option.or_none, ← hholder]
    exact ite_eq_right_iff.mpr fun hother => hother ▸ rfl

/-- A change leaves the value in one place, changed if the client holds it. -/
theorem carries_update {lock : TimedLock α} {value : α} (hcarries : lock.Carries value)
    (who : Nat) (change : α → α) :
    (lock.update who change).Carries (lock.change (.update who change) value) := by
  obtain ⟨hslot, hnobody⟩ | ⟨hslot, holder, hholder⟩ := hcarries
  case inl =>
    refine .inl ⟨?_, fun other => ?_⟩
    · simp [slot_update, TimedLock.change, hnobody, hslot]
    · simp [held?_update, hnobody]
  case inr =>
    refine .inr ⟨by rw [slot_update, hslot], holder, fun other => ?_⟩
    by_cases hwho : who = holder
    · subst hwho
      by_cases hother : other = who <;> simp [held?_update, TimedLock.change, hholder, hother]
    · by_cases hother : other = who <;>
        simp [held?_update, TimedLock.change, hholder, hother, hwho]

/-- A release leaves the value in one place. -/
theorem carries_release {lock : TimedLock α} {value : α} (hcarries : lock.Carries value)
    (who : Nat) : (lock.release who).Carries value := by
  obtain ⟨hslot, hnobody⟩ | ⟨hslot, holder, hholder⟩ := hcarries
  case inl =>
    refine .inl ⟨by simp [slot_release, hnobody, hslot], fun other => ?_⟩
    simp [held?_release, hnobody]
  case inr =>
    by_cases hwho : who = holder
    · refine .inl ⟨by simp [slot_release, hholder, hwho], fun other => ?_⟩
      simp [held?_release, hholder, hwho]
    · refine .inr ⟨by simp [slot_release, hholder, hwho, hslot], holder, fun other => ?_⟩
      by_cases hother : other = who <;> simp [held?_release, hholder, hother, hwho]

/-- Every action leaves the value in one place, changed by nobody but its holder. -/
theorem carries_step {lock : TimedLock α} {value : α} (hcarries : lock.Carries value)
    (action : LockAction α) : (lock.step action).Carries (lock.change action value) := by
  cases action with
  | attempt who expired => exact carries_attempt hcarries who expired
  | update who change => exact carries_update hcarries who change
  | release who => exact carries_release hcarries who

/-- Every interleaving does. -/
theorem carries_after {lock : TimedLock α} {value : α} (hcarries : lock.Carries value)
    (actions : List (LockAction α)) :
    (lock.after actions).Carries (lock.valueAfter value actions) := by
  induction actions generalizing lock value with
  | nil => exact hcarries
  | cons action rest ih => exact ih (carries_step hcarries action)

/-- A lock nobody holds has its value in the slot. -/
theorem carries_free (value : α) : (free value).Carries value :=
  .inl ⟨rfl, fun _ => rfl⟩

/-- A value that is in the slot after an action was put there by it, or it was there before. -/
theorem slot_step {lock : TimedLock α} {action : LockAction α} {value : α}
    (hslot : (lock.step action).slot = some value) :
    (lock.putBack? action).or lock.slot = some value := by
  cases action with
  | attempt who expired =>
      rw [step, slot_attempt] at hslot
      split at hslot
      · exact hslot
      · cases hslot
  | update who change => rwa [step, slot_update] at hslot
  | release who => rwa [step, slot_release] at hslot

/-- What is in the slot is what was put back last. -/
theorem slot_after {lock : TimedLock α} {value seen : α}
    (hlast : ∀ {seen}, lock.slot = some seen → seen = value) {actions : List (LockAction α)}
    (hslot : (lock.after actions).slot = some seen) : seen = lock.lastPutBack value actions := by
  induction actions generalizing lock value with
  | nil => exact hlast hslot
  | cons action rest ih =>
      refine ih (fun hstep => ?_) hslot
      have hput := slot_step hstep
      cases hback : lock.putBack? action with
      | none => exact hlast (by simpa [hback] using hput)
      | some back => simpa [hback, eq_comm] using hput

/-! ## Attempts that give up -/

/-- Locks that differ in who queues go on so. -/
theorem alike_step {first second : TimedLock α} (halike : first.Alike second)
    (action : LockAction α) : (first.step action).Alike (second.step action) := by
  obtain ⟨hslot, hheld⟩ := halike
  cases action with
  | attempt who expired =>
      exact ⟨by simp [step, slot_attempt, hslot, hheld],
        fun other => by simp [step, held?_attempt, hslot, hheld]⟩
  | update who change =>
      exact ⟨by simp [step, slot_update, hslot],
        fun other => by simp [step, held?_update, hheld]⟩
  | release who =>
      exact ⟨by simp [step, slot_release, hslot, hheld],
        fun other => by simp [step, held?_release, hheld]⟩

/-- Locks that differ in their queues do so after any actions. -/
theorem alike_after {first second : TimedLock α} (halike : first.Alike second)
    (actions : List (LockAction α)) : (first.after actions).Alike (second.after actions) := by
  induction actions generalizing first second with
  | nil => exact halike
  | cons action rest ih => exact ih (alike_step halike action)

/-- Whatever clients do with a lock, its value is either in the slot while nobody holds the lock, or
with exactly one holder while the slot is empty, and it is the value the lock was made for with all
the changes that holders made. An attempt that does not get it changes nothing for anybody, also
later. An attempt that finds it in the slot gets it, whatever the time, and what it gets is what the
last holder put back. -/
theorem guards_one_value (value : α) (actions : List (LockAction α)) :
    let lock := (free value).after actions
    let current := (free value).valueAfter value actions
    Xor (lock.slot = some current ∧ ∀ who, lock.held? who = none)
      (lock.slot = none ∧
        ∃ holder, ∀ who, lock.held? who = if who = holder then some current else none) ∧
    (∀ who expired, (lock.attempt who expired).held? who = none →
      ∀ rest, ((lock.attempt who expired).after rest).Alike (lock.after rest)) ∧
    (∀ who expired, lock.slot.isSome →
      (lock.attempt who expired).held? who = some current ∧
        (lock.attempt who expired).slot = none) ∧
    ∀ who expired seen, lock.held? who = none → (lock.attempt who expired).held? who = some seen →
      seen = (free value).lastPutBack value actions := by
  intro lock current
  have hcarries : lock.Carries current := carries_after (carries_free value) actions
  refine ⟨?_, fun who expired hnothing => alike_after (alike_attempt hnothing),
    fun who expired hfull => ?_, fun who expired seen hwho hseen => ?_⟩
  · obtain ⟨hslot, hnobody⟩ | ⟨hslot, hholder⟩ := hcarries
    case inl => exact .inl ⟨⟨hslot, hnobody⟩, fun ⟨hempty, _⟩ => by simp [hslot] at hempty⟩
    case inr => exact .inr ⟨⟨hslot, hholder⟩, fun ⟨hfull, _⟩ => by simp [hslot] at hfull⟩
  · obtain ⟨hslot, hnobody⟩ | ⟨hslot, -⟩ := hcarries
    case inl => exact ⟨by simp [held?_attempt, hnobody, hslot], by simp [slot_attempt, hnobody]⟩
    case inr => simp [hslot] at hfull
  · rw [held?_attempt, if_pos rfl, hwho, Option.none_or] at hseen
    exact slot_after (fun h => (Option.some.inj h).symm) hseen

/-- One client holds the lock and adds one to its value, while another queues and a third gives up.
When it puts the value back, a fourth gets it before the one that queues, although its time is
over. -/
theorem guards_one_value_of_overtaking :
    let lock := (free 5).after
      [.attempt 0 false, .attempt 1 false, .attempt 2 true, .update 0 (· + 1), .release 0]
    lock.client 1 = .queueing ∧ (lock.attempt 3 true).held? 3 = some 6 ∧
      (lock.attempt 3 true).slot = none ∧
        ∀ rest, (((lock.attempt 3 true).attempt 1 true).after rest).Alike
          ((lock.attempt 3 true).after rest) := by
  intro lock
  obtain ⟨-, -, hfull, -⟩ := guards_one_value 5
    [.attempt 0 false, .attempt 1 false, .attempt 2 true, .update 0 (· + 1), .release 0]
  obtain ⟨hheld, hslot⟩ := hfull 3 true rfl
  obtain ⟨-, hgives, -⟩ := guards_one_value 5
    [.attempt 0 false, .attempt 1 false, .attempt 2 true, .update 0 (· + 1), .release 0,
      .attempt 3 true]
  exact ⟨rfl, hheld, hslot, hgives 1 true rfl⟩

end TimedLock

end NorFlash
