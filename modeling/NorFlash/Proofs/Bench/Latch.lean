import NorFlash.Bench.Basic
import NorFlash.Proofs.Engine.Settlement

/-!
# The latch of the completion event

Between two deferred calls the completion event may be left set, by a completion that came too late
or by one that nobody waited for. A program that follows `Phase.next` never sees that: it issues a
new operation, which clears the latch, before it makes a deferred call and waits for it.
`Program.Follows.run_withLatch` says that such a program does the same whatever the latch was.
-/

namespace NorFlash

variable {α : Type}

namespace Bench

/-- The bench with the completion event set or not. -/
def withLatch (bench : Bench) (done : Bool) : Bench :=
  { bench with event := { bench.event with done } }

variable (bench : Bench) (done : Bool)

/-- A new operation clears the latch, whatever it was. -/
theorem arm_withLatch : (bench.withLatch done).arm = bench.arm :=
  rfl

/-- A completion sets the latch or leaves it, and does not depend on it. -/
theorem complete_withLatch :
    ∃ later, (bench.withLatch done).complete = bench.complete.withLatch later := by
  cases hcompletion : bench.chip.completion with
  | immediate =>
      refine ⟨true, ?_⟩
      simp [complete, withLatch, hcompletion, Event.signalFor, Event.signal]
  | delayed milliseconds => exact ⟨done, by simp [complete, withLatch, hcompletion]⟩
  | never => exact ⟨done, by simp [complete, withLatch, hcompletion]⟩

/-- The chip answers a call whatever the latch is. -/
theorem callChip_withLatch (request : BusCall) :
    ∃ later, (bench.withLatch done).callChip request =
      ((bench.callChip request).1, (bench.callChip request).2.withLatch later) := by
  obtain ⟨later, hlater⟩ :=
    complete_withLatch { bench with chip := (bench.chip.answer request).2 } done
  show ∃ later, ((bench.chip.answer request).1.reply,
    if (bench.chip.answer request).1.completes then
      ({ bench with chip := (bench.chip.answer request).2 }.withLatch done).complete
    else { bench with chip := (bench.chip.answer request).2 }.withLatch done) = _
  cases hcompletes : (bench.chip.answer request).1.completes with
  | true => exact ⟨later, by simp [callChip, hcompletes, hlater]⟩
  | false => exact ⟨done, by simp [callChip, hcompletes]⟩

/-- What reports come in with a new operation does not depend on the latch. -/
theorem noteBegun_withLatch :
    ∃ later, (bench.withLatch done).noteBegun = bench.noteBegun.withLatch later := by
  refine ⟨(bench.withLatch done).noteBegun.event.done, ?_⟩
  simp only [noteBegun, withLatch]
  cases bench.echo with
  | stale =>
      cases bench.lastBegun with
      | none => rfl
      | some earlier => simp only [Event.signalFor]; split <;> rfl
  | _ => simp [Event.signalFor, Event.signal]

/-- A call is answered whatever the latch is. -/
theorem call_withLatch (request : BusCall) :
    ∃ later, (bench.withLatch done).call request =
      ((bench.call request).1, (bench.call request).2.withLatch later) := by
  obtain ⟨later, hlater⟩ := callChip_withLatch bench done request
  simp only [call, hlater]
  split
  · obtain ⟨last, hlast⟩ := noteBegun_withLatch { (bench.callChip request).2 with
      trace := (bench.callChip request).2.trace.push
        (.call request !(bench.callChip request).1.isOk) } later
    exact ⟨last, congrArg _ hlast⟩
  · exact ⟨later, rfl⟩

end Bench

/-- The benches are the same, but for the latch while no operation is issued on it. -/
def Phase.Agrees (phase : Phase) (bench other : Bench) : Prop :=
  match phase with
  | .armed | .begun => other = bench
  | _ => ∃ done, other = bench.withLatch done

namespace Phase.Agrees

variable {phase after : Phase} {bench other : Bench}

/-- Benches that agree in a phase differ in the latch at most. -/
theorem exists_eq (h : phase.Agrees bench other) : ∃ done, other = bench.withLatch done := by
  cases phase with
  | armed | begun => exact ⟨bench.event.done, h⟩
  | clear | abandoned | owing => exact h

/-- A bench agrees with itself in every phase. -/
theorem of_eq (phase : Phase) (bench : Bench) : phase.Agrees bench bench := by
  cases phase with
  | armed | begun => rfl
  | clear | abandoned | owing => exact ⟨bench.event.done, rfl⟩

/-- Once an operation is issued, the latch is clear on both. -/
theorem arm (h : phase.Agrees bench other) : other.arm = bench.arm := by
  obtain ⟨done, rfl⟩ := h.exists_eq
  exact Bench.arm_withLatch bench done

/-- A call is answered alike, and it does not begin but with equal latches. -/
theorem call {request : BusCall} (h : phase.Agrees bench other)
    (hnext : phase.next (.call request (bench.call request).1) = some after) :
    (other.call request).1 = (bench.call request).1 ∧
      after.Agrees (bench.call request).2 (other.call request).2 := by
  cases phase with
  | armed =>
      obtain rfl : other = bench := h
      exact ⟨rfl, of_eq after _⟩
  | begun => simp [next] at hnext
  | clear | abandoned =>
      obtain ⟨done, rfl⟩ := h
      obtain ⟨later, hlater⟩ := bench.call_withLatch done request
      simp only [next] at hnext
      split at hnext
      · cases hnext
      · obtain rfl := Option.some.inj hnext
        rw [hlater]
        exact ⟨rfl, later, rfl⟩
  | owing late =>
      obtain ⟨done, rfl⟩ := h
      obtain ⟨later, hlater⟩ := bench.call_withLatch done request
      obtain ⟨-, rfl⟩ := Phase.exists_abort_of_next_owing hnext
      rw [hlater]
      cases late <;> exact ⟨rfl, later, rfl⟩

/-- Only what has begun is waited for, and then the latches are equal. -/
theorem eq_of_await {arrived : Bool} (h : phase.Agrees bench other)
    (hnext : phase.next (.await arrived) = some after) : other = bench := by
  cases phase with
  | begun => exact h
  | clear | abandoned | armed | owing => simp [next] at hnext

/-- The bus is taken, given back, and told of while no operation is issued on the latch. -/
theorem acquire {bus : Option BusState} (h : phase.Agrees bench other)
    (hnext : phase.next (.acquire bus) = some after) :
    other.bus = bench.bus ∧ after.Agrees { bench with bus := none } { other with bus := none } := by
  cases phase with
  | clear | abandoned =>
      obtain ⟨done, rfl⟩ := h
      obtain rfl := Option.some.inj hnext
      exact ⟨rfl, done, rfl⟩
  | armed | begun | owing => simp [next] at hnext

/-- Benches that agree still do when the bus is given back. -/
theorem release {bus : BusState} (h : phase.Agrees bench other)
    (hnext : phase.next (.release bus) = some after) :
    after.Agrees { bench with bus := some bus } { other with bus := some bus } := by
  cases phase with
  | clear | abandoned =>
      obtain ⟨done, rfl⟩ := h
      obtain rfl := Option.some.inj hnext
      exact ⟨done, rfl⟩
  | armed | begun | owing => simp [next] at hnext

/-- Benches that agree still do when progress is reported. -/
theorem report {count : Nat} (h : phase.Agrees bench other)
    (hnext : phase.next (.report count) = some after) :
    after.Agrees { bench with reports := bench.reports.push count }
      { other with reports := other.reports.push count } := by
  cases phase with
  | clear | abandoned =>
      obtain ⟨done, rfl⟩ := h
      obtain rfl := Option.some.inj hnext
      exact ⟨done, rfl⟩
  | armed | begun | owing => simp [next] at hnext

end Phase.Agrees

/-- Both runs came to the same value, on benches that are the same but for the latch. -/
def SameEnd (first second : α × Bench) : Prop :=
  second.1 = first.1 ∧ ∃ done, second.2 = first.2.withLatch done

/-- A program that follows the rule does the same whatever the latch was when it started. -/
theorem Program.Follows.run_withLatch {program : Program α} {post : α → Phase → Prop}
    {phase : Phase} (h : program.Follows Phase.next post phase) {bench other : Bench}
    (hagrees : phase.Agrees bench other) :
    SameEnd (program.run Bench.environment bench) (program.run Bench.environment other) := by
  induction program generalizing phase bench other with
  | done value => exact ⟨rfl, hagrees.exists_eq⟩
  | acquire patience next ih =>
      obtain ⟨after, hafter, hnext⟩ := h bench.bus
      obtain ⟨hbus, htaken⟩ := hagrees.acquire hafter
      show SameEnd ((next bench.bus).run _ _) ((next other.bus).run _ _)
      rw [hbus]
      exact ih _ hnext htaken
  | release bus next ih =>
      obtain ⟨after, hafter, hnext⟩ := h
      exact ih hnext (hagrees.release hafter)
  | arm next ih =>
      obtain ⟨after, hafter, hnext⟩ := h
      show SameEnd (next.run _ bench.arm) (next.run _ other.arm)
      rw [hagrees.arm]
      exact ih hnext (.of_eq after _)
  | await patience next ih =>
      obtain ⟨after, hafter, hnext⟩ := h (bench.await patience).1
      obtain rfl := hagrees.eq_of_await hafter
      exact ih _ hnext (.of_eq after _)
  | call request next ih =>
      obtain ⟨after, hafter, hnext⟩ := h (bench.call request).1
      obtain ⟨hreply, hcalled⟩ := hagrees.call hafter
      show SameEnd ((next (bench.call request).1).run _ _) ((next (other.call request).1).run _ _)
      rw [hreply]
      exact ih _ hnext hcalled
  | report count next ih =>
      obtain ⟨after, hafter, hnext⟩ := h
      exact ih hnext (hagrees.report hafter)

end NorFlash
