import NorFlash.Proofs.Chip.Sound
import NorFlash.Proofs.Engine.Disturbance
import NorFlash.Proofs.Engine.Ending
import NorFlash.Proofs.Engine.Orderly

/-!
# Runs on a bench

What carrying out a program does to a bench. `Program.Orderly.run` is the invariant of a whole run:
a property of the chip and the trace that no call of the program breaks holds at its end, and the
bus is free again. `Program.Orderly.run_disturbed` says so of a bench that is disturbed between the
requests of the program.
-/

namespace NorFlash

variable {α : Type}

namespace TraceEntry

/-- The command of a trace line and whether it was refused, if it was carried out at once. -/
def command? : TraceEntry → Option (Command × Bool)
  | .call (.command sent) refused => some (sent, refused)
  | _ => none

/-- The line is a request to read the device's identification. -/
def readsId : TraceEntry → Bool
  | .call request _ => request.code? == some Opcode.readJedecId.code
  | .attached => false

end TraceEntry

namespace Bench

/-- The commands carried out at once, each with whether it was refused. -/
def commands (bench : Bench) : List (Command × Bool) :=
  bench.trace.toList.filterMap TraceEntry.command?

/-- How often the device's identification was asked for. -/
def idReads (bench : Bench) : Nat :=
  bench.trace.toList.countP TraceEntry.readsId

variable (bench : Bench)

/-- A completion leaves the chip alone. -/
theorem chip_complete : bench.complete.chip = bench.chip := by
  unfold complete
  split <;> rfl

/-- A completion leaves the bus alone. -/
theorem bus_complete : bench.complete.bus = bench.bus := by
  unfold complete
  split <;> rfl

/-- A completion leaves the trace alone. -/
theorem trace_complete : bench.complete.trace = bench.trace := by
  unfold complete
  split <;> rfl

section Call

variable (request : BusCall)

/-- A call takes the chip where its answer does. -/
theorem chip_callChip : (bench.callChip request).2.chip = (bench.chip.answer request).2 := by
  simp only [callChip]
  split
  · exact chip_complete _
  · rfl

/-- The chip answers a call without touching who holds the bus. -/
theorem bus_callChip : (bench.callChip request).2.bus = bench.bus := by
  simp only [callChip]
  split
  · exact bus_complete _
  · rfl

/-- What the chip answers is not traced yet. -/
theorem trace_callChip : (bench.callChip request).2.trace = bench.trace := by
  simp only [callChip]
  split
  · exact trace_complete _
  · rfl

/-- A call that is traced takes the chip where its answer does. -/
theorem chip_call : (bench.call request).2.chip = (bench.chip.answer request).2 := by
  simp only [call]
  split <;> exact chip_callChip bench request

/-- A call does not touch who holds the bus. -/
theorem bus_call : (bench.call request).2.bus = bench.bus := by
  simp only [call]
  split <;> exact bus_callChip bench request

/-- A call is traced with whether it was refused. -/
theorem trace_call :
    (bench.call request).2.trace =
      bench.trace.push (.call request !(bench.chip.answer request).1.reply.isOk) := by
  rw [← trace_callChip bench request]
  simp only [call]
  split <;> rfl

/-- A call is recorded as a command if it is carried out at once. -/
theorem commands_call (request : BusCall) :
    (bench.call request).2.commands =
      bench.commands ++
        (TraceEntry.call request !(bench.chip.answer request).1.reply.isOk).command?.toList := by
  unfold commands
  rw [trace_call, Array.toList_push, List.filterMap_append]
  rfl

end Call

/-- A wait leaves the chip alone. -/
theorem chip_await (patience : Nat) : (bench.await patience).2.chip = bench.chip := by
  unfold await
  split
  · rfl
  · split <;> rfl

/-- A wait leaves the bus alone. -/
theorem bus_await (patience : Nat) : (bench.await patience).2.bus = bench.bus := by
  unfold await
  split
  · rfl
  · split <;> rfl

/-- A wait leaves the trace alone. -/
theorem trace_await (patience : Nat) : (bench.await patience).2.trace = bench.trace := by
  unfold await
  split
  · rfl
  · split <;> rfl

/-- The property holds of the chip and the trace, and the bus is held, or free with a width
recorded that satisfies `widths`. -/
def Keeps (widths : BusWidth → Prop) (property : Chip → Array TraceEntry → Prop) (held : Bool)
    (bench : Bench) : Prop :=
  property bench.chip bench.trace ∧
    if held then bench.bus = none else ∃ bus, bench.bus = some bus ∧ widths bus.width

variable {bench} {calls : BusCall → Prop} {widths : BusWidth → Prop}
  {property : Chip → Array TraceEntry → Prop} {held : Bool}

/-- Waiting keeps what holds of the chip and the trace. -/
theorem Keeps.await (h : bench.Keeps widths property held) (patience : Nat) :
    (bench.await patience).2.Keeps widths property held := by
  unfold Keeps at h ⊢
  rw [chip_await, trace_await, bus_await]
  exact h

/-- A call keeps what its answer keeps of the chip and the trace. -/
theorem Keeps.call (h : bench.Keeps widths property held) {request : BusCall}
    (hcall : property bench.chip bench.trace →
      property (bench.chip.answer request).2
        (bench.trace.push (.call request !(bench.chip.answer request).1.reply.isOk))) :
    (bench.call request).2.Keeps widths property held := by
  unfold Keeps at h ⊢
  rw [chip_call, trace_call, bus_call]
  exact ⟨hcall h.1, h.2⟩

end Bench

namespace Program.Orderly

variable {calls : BusCall → Prop} {widths : BusWidth → Prop}
  {property : Chip → Array TraceEntry → Prop} {first last : Bool} {values : α → Prop}
  {program : Program α}

/-- A run of an orderly program keeps what neither its calls nor the disturbances can change. -/
theorem run_disturbed {disturb : Nat → Bench → Bench}
    (hcall : ∀ request chip trace, calls request → property chip trace →
      property (chip.answer request).2
        (trace.push (.call request !(chip.answer request).1.reply.isOk)))
    (hdisturb : ∀ count held bench, bench.Keeps widths property held →
      (disturb count bench).Keeps widths property held)
    (h : program.Orderly calls widths last values first) {bench : Bench}
    (hbench : bench.Keeps widths property first) (count : Nat) :
    program.Ends (Bench.environment.disturbed disturb)
      (fun value after => values value ∧ after.1.Keeps widths property last) (bench, count) := by
  -- Only a call reaches the chip and the trace, and only taking the bus depends on the bench.
  induction program generalizing first bench count with
  | done value =>
      obtain ⟨rfl, hvalue⟩ := h
      exact ⟨hvalue, hbench⟩
  | acquire patience next ih =>
      obtain ⟨rfl, -, hnext⟩ := h
      obtain ⟨hproperty, bus, hbus, hwidth⟩ := hdisturb count _ _ hbench
      have hheld : { disturb count bench with bus := none }.Keeps widths property true :=
        ⟨hproperty, rfl⟩
      have hrest := ih (some bus) (hnext bus hwidth) hheld (count + 1)
      simpa only [Ends, Program.run, Environment.disturbed, Bench.environment, hbus] using hrest
  | release bus next ih =>
      have hgiven : { disturb count bench with bus := some bus }.Keeps widths property false :=
        ⟨(hdisturb count _ _ hbench).1, bus, rfl, h.2.1⟩
      exact ih h.2.2 hgiven (count + 1)
  | arm next ih =>
      have hissued : (disturb count bench).arm.Keeps widths property _ :=
        hdisturb count _ _ hbench
      exact ih h hissued (count + 1)
  | await patience next ih => exact ih _ (h _) ((hdisturb count _ _ hbench).await patience) _
  | call request next ih =>
      exact ih _ (h.2.2 _) ((hdisturb count _ _ hbench).call (hcall _ _ _ h.2.1)) _
  | report reported next ih =>
      have hkept : { disturb count bench with
          reports := (disturb count bench).reports.push reported }.Keeps widths property _ :=
        hdisturb count _ _ hbench
      exact ih h hkept (count + 1)

/-- A run of an orderly program keeps what none of its calls can change. -/
theorem run
    (hcall : ∀ request chip trace, calls request → property chip trace →
      property (chip.answer request).2
        (trace.push (.call request !(chip.answer request).1.reply.isOk)))
    (h : program.Orderly calls widths last values first) {bench : Bench}
    (hbench : bench.Keeps widths property first) :
    program.Ends Bench.environment
      (fun value after => values value ∧ after.Keeps widths property last) bench := by
  let disturb : Nat → Bench → Bench := fun _ bench => bench
  have hdisturb : ∀ count held bench, bench.Keeps widths property held →
      (disturb count bench).Keeps widths property held :=
    fun _ _ _ hkept => hkept
  have hended := h.run_disturbed hcall hdisturb hbench 0
  have hrun := Program.run_disturbed (fun _ _ => rfl) Bench.environment program bench 0
  unfold Ends at hended ⊢
  rw [← hrun]
  exact hended

end Program.Orderly

end NorFlash
