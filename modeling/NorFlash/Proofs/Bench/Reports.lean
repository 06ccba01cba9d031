import NorFlash.Proofs.Bench.Run

/-!
# Progress reports on a bench

Progress reports change nothing but the list of them, so an action without its reports ends as the
action itself does, with the reports there were before.
-/

namespace NorFlash

variable {α : Type}

namespace Bench

/-- The bench with other progress reports. -/
def withReports (bench : Bench) (reports : Array Nat) : Bench :=
  { bench with reports }

/-- A completion does not depend on what was reported. -/
theorem complete_withReports (bench : Bench) (reports : Array Nat) :
    (bench.withReports reports).complete = bench.complete.withReports reports := by
  simp only [complete, withReports]
  split <;> rfl

/-- The chip answers a call whatever was reported. -/
theorem callChip_withReports (bench : Bench) (reports : Array Nat) (request : BusCall) :
    (bench.withReports reports).callChip request =
      ((bench.callChip request).1, (bench.callChip request).2.withReports reports) := by
  have hcomplete :=
    complete_withReports { bench with chip := (bench.chip.answer request).2 } reports
  show ((bench.chip.answer request).1.reply, if (bench.chip.answer request).1.completes then
    ({ bench with chip := (bench.chip.answer request).2 }.withReports reports).complete
    else { bench with chip := (bench.chip.answer request).2 }.withReports reports) = _
  rw [hcomplete]
  simp only [callChip]
  split <;> rfl

/-- A call is answered whatever was reported. -/
theorem call_withReports (bench : Bench) (reports : Array Nat) (request : BusCall) :
    (bench.withReports reports).call request =
      ((bench.call request).1, (bench.call request).2.withReports reports) := by
  simp only [call, callChip_withReports]
  split <;> rfl

/-- A wait ends as it does whatever was reported. -/
theorem await_withReports (bench : Bench) (reports : Array Nat) (patience : Nat) :
    (bench.withReports reports).await patience =
      ((bench.await patience).1, (bench.await patience).2.withReports reports) := by
  show (if bench.event.done then _ else if bench.deliveries.any (bench.arrives patience) then _
    else _) = _
  unfold await
  split
  · rfl
  · split <;> rfl

/-- A call reports no progress. -/
theorem reports_call (bench : Bench) (request : BusCall) :
    (bench.call request).2.reports = bench.reports :=
  congrArg (·.2.reports) (call_withReports bench bench.reports request)

/-- A wait reports no progress. -/
theorem reports_await (bench : Bench) (patience : Nat) :
    (bench.await patience).2.reports = bench.reports :=
  congrArg (·.2.reports) (await_withReports bench bench.reports patience)

end Bench

/-- Without its reports a program does the same. -/
theorem Program.run_silenced (program : Program α) (bench : Bench) (reports : Array Nat) :
    program.silenced.run Bench.environment (bench.withReports reports) =
      ((program.run Bench.environment bench).1,
        (program.run Bench.environment bench).2.withReports reports) := by
  induction program generalizing bench with
  | done value => rfl
  | acquire patience next ih => exact ih bench.bus { bench with bus := none }
  | release bus next ih => exact ih { bench with bus := some bus }
  | arm next ih => exact ih bench.arm
  | await patience next ih =>
      simp only [silenced, run, Bench.environment, Bench.await_withReports]
      exact ih _ _
  | call request next ih =>
      simp only [silenced, run, Bench.environment, Bench.call_withReports]
      exact ih _ _
  | report count next ih => exact ih (Bench.environment.report count bench)

/-- An action without its reports ends as the action does, with the reports there were before. -/
theorem Action.ends_silenced {action : Action α} {bench : Bench} {ok : α → Bench → Prop}
    {bad : Fault → Bench → Prop}
    (h : action.Ends Bench.environment
      (fun value after => ok value (after.withReports bench.reports))
      (fun fault after => bad fault (after.withReports bench.reports)) bench) :
    action.silenced.Ends Bench.environment ok bad bench := by
  have hrun : action.silenced.run.run Bench.environment bench =
      ((action.run.run Bench.environment bench).1,
        (action.run.run Bench.environment bench).2.withReports bench.reports) :=
    action.run.run_silenced bench bench.reports
  rw [ends_iff] at h ⊢
  rw [hrun]
  generalize action.run.run Bench.environment bench = ended at h ⊢
  obtain ⟨result | result, after⟩ := ended <;> exact h

/-- A report is added to those there are. -/
theorem Action.ends_report {count : Nat} {bench : Bench} {ok : Unit → Bench → Prop}
    {bad : Fault → Bench → Prop} :
    (Action.report count).Ends Bench.environment ok bad bench ↔
      ok () (bench.withReports (bench.reports.push count)) :=
  Iff.rfl

end NorFlash
