import NorFlash.Proofs.Bench.Transfer
import NorFlash.Proofs.Chip.Heard

/-!
# Commands on a bench

The exact end of a command that is carried out at once: `ends_command` for any command that the chip
answers if it is not made to fail, and `ends_heard` for one that the chip hears and knows. What was
issued is recorded in order, so a sequence of commands can be read off the bench afterwards.
-/

namespace NorFlash

variable {bench after : Bench} {command : Command} {refused : Bool}

/-- `after` is the bench after a command, which the chip was made to refuse or not. -/
structure Bench.Issued (bench : Bench) (command : Command) (refused : Bool) (after : Bench) :
    Prop where
  refused_eq : refused = bench.chip.refuses
  chip : after.chip = if refused then bench.chip.drawn else (bench.chip.accept command).2
  bus : after.bus = bench.bus
  commands : after.commands = bench.commands ++ [(command, refused)]

namespace Bench.Issued

/-- A command that was refused has only drawn on the plan of failures. -/
theorem chip_of_refused (h : bench.Issued command true after) :
    after.chip = bench.chip.drawn :=
  h.chip

/-- A command that was not refused was accepted by the chip. -/
theorem chip_of_accepted (h : bench.Issued command false after) :
    after.chip = (bench.chip.accept command).2 :=
  h.chip

/-- A command that is refused leaves the chip alone. -/
theorem idle (h : bench.Issued command true after) : Chip.Idle bench.chip after.chip :=
  h.chip_of_refused ▸ Chip.idle_drawn _

/-- Nothing is refused on a responsive bench. -/
theorem not_responsive (h : bench.Issued command true after) : ¬bench.chip.Responsive := by
  intro hresponsive
  have hrefuses := Chip.not_refuses_of_responsive hresponsive
  rw [← h.refused_eq] at hrefuses
  simp at hrefuses

/-- Refused or not, the chip afterwards is what its answer leaves. -/
theorem chip_eq_answer (h : bench.Issued command refused after) :
    after.chip = (bench.chip.answer (.command command)).2 := by
  have hanswer : (bench.chip.answer (.command command)).2 = (bench.chip.execute command).2 := rfl
  rw [hanswer, Chip.execute_eq, h.chip, ← h.refused_eq]
  cases refused <;> rfl

/-- A command leaves the chip the same make. -/
theorem sameBuild (h : bench.Issued command refused after) :
    Chip.SameBuild bench.chip after.chip :=
  h.chip_eq_answer ▸ Chip.sameBuild_answer ..

/-- A chip that responds goes on responding. -/
theorem responsive (h : bench.Issued command refused after)
    (hresponsive : bench.chip.Responsive) : after.chip.Responsive :=
  h.sameBuild.responsive hresponsive

end Bench.Issued

namespace Bench

/-- `after` comes after `bench` with commands in between that were all carried out. -/
structure Leads (bench after : Bench) : Prop where
  carried : ∃ sent : List Command, after.commands = bench.commands ++ sent.map (·, false)
  responsive : bench.chip.Responsive → after.chip.Responsive

/-- As `Leads`, with one more command, which was refused. -/
structure StopsAt (bench : Bench) (last : Command) (after : Bench) : Prop where
  carried : ∃ sent : List Command,
    after.commands = bench.commands ++ sent.map (·, false) ++ [(last, true)]
  notResponsive : ¬bench.chip.Responsive

variable {middle : Bench}

/-- A bench leads to itself. -/
theorem Leads.refl (bench : Bench) : Leads bench bench :=
  ⟨⟨[], (List.append_nil _).symm⟩, fun h => h⟩

/-- What leads on to a bench that leads further leads there. -/
theorem Leads.trans (h : Leads bench middle) (hnext : Leads middle after) : Leads bench after := by
  obtain ⟨sent, hsent⟩ := h.carried
  obtain ⟨more, hmore⟩ := hnext.carried
  refine ⟨⟨sent ++ more, ?_⟩, fun hresponsive => hnext.responsive (h.responsive hresponsive)⟩
  rw [hmore, hsent, List.map_append, List.append_assoc]

/-- Stopping after being led on is stopping. -/
theorem Leads.stopsAt (h : Leads bench middle) (hnext : StopsAt middle command after) :
    StopsAt bench command after := by
  obtain ⟨sent, hsent⟩ := h.carried
  obtain ⟨more, hmore⟩ := hnext.carried
  refine ⟨⟨sent ++ more, ?_⟩, fun hresponsive => hnext.notResponsive (h.responsive hresponsive)⟩
  simp only [hmore, hsent, List.map_append, List.append_assoc]

/-- A command that was not refused leads on. -/
theorem Issued.leads (h : bench.Issued command false after) : Leads bench after :=
  ⟨⟨[command], h.commands⟩, h.responsive⟩

/-- A command that was refused is where a sequence stops. -/
theorem Issued.stopsAt (h : bench.Issued command true after) : StopsAt bench command after :=
  ⟨⟨[], by rw [h.commands]; simp⟩, h.not_responsive⟩

end Bench

namespace Action

variable {received : Option Bytes} {ok : Option Bytes → Bench → Prop} {bad : Fault → Bench → Prop}

/-- A call runs by the chip's answer to it. -/
theorem run_call (bench : Bench) (request : BusCall) :
    (Action.call request).run.run Bench.environment bench =
      ((bench.chip.answer request).1.reply.mapError .bus, (bench.call request).2) := by
  have hreply : (bench.call request).1 = (bench.chip.answer request).1.reply := rfl
  simp only [Action.call, ExceptT.run_mk, Program.run, Bench.environment, hreply]
  cases (bench.chip.answer request).1.reply <;> rfl

/-- A command succeeds with the chip's answer, unless the chip is made to refuse it. -/
theorem ends_command (hreply : (bench.chip.accept command).1 = .ok received)
    (hok : ∀ after, bench.Issued command false after → ok received after)
    (hbad : ∀ after, bench.Issued command true after → bad (.bus .injected) after) :
    (Action.call (.command command)).Ends Bench.environment ok bad bench := by
  have hanswer : (bench.chip.answer (.command command)).1.reply =
      (bench.chip.execute command).1 := rfl
  have hafter : (bench.chip.answer (.command command)).2 = (bench.chip.execute command).2 := rfl
  have hchip := Bench.chip_call bench (.command command)
  have hcommands := Bench.commands_call bench (.command command)
  have hbus := Bench.bus_call bench (.command command)
  rw [hafter] at hchip
  rw [hanswer] at hcommands
  rw [ends_iff, run_call, hanswer]
  rw [Chip.execute_eq] at hchip hcommands ⊢
  cases hrefuses : bench.chip.refuses with
  | true =>
      rw [hrefuses] at hchip hcommands
      exact hbad _ ⟨hrefuses.symm, hchip, hbus, hcommands⟩
  | false =>
      rw [hrefuses] at hchip hcommands
      simp only [Bool.false_eq_true, if_false, hreply] at hcommands ⊢
      exact hok _ ⟨hrefuses.symm, hchip, hbus, hcommands⟩

/-- A command that is no quad read succeeds, unless the chip is made to refuse it. -/
theorem ends_issued (hcode : Instruction.hasOnSome (· == .readQuad) command.instruction = false) :
    (Action.call (.command command)).Ends Bench.environment
      (fun _ after => bench.Issued command false after)
      (fun fault after => fault = .bus .injected ∧ bench.Issued command true after) bench := by
  obtain ⟨received, hreply⟩ := @Chip.exists_reply_accept bench.chip command hcode
  exact ends_command hreply (fun _ hissued => hissued) fun _ hissued => ⟨rfl, hissued⟩

/-- A command that the chip hears and knows takes its effect, unless the chip is made to refuse
it. -/
theorem ends_heard {instruction : Instruction} (hhears : bench.chip.Hears command.width)
    (hdecode : Instruction.decode? bench.chip.vendor command.instruction = some instruction)
    (hreply : (bench.chip.heed instruction command).1 = .ok received)
    (hok : ∀ after, bench.Issued command false after →
      after.chip = (bench.chip.heed instruction command).2 → ok received after)
    (hbad : ∀ after, bench.Issued command true after → bad (.bus .injected) after) :
    (Action.call (.command command)).Ends Bench.environment ok bad bench := by
  have haccept := Chip.accept_of_decode hhears hdecode
  refine ends_command (haccept ▸ hreply) (fun after hissued => ?_) hbad
  exact hok after hissued (hissued.chip_of_accepted.trans (congrArg Prod.snd haccept))

end Action

end NorFlash
