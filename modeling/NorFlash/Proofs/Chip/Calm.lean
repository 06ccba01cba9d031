import NorFlash.Proofs.Chip.Mode

/-!
# Chips that nothing fails on

`Chip.calm` is a chip with no failures in store that completes at once. How failures and completions
are set up makes no difference to what a chip does on a call that is not refused: `answer_calm` says
that the calm chip answers it alike and goes on alike.
-/

namespace NorFlash

namespace Chip

/-- The chip with no failures in store, and with completions reported at once. -/
def calm (chip : Chip) : Chip :=
  { chip with plan := .none, completion := .immediate }

/-- The chip with failures and completions set up anew. -/
def upset (chip : Chip) (setting : FailurePlan × CompletionMode) : Chip :=
  { chip with plan := setting.1, completion := setting.2 }

variable (chip : Chip) {command : Command}

/-- A calm chip refuses nothing. -/
theorem refuses_calm : chip.calm.refuses = false :=
  rfl

/-- Erasing does not depend on the failures to come. -/
theorem erase_calm (unitBits : Nat) (address : UInt32) :
    chip.calm.erase unitBits address = (chip.erase unitBits address).calm := by
  unfold erase
  cases hwrite : chip.latches.writeEnable <;> simp [calm, hwrite, consumeWriteEnable]

/-- Programming does not depend on the failures to come. -/
theorem program_calm (address : UInt32) (bytes : Bytes) :
    chip.calm.program address bytes = (chip.program address bytes).calm := by
  unfold program
  cases hwrite : chip.latches.writeEnable <;> simp [calm, hwrite, consumeWriteEnable]

/-- Writing the volatile configuration does not depend on the failures to come. -/
theorem writeVolatileConfig_calm (value : Option UInt8) :
    chip.calm.writeVolatileConfig value = (chip.writeVolatileConfig value).calm := by
  cases value with
  | none => rfl
  | some value =>
      cases hwrite : chip.latches.writeEnable <;>
        simp [writeVolatileConfig, calm, hwrite, consumeWriteEnable]

/-- Writing the enhanced configuration does not depend on the failures to come. -/
theorem writeEnhancedConfig_calm (value : Option UInt8) :
    chip.calm.writeEnhancedConfig value = (chip.writeEnhancedConfig value).calm := by
  cases value with
  | none => rfl
  | some value =>
      cases hwrite : chip.latches.writeEnable <;>
        simp [writeEnhancedConfig, calm, hwrite, consumeWriteEnable]

/-- An instruction is obeyed alike, whatever failures are to come. -/
theorem obey_calm (instruction : Instruction) (resetEnabled : Bool) (command : Command) :
    chip.calm.obey instruction resetEnabled command =
      ((chip.obey instruction resetEnabled command).1,
        (chip.obey instruction resetEnabled command).2.calm) := by
  cases instruction with
  | program =>
      cases hdata : command.data <;> simp only [obey, hdata, program_calm]
  | erase unit => simp only [obey, erase_calm]
  | eraseChip => exact congrArg (Prod.mk _) (erase_calm ..)
  | reset =>
      simp only [obey]
      cases resetEnabled <;> rfl
  | enterQuadProtocol =>
      cases henabled : chip.registers.status2.quadEnabled <;> simp [obey, calm, henabled]
  | setReadParameters =>
      cases hwritten : firstWritten? command with
      | none => simp [obey, hwritten]
      | some value => cases hquad : chip.quad <;> simp [obey, hwritten, calm, hquad]
  | writeVolatileConfig => simp only [obey, writeVolatileConfig_calm]
  | writeEnhancedConfig => simp only [obey, writeEnhancedConfig_calm]
  | _ => rfl

/-- A command is heard alike, whatever failures are to come. -/
theorem hear_calm (command : Command) :
    chip.calm.hear command = ((chip.hear command).1, (chip.hear command).2.calm) := by
  have hvendor : chip.calm.vendor = chip.vendor := rfl
  cases hdecode : Instruction.decode? chip.vendor command.instruction with
  | none =>
      simp only [hear, hvendor, hdecode]
      rfl
  | some instruction =>
      have hobey := obey_calm { chip with latches := { chip.latches with resetEnable := false } }
        instruction chip.latches.resetEnable command
      simp only [hear, hvendor, hdecode]
      exact hobey

/-- A command is received alike, whatever failures are to come. -/
theorem receive_calm (command : Command) :
    chip.calm.receive command = ((chip.receive command).1, (chip.receive command).2.calm) := by
  have hlisten : chip.calm.listens command.width = chip.listens command.width := rfl
  have hasleep : chip.calm.asleep = chip.asleep := rfl
  unfold receive
  rw [hlisten, hasleep]
  split
  · rfl
  · split
    · split <;> rfl
    · exact hear_calm ..

variable {chip}

/-- A command that is not refused is carried out as by the calm chip. -/
theorem execute_calm (h : chip.refuses = false) (command : Command) :
    chip.calm.execute command = ((chip.execute command).1, (chip.execute command).2.calm) := by
  rw [execute_eq, execute_eq, h, refuses_calm]
  exact receive_calm (chip.drawn.log command.instruction) command

/-- A mapping that is not refused. -/
theorem map_eq (h : chip.refuses = false) (command : Command) :
    chip.map command =
      if chip.asleep || !chip.listens command.width then (.error .notResponding, chip.drawn)
      else match chip.checkRead command with
        | .error fault => (.error fault, chip.drawn)
        | .ok () => (silent, { chip.drawn with mapped := true }) := by
  have hdraw : chip.plan.next.1 = false := h
  simp only [map, drawFailure, hdraw]
  rfl

/-- A call that is not refused is answered by the calm chip alike. -/
theorem answer_calm (h : chip.refuses = false) (request : BusCall) :
    chip.calm.answer request = ((chip.answer request).1, (chip.answer request).2.calm) := by
  have hdraw : chip.plan.next.1 = false := h
  cases request with
  | command command => simp only [answer, execute_calm h]
  | start command => simp only [answer, execute_calm h]
  | poll poll =>
      simp only [answer, Chip.poll, drawFailure, hdraw]
      rfl
  | map command =>
      simp only [answer, map_eq h, map_eq chip.refuses_calm]
      have hasleep : chip.calm.asleep = chip.asleep := rfl
      have hlisten : chip.calm.listens command.width = chip.listens command.width := rfl
      have hread : chip.calm.checkRead command = chip.checkRead command := rfl
      rw [hasleep, hlisten, hread]
      split
      · rfl
      · cases chip.checkRead command <;> rfl
  | abort => rfl

/-- A call that succeeds was not refused, or it is an abort, which nothing can refuse. -/
theorem answer_calm_of_ok {request : BusCall} {received : Option Bytes}
    (h : (chip.answer request).1.reply = .ok received) :
    chip.calm.answer request = ((chip.answer request).1, (chip.answer request).2.calm) := by
  cases hrefuses : chip.refuses with
  | false => exact answer_calm hrefuses request
  | true =>
      have hdraw : chip.plan.next.1 = true := hrefuses
      cases request with
      | abort => rfl
      | command | start | poll | map =>
          simp [answer, execute, Chip.poll, map, drawFailure, hdraw] at h

end Chip

end NorFlash
