import NorFlash.Engine.Control
import NorFlash.Proofs.Bench.Command
import NorFlash.Proofs.Catalog

/-!
# Identifying a device on a bench

A question to the chip is a deferred command that changes nothing, whoever hears it: `Asked` is the
bench after one. `ends_identify` says that the engine identifies a device only if the chip hears the
question, which is sent on one line, and then it is the device the catalog has for the chip. On a
responsive bench a chip that hears the question is always identified if the catalog knows it.
-/

namespace NorFlash

/-- The bench after an action that took the bus and asked for something: nothing changed but what
the engine knows of the mapping, and the identification was asked for so many times. -/
structure Bench.Asked (bench : Bench) (bus : BusState) (idReads : Nat) (after : Bench) : Prop where
  bus : after.bus = some ⟨bus.width, false⟩
  chip : Chip.Idle bench.chip after.chip
  commands : after.commands = bench.commands
  idReads : after.idReads = bench.idReads + idReads

/-- The bench after the identification was asked for. A chip that does not hear the question keeps
even its reset latch. -/
structure Bench.Questioned (bench : Bench) (bus : BusState) (after : Bench) : Prop extends
    Bench.Asked bench bus 1 after where
  latches : ¬bench.chip.Hears .single → after.chip.latches = bench.chip.latches

namespace Chip

variable {chip : Chip} {command : Command}

/-- A deferred command is answered as its chip accepts it, unless it is refused. -/
theorem reply_start :
    (chip.answer (.start command)).1.reply =
      if chip.refuses then .error .injected else (chip.accept command).1 := by
  have hanswer : (chip.answer (.start command)).1.reply = (chip.execute command).1 := rfl
  rw [hanswer, execute_eq]
  split <;> rfl

/-- A deferred command that is answered was not refused. -/
theorem accept_of_reply_start {received : Option Bytes}
    (h : (chip.answer (.start command)).1.reply = .ok received) :
    (chip.accept command).1 = .ok received := by
  rw [reply_start] at h
  split at h
  · simp at h
  · exact h

/-- On a responsive bench a deferred command that the chip accepts completes. -/
theorem completes_start {received : Option Bytes} (hresponsive : chip.Responsive)
    (h : (chip.accept command).1 = .ok received) :
    (chip.answer (.start command)).1.completes = true := by
  have hreply := @reply_start chip command
  rw [not_refuses_of_responsive hresponsive, h] at hreply
  have hcompletes : (chip.answer (.start command)).1.completes =
      (chip.answer (.start command)).1.reply.isOk := rfl
  rw [hcompletes, hreply]
  rfl

end Chip

/-- The command that asks for the identification. -/
def Command.readId : Command :=
  (instruct Opcode.readJedecId.code .single).reading 3 .single

namespace Chip

variable {chip : Chip}

/-- A chip that hears the question answers with its identification. -/
theorem accept_readId_of_hears (h : chip.Hears .single) :
    (chip.accept Command.readId).1 = .ok (some chip.id.toBytes) := by
  have hdecode : Instruction.decode? chip.vendor Command.readId.instruction = some .readId :=
    Instruction.decode?_of_shared (by decide) chip.vendor
  rw [accept_of_decode h hdecode]
  rfl

/-- A chip that listens on a width and does not hear it is asleep. -/
theorem asleep_of_not_hears {width : BusWidth} (h : ¬chip.Hears width)
    (hlisten : chip.listens width = true) : chip.asleep = true := by
  cases hasleep : chip.asleep with
  | true => rfl
  | false => exact absurd ⟨hasleep, hlisten⟩ h

/-- A chip that does not hear the question seems to answer with all bits set. -/
theorem accept_readId_of_not_hears (h : ¬chip.Hears .single) :
    (chip.accept Command.readId).1 = .ok (some [0xFF, 0xFF, 0xFF]) := by
  cases hlisten : chip.listens .single with
  | false =>
      rw [accept_of_not_listens hlisten]
      rfl
  | true =>
      rw [accept_of_asleep (asleep_of_not_hears h hlisten) (by decide)]
      rfl

/-- A chip that does not hear the question keeps even its reset latch. -/
theorem latches_readId_of_not_hears (h : ¬chip.Hears .single) :
    (chip.answer (.start Command.readId)).2.latches = chip.latches := by
  have hanswer : (chip.answer (.start Command.readId)).2 = (chip.execute Command.readId).2 := rfl
  rw [hanswer, execute_eq]
  cases chip.refuses with
  | true => rfl
  | false =>
      simp only [Bool.false_eq_true, if_false]
      cases hlisten : chip.listens .single with
      | false =>
          rw [accept_of_not_listens hlisten]
          rfl
      | true =>
          rw [accept_of_asleep (asleep_of_not_hears h hlisten) (by decide)]
          rfl

end Chip

namespace Engine

variable {bench start after : Bench} {engine : Engine} {bus : BusState} {id : JedecId}

/-- A call for a passive instruction, made after taking the bus, only asks. -/
theorem Taken.asked (htaken : Taken bench start) {request : BusCall}
    (hpassive : ∀ code ∈ request.code?,
      Instruction.hasOnSome (!·.isPassive) code = false ∧ code ≠ Opcode.releasePowerDown.code)
    (hcommand : (TraceEntry.call request !(start.chip.answer request).1.reply.isOk).command? = none)
    (hafter : start.After request after) (last : BusState) (hlast : last = ⟨bus.width, false⟩) :
    bench.Asked bus (if request.code? = some Opcode.readJedecId.code then 1 else 0)
      { after with bus := some last } := by
  refine ⟨congrArg some hlast, ?_, ?_, ?_⟩
  · exact htaken.chip.trans ((Chip.idle_answer hpassive).trans hafter.chip)
  · have hcommands : after.commands = start.commands := by
      rw [hafter.commands, Bench.commands_call, hcommand]
      exact List.append_nil _
    exact hcommands.trans htaken.commands
  · have hreads : after.idReads = start.idReads + _ :=
      hafter.idReads.trans (Bench.idReads_call ..)
    exact hreads.trans (congrArg (· + _) htaken.idReads)

/-- The engine reads the chip's identification, or all bits set if the chip does not hear it. -/
theorem ends_readId (hbus : bench.bus = some bus) :
    engine.readId.Ends Bench.environment
      (fun id after => bench.Questioned bus after ∧
        (bench.chip.Hears .single → id = bench.chip.id) ∧
        (¬bench.chip.Hears .single → id = ⟨0xFF, 0xFFFF⟩))
      (fun _ after => bench.Questioned bus after ∧ ¬bench.chip.Responsive) bench := by
  refine ends_withBus hbus fun start htaken => ?_
  have hpassive : ∀ code ∈ (BusCall.start Command.readId).code?,
      Instruction.hasOnSome (!·.isPassive) code = false ∧
        code ≠ Opcode.releasePowerDown.code := by
    intro code hcode
    obtain rfl := Option.some.inj hcode
    decide
  have hhears : start.chip.Hears .single ↔ bench.chip.Hears .single :=
    ⟨fun h => h.of_mode htaken.chip.mode.symm, fun h => h.of_mode htaken.chip.mode⟩
  have hid : start.chip.id = bench.chip.id := htaken.chip.id
  have hquestioned : ∀ after, start.After (.start Command.readId) after →
      bench.Questioned bus { after with bus := some { bus with mapped := false } } := by
    refine fun after hafter => ⟨htaken.asked hpassive rfl hafter _ rfl, fun h => ?_⟩
    exact hafter.latches.trans ((Chip.latches_readId_of_not_hears (mt hhears.mp h)).trans
      htaken.latches)
  rw [BusAction.ends_bind]
  refine (BusAction.ends_transfer start { bus with mapped := false } (.start Command.readId)
    engine.timeouts.command).mono ?_ ?_
  · rintro received _ after ⟨rfl, hafter, hreply⟩
    refine ⟨hquestioned after hafter, ?_, ?_⟩
    · intro h
      have haccept := Chip.accept_readId_of_hears (hhears.mpr h)
      rw [Chip.accept_of_reply_start hreply] at haccept
      obtain rfl := Except.ok.inj haccept
      exact (JedecId.ofBytes_toBytes start.chip.id).trans hid
    · intro h
      have haccept := Chip.accept_readId_of_not_hears (mt hhears.mp h)
      rw [Chip.accept_of_reply_start hreply] at haccept
      obtain rfl := Except.ok.inj haccept
      decide
  · rintro _ _ after ⟨rfl, hafter, -, hcompletes⟩
    refine ⟨hquestioned after hafter, fun hresponsive => ?_⟩
    have hstart := htaken.chip.responsive hresponsive
    have hdone : ∃ received, (start.chip.accept Command.readId).1 = .ok received := by
      by_cases h : start.chip.Hears .single
      · exact ⟨_, Chip.accept_readId_of_hears h⟩
      · exact ⟨_, Chip.accept_readId_of_not_hears h⟩
    obtain ⟨received, hreceived⟩ := hdone
    have hcompleted := Chip.completes_start hstart hreceived
    rw [hcompletes hstart] at hcompleted
    simp at hcompleted

/-- Only a chip that hears the question is identified, as the device that the catalog has for it. -/
theorem ends_identify (hsound : Chip.Sound id bench.chip) (hbus : bench.bus = some bus) :
    engine.identify.Ends Bench.environment
      (fun identity after => bench.Questioned bus after ∧ bench.chip.Hears .single ∧
        Catalog.Knows id identity)
      (fun fault after => bench.Questioned bus after ∧
        (bench.chip.Responsive → bench.chip.Hears .single →
          Catalog.identify? id.manufacturer id.device = none ∧
            fault = .unsupported id.manufacturer id.device)) bench := by
  unfold identify
  rw [Action.ends_bind]
  refine (ends_readId hbus).mono ?_ ?_
  · rintro found after ⟨hquestioned, hheard, hunheard⟩
    by_cases h : bench.chip.Hears .single
    · obtain rfl := (hheard h).trans hsound.id_eq
      split
      · rename_i manufacturer device hknown
        exact ⟨hquestioned, h, hknown⟩
      · rename_i hunknown
        exact ⟨hquestioned, fun _ _ => ⟨hunknown, rfl⟩⟩
    · obtain rfl := hunheard h
      rw [Catalog.identify?_floating]
      exact ⟨hquestioned, fun _ hhears => absurd hhears h⟩
  · exact fun fault after h => ⟨h.1, fun hresponsive => absurd hresponsive h.2⟩

end Engine

end NorFlash
