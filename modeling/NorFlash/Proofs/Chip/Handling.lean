import NorFlash.Proofs.Chip.Heard

/-!
# Handling a chip

A chip is handled by its controller, whose calls it answers, and by a test, which looks into its
memory, puts the chip to sleep and lets calls fail. `Chip.handle` is one handling and
`Chip.handleAll` a run of them. Of the calls, only those for a command that the chip obeys change
its memory, its registers or its latches: `Chip.obeyed?` is that command, `Chip.answer_obeyed` says
that it takes its effect, and `Chip.answer_not_obeyed` that nothing else does.
-/

namespace NorFlash

/-- What is done with a chip. -/
inductive Handling where
  | call (request : BusCall)
  /-- Look at the memory, past the bus. -/
  | peek (address : UInt32) (length : Nat)
  /-- Replace memory, past the bus. -/
  | poke (address : UInt32) (bytes : Bytes)
  | readMapped (address : UInt32) (length : Nat)
  | setAsleep (asleep : Bool)
  | setQuadEnable (enabled : Bool)
  /-- Let calls fail: so many succeed first. -/
  | failing (spared failures : Nat)

namespace Chip

/-- Handles a chip: the bytes it hands out, if any, and the chip afterwards. -/
def handle (chip : Chip) : Handling → Option Bytes × Chip
  | .call request =>
      let (answer, chip) := chip.answer request
      match answer.reply with
      | .ok received => (received, chip)
      | .error _ => (none, chip)
  | .peek address length => (some (chip.memory.read address.toNat length), chip)
  | .poke address bytes => (none, chip.overwrite address bytes)
  | .readMapped address length => (chip.readMapped address length, chip)
  | .setAsleep asleep => (none, { chip with asleep })
  | .setQuadEnable enabled => (none, chip.withQuadEnable enabled)
  | .failing spared failures => (none, chip.failing spared failures)

/-- The chip after a run of handlings. -/
def handleAll (chip : Chip) (handlings : List Handling) : Chip :=
  handlings.foldl (fun chip handling => (chip.handle handling).2) chip

/-- The command that a call has the chip carry out: it is not made to fail, and the chip is awake
and listens on its width. -/
def obeyed? (chip : Chip) (request : BusCall) : Option Command :=
  if chip.refuses then none
  else request.command?.filter fun command => !chip.asleep && chip.listens command.width

variable {chip : Chip} {request : BusCall} {command : Command} {instruction : Instruction}

/-- A call is handled by answering it. -/
theorem handle_call (chip : Chip) (request : BusCall) :
    (chip.handle (.call request)).2 = (chip.answer request).2 := by
  simp only [handle]
  cases (chip.answer request).1.reply <;> rfl

/-- A command is obeyed if it is not refused and the chip hears it. -/
theorem obeyed?_eq_some : chip.obeyed? request = some command ↔
    chip.refuses = false ∧ request.command? = some command ∧ chip.Hears command.width := by
  cases hrefuses : chip.refuses <;> simp [obeyed?, hrefuses, Option.filter_eq_some_iff, Hears]

/-- A command that the chip obeys takes its effect. -/
theorem answer_obeyed (h : chip.obeyed? request = some command) :
    (chip.answer request).1.reply = ((chip.drawn.log command.instruction).hear command).1 ∧
      (chip.answer request).2 = ((chip.drawn.log command.instruction).hear command).2 := by
  obtain ⟨hrefuses, hsent, hhears⟩ := obeyed?_eq_some.mp h
  have hexecute : chip.execute command = (chip.drawn.log command.instruction).hear command := by
    rw [execute_eq, hrefuses, if_neg Bool.false_ne_true, accept_of_hears hhears]
  cases request with
  | command sent | start sent =>
      obtain rfl := Option.some.inj hsent
      exact ⟨congrArg Prod.fst hexecute, congrArg Prod.snd hexecute⟩
  | _ => cases hsent

/-- A command that the chip obeys and knows has it heed the instruction. -/
theorem answer_heeded (h : chip.obeyed? request = some command)
    (hdecode : Instruction.decode? chip.vendor command.instruction = some instruction) :
    (chip.answer request).1.reply = (chip.heed instruction command).1 ∧
      (chip.answer request).2 = (chip.heed instruction command).2 := by
  have hvendor : Instruction.decode? (chip.drawn.log command.instruction).vendor
      command.instruction = some instruction := hdecode
  obtain ⟨hreply, hafter⟩ := answer_obeyed h
  rw [hreply, hafter, hear, hvendor]
  exact ⟨rfl, rfl⟩

/-- Memory, registers and latches are as before, and no change of the memory was logged. -/
structure Unmoved (before after : Chip) : Prop where
  memory : after.memory = before.memory
  events : after.events = before.events
  registers : after.registers = before.registers
  latches : after.latches = before.latches

/-- What a command comes to that the chip does not obey: at most it wakes the chip. -/
theorem execute_not_obeyed (h : chip.refuses = false → ¬chip.Hears command.width) :
    chip.execute command =
      if chip.refuses then (.error .injected, chip.drawn)
      else
        (.ok command.data.float,
          { chip.drawn.log command.instruction with
            asleep := chip.asleep && !(chip.listens command.width &&
              command.instruction == Opcode.releasePowerDown.code) }) := by
  rw [execute_eq]
  cases hrefuses : chip.refuses with
  | true => rfl
  | false =>
      rw [if_neg Bool.false_ne_true, if_neg Bool.false_ne_true]
      cases hlisten : chip.listens command.width with
      | false =>
          rw [accept_of_not_listens hlisten, Bool.false_and, Bool.not_false, Bool.and_true]
          rfl
      | true =>
          have hasleep : chip.asleep = true :=
            eq_true_of_ne_false fun hawake => h hrefuses ⟨hawake, hlisten⟩
          by_cases hwake : command.instruction = Opcode.releasePowerDown.code
          · rw [accept_of_wake hasleep hlisten hwake]
            simp [hwake]
          · rw [accept_of_asleep hasleep hwake]
            simp [hwake, hasleep, drawn, log]

/-- A command that is refused or not heard moves nothing. -/
theorem unmoved_execute (h : chip.refuses = false → ¬chip.Hears command.width) :
    Unmoved chip (chip.execute command).2 := by
  rw [execute_not_obeyed h]
  split <;> exact ⟨rfl, rfl, rfl, rfl⟩

/-- A command that is neither obeyed nor refused was not heard. -/
theorem not_hears_of_not_obeyed (h : chip.obeyed? request = none) (command : Command)
    (hsent : request.command? = some command) (hrefuses : chip.refuses = false) :
    ¬chip.Hears command.width := fun hhears =>
  nomatch h.symm.trans (obeyed?_eq_some.mpr ⟨hrefuses, hsent, hhears⟩)

/-- A call for no command that the chip obeys leaves memory, registers and latches alone. -/
theorem answer_not_obeyed (h : chip.obeyed? request = none) :
    Unmoved chip (chip.answer request).2 := by
  have hunheard := not_hears_of_not_obeyed h
  cases request with
  | command sent | start sent => exact unmoved_execute (hunheard sent rfl)
  | poll poll =>
      simp only [answer, Chip.poll, drawFailure]
      cases chip.plan.next.1 <;> exact ⟨rfl, rfl, rfl, rfl⟩
  | map command =>
      simp only [answer, map, drawFailure]
      cases chip.plan.next.1 with
      | true => exact ⟨rfl, rfl, rfl, rfl⟩
      | false =>
          simp only
          split
          · exact ⟨rfl, rfl, rfl, rfl⟩
          · split <;> exact ⟨rfl, rfl, rfl, rfl⟩
  | abort => exact ⟨rfl, rfl, rfl, rfl⟩

end Chip

end NorFlash
