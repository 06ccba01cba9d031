import NorFlash.Proofs.Chip.Handling

/-!
# What makes a chip reset itself

A chip resets itself on the instruction for it if its enable latch is set. That latch holds whether
the last instruction that the chip obeyed was the one to enable a reset: `resetEnable_handleAll`.
A chip hears more than it obeys: a poll sends an instruction too, and so does a call that wakes a
sleeping chip, but neither reaches the latch. `resetsOn_iff_lastObeyed` says when a reset takes
place, and exactly when that differs from what the instructions heard call for.
-/

namespace NorFlash

namespace Instruction

variable {vendor : Vendor} {code : UInt8}

/-- On every chip just one byte enables a reset. -/
theorem decode?_eq_enableReset_iff :
    decode? vendor code = some .enableReset ↔ code = Opcode.enableReset.code := by
  refine ⟨fun h => ?_, fun h => h ▸ decode?_of_shared (by decide) vendor⟩
  have hmem := mem_of_lookup h
  cases vendor <;> simpa [shared, ofVendor] using hmem

/-- On every chip just one byte resets. -/
theorem decode?_eq_reset_iff : decode? vendor code = some .reset ↔ code = Opcode.reset.code := by
  refine ⟨fun h => ?_, fun h => h ▸ decode?_of_shared (by decide) vendor⟩
  have hmem := mem_of_lookup h
  cases vendor <;> simpa [shared, ofVendor] using hmem

end Instruction

/-- The instruction byte that a call sends to the chip, and its width. -/
def BusCall.sent? : BusCall → Option (UInt8 × BusWidth)
  | command sent | start sent => some (sent.instruction, sent.width)
  | poll sent => some (sent.instruction, sent.width)
  | map _ | abort => none

/-- The call that a handling makes. -/
def Handling.call? : Handling → Option BusCall
  | call request => some request
  | _ => none

namespace Chip

variable {chip : Chip} {request : BusCall} {command : Command} {instruction : Instruction}

/-- The instruction that the chip hears of a call: one that is not made to fail and comes on the
width the chip listens on. A sleeping chip hears nothing but the instruction that wakes it. -/
def heard? (chip : Chip) (request : BusCall) : Option UInt8 :=
  match request.sent? with
  | some (code, width) =>
      if !chip.refuses && chip.listens width &&
          (!chip.asleep || code == Opcode.releasePowerDown.code) then
        some code
      else
        none
  | none => none

/-- The instruction that the chip obeys in a call. -/
def obeyedCode? (chip : Chip) (request : BusCall) : Option UInt8 :=
  (chip.obeyed? request).map Command.instruction

/-- The instructions that the chip takes notice of in a run, in their order. -/
def noticedIn (notice : Chip → BusCall → Option UInt8) (chip : Chip) : List Handling → List UInt8
  | [] => []
  | handling :: rest =>
      (handling.call?.bind (notice chip)).toList ++ noticedIn notice (chip.handle handling).2 rest

/-- The last instruction that the chip heard in a run. -/
def lastHeard? (chip : Chip) (handlings : List Handling) : Option UInt8 :=
  (chip.noticedIn heard? handlings).getLast?

/-- The last instruction that the chip obeyed in a run. -/
def lastObeyed? (chip : Chip) (handlings : List Handling) : Option UInt8 :=
  (chip.noticedIn obeyedCode? handlings).getLast?

/-! ## The enable latch -/

/-- The latch for a reset is set by the instruction that enables one, and by no other. -/
theorem resetEnable_obey (h : chip.latches.resetEnable = false) (resetEnabled : Bool) :
    (chip.obey instruction resetEnabled command).2.latches.resetEnable =
      (instruction == .enableReset) := by
  cases instruction with
  | program =>
      simp only [obey, program]
      split
      · split <;> exact h
      · exact h
  | erase | eraseChip =>
      simp only [obey, erase]
      split <;> exact h
  | reset | enterQuadProtocol =>
      simp only [obey]
      split <;> exact h
  | setReadParameters | writeVolatileConfig | writeEnhancedConfig =>
      simp only [obey, writeVolatileConfig, writeEnhancedConfig]
      split
      · split <;> exact h
      · exact h
  | enableReset => rfl
  | _ => exact h

/-- Any instruction that is heard replaces what the latch held. -/
theorem resetEnable_hear (chip : Chip) (command : Command) :
    (chip.hear command).2.latches.resetEnable =
      (command.instruction == Opcode.enableReset.code) := by
  have hcode := @Instruction.decode?_eq_enableReset_iff chip.vendor command.instruction
  unfold hear
  dsimp only
  cases hdecode : Instruction.decode? chip.vendor command.instruction with
  | none =>
      rw [hdecode] at hcode
      exact (beq_false_of_ne fun h => nomatch hcode.mpr h).symm
  | some instruction =>
      rw [hdecode, Option.some.injEq] at hcode
      refine (resetEnable_obey rfl _).trans ?_
      rw [Bool.eq_iff_iff, beq_iff_eq, beq_iff_eq]
      exact hcode

/-- The latch for a reset is as the instruction obeyed leaves it, or as it was if none is. -/
theorem resetEnable_answer (chip : Chip) (request : BusCall) :
    (chip.answer request).2.latches.resetEnable =
      (chip.obeyedCode? request).elim chip.latches.resetEnable
        (· == Opcode.enableReset.code) := by
  unfold obeyedCode?
  cases hobeyed : chip.obeyed? request with
  | none => exact congrArg Latches.resetEnable (answer_not_obeyed hobeyed).latches
  | some command =>
      rw [(answer_obeyed hobeyed).2]
      exact resetEnable_hear ..

/-- Only a call reaches the latch. -/
theorem resetEnable_handle (chip : Chip) (handling : Handling) :
    (chip.handle handling).2.latches.resetEnable =
      (handling.call?.bind chip.obeyedCode?).elim chip.latches.resetEnable
        (· == Opcode.enableReset.code) := by
  cases handling with
  | call request =>
      rw [handle_call]
      exact resetEnable_answer chip request
  | _ => rfl

/-- The latch tells whether the last instruction obeyed enables a reset. -/
theorem resetEnable_handleAll (chip : Chip) (handlings : List Handling) :
    (chip.handleAll handlings).latches.resetEnable =
      (chip.lastObeyed? handlings).elim chip.latches.resetEnable
        (· == Opcode.enableReset.code) := by
  induction handlings generalizing chip with
  | nil => rfl
  | cons handling rest ih =>
      have hlast : chip.lastObeyed? (handling :: rest) =
          ((chip.handle handling).2.lastObeyed? rest).or
            (handling.call?.bind chip.obeyedCode?) := by
        unfold lastObeyed?
        rw [noticedIn, List.getLast?_append]
        cases handling.call?.bind chip.obeyedCode? <;> rfl
      refine (ih (chip.handle handling).2).trans ?_
      rw [hlast, resetEnable_handle]
      cases (chip.handle handling).2.lastObeyed? rest <;> rfl

/-! ## Resets -/

/-- The call makes the chip reset itself: afterwards the volatile registers hold their defaults,
whatever they held before. -/
def ResetsOn (chip : Chip) (request : BusCall) : Prop :=
  ∀ registers, ({ chip with registers }.answer request).2.registers =
    .afterReset registers.storedStatus2

/-- No instruction but a reset that is enabled changes more than one register. -/
theorem register_obey (h : instruction ≠ .reset ∨ resetEnabled = false) :
    (chip.obey instruction resetEnabled command).2.registers.readParameters =
        chip.registers.readParameters ∨
      (chip.obey instruction resetEnabled command).2.registers.volatileConfig =
        chip.registers.volatileConfig := by
  cases instruction with
  | reset =>
      obtain rfl : resetEnabled = false := h.resolve_left fun hne => hne rfl
      exact .inl rfl
  | program =>
      simp only [obey, program]
      split
      · split <;> exact .inl rfl
      · exact .inl rfl
  | erase | eraseChip =>
      simp only [obey, erase]
      split <;> exact .inl rfl
  | enterQuadProtocol =>
      simp only [obey]
      split <;> exact .inl rfl
  | writeStatus2 =>
      simp only [obey, writeStatus2]
      split
      · exact .inl rfl
      · split
        · exact .inl rfl
        · split <;> exact .inl rfl
  | setReadParameters =>
      simp only [obey]
      split
      · split <;> exact .inr rfl
      · exact .inr rfl
  | writeVolatileConfig | writeEnhancedConfig =>
      simp only [obey, writeVolatileConfig, writeEnhancedConfig]
      split
      · split <;> exact .inl rfl
      · exact .inl rfl
  | _ => exact .inl rfl

/-- A reset that is asked for and enabled: one line, every latch clear, and the registers at their
defaults. All else is as after any instruction. -/
theorem answer_reset (hobeyed : chip.obeyedCode? request = some Opcode.reset.code)
    (hlatch : chip.latches.resetEnable = true) :
    (chip.answer request).2 =
      { chip.drawn.log Opcode.reset.code with
        quad := false
        latches := .clear
        registers := .afterReset chip.registers.storedStatus2 } := by
  obtain ⟨command, hcommand, hcode⟩ := Option.map_eq_some_iff.mp hobeyed
  have hdecode : Instruction.decode? chip.vendor Opcode.reset.code = some .reset :=
    Instruction.decode?_eq_reset_iff.mpr rfl
  rw [(answer_heeded hcommand (hcode.symm ▸ hdecode)).2]
  simp only [heed, hcode, drawn, log, obey, hlatch, if_true]
  rfl

/-- In any other call a register keeps its value. -/
theorem register_answer
    (h : ¬(chip.obeyedCode? request = some Opcode.reset.code ∧ chip.latches.resetEnable = true)) :
    (chip.answer request).2.registers.readParameters = chip.registers.readParameters ∨
      (chip.answer request).2.registers.volatileConfig = chip.registers.volatileConfig := by
  unfold obeyedCode? at h
  cases hobeyed : chip.obeyed? request with
  | none => exact .inl (congrArg Registers.readParameters (answer_not_obeyed hobeyed).registers)
  | some command =>
      rw [(answer_obeyed hobeyed).2, hear]
      dsimp only
      cases hdecode : Instruction.decode? (chip.drawn.log command.instruction).vendor
          command.instruction with
      | none => exact .inl rfl
      | some instruction =>
          refine register_obey ?_
          by_cases hreset : instruction = .reset
          · refine .inr (Bool.eq_false_iff.mpr fun hlatch => h ⟨?_, hlatch⟩)
            rw [hobeyed]
            exact congrArg some (Instruction.decode?_eq_reset_iff.mp (hreset ▸ hdecode))
          · exact .inl hreset

/-- A chip resets itself on the instruction for it, if the latch is set. -/
theorem resetsOn_iff_latch : chip.ResetsOn request ↔
    chip.obeyedCode? request = some Opcode.reset.code ∧ chip.latches.resetEnable = true := by
  constructor
  · intro hresets
    -- Neither of these registers is at its default, and no other instruction changes both.
    let registers : Registers := ⟨⟨0⟩, ⟨0⟩, ⟨1⟩, ⟨0⟩, ⟨0⟩⟩
    refine Classical.byContradiction fun hnot => ?_
    rcases @register_answer { chip with registers } request hnot with hkept | hkept
    · rw [hresets registers] at hkept
      exact absurd (show (⟨0⟩ : ReadParameters) = ⟨1⟩ from hkept) (by decide)
    · rw [hresets registers] at hkept
      exact absurd (show (⟨0xFB⟩ : VolatileConfig) = ⟨0⟩ from hkept) (by decide)
  · rintro ⟨hobeyed, hlatch⟩ registers
    rw [@answer_reset { chip with registers } request hobeyed hlatch]

/-! ## What is heard and what is obeyed -/

/-- A byte is heard if it is sent on a width listened on, to a chip that is awake or that it is to
wake. -/
theorem heard?_eq_some {code : UInt8} : chip.heard? request = some code ↔
    ∃ width, request.sent? = some (code, width) ∧ chip.refuses = false ∧
      chip.listens width = true ∧
      (chip.asleep = false ∨ code = Opcode.releasePowerDown.code) := by
  unfold heard?
  cases hsent : request.sent? with
  | none => simp
  | some sent =>
      obtain ⟨other, width⟩ := sent
      by_cases hother : other = code
      · subst hother
        cases chip.refuses <;> cases hlisten : chip.listens width <;> cases chip.asleep <;>
          simp [hlisten]
      · simp [hother]

/-- What the chip obeys, it hears. -/
theorem heard?_of_obeyed {code : UInt8} (h : chip.obeyedCode? request = some code) :
    chip.heard? request = some code ∧ chip.asleep = false := by
  obtain ⟨command, hcommand, rfl⟩ := Option.map_eq_some_iff.mp h
  obtain ⟨hrefuses, hsent, hawake, hlistens⟩ := obeyed?_eq_some.mp hcommand
  refine ⟨heard?_eq_some.mpr ⟨command.width, ?_, hrefuses, hlistens, .inl hawake⟩, hawake⟩
  cases request with
  | command sent | start sent =>
      obtain rfl := Option.some.inj hsent
      rfl
  | _ => cases hsent

/-- What the chip hears and does not obey is polled for, or wakes it. -/
theorem obeyed_of_heard? {code : UInt8} (h : chip.heard? request = some code) :
    chip.obeyedCode? request = some code ∨ (∃ poll, request = .poll poll) ∨
      chip.asleep = true ∧ code = Opcode.releasePowerDown.code := by
  obtain ⟨width, hsent, hrefuses, hlistens, hawake⟩ := heard?_eq_some.mp h
  cases hasleep : chip.asleep with
  | true => exact .inr (.inr ⟨rfl, hawake.resolve_left (by simp [hasleep])⟩)
  | false =>
      cases request with
      | command sent | start sent =>
          obtain ⟨rfl, rfl⟩ := Prod.mk.inj (Option.some.inj hsent)
          refine .inl (Option.map_eq_some_iff.mpr ⟨sent, ?_, rfl⟩)
          exact obeyed?_eq_some.mpr ⟨hrefuses, rfl, hasleep, hlistens⟩
      | poll poll => exact .inr (.inl ⟨poll, rfl⟩)
      | map | abort => cases hsent

/-! ## Resets that are due -/

/-- A chip that has been handled is due to reset itself in a call: it is awake and hears the
instruction for it, and the last one that it heard before is the one to enable it. -/
def ResetDue (chip : Chip) (handlings : List Handling) (request : BusCall) : Prop :=
  (chip.handleAll handlings).asleep = false ∧
    (chip.handleAll handlings).heard? request = some Opcode.reset.code ∧
    chip.lastHeard? handlings = some Opcode.enableReset.code

/-- What the chip heard without obeying it makes a difference to a call for a reset. -/
inductive Overlooks (chip : Chip) (handlings : List Handling) (request : BusCall) : Prop where
  /-- Something was heard since the reset was enabled. -/
  | since (hcalled : (chip.handleAll handlings).obeyedCode? request = some Opcode.reset.code)
      (hobeyed : chip.lastObeyed? handlings = some Opcode.enableReset.code)
      (hheard : chip.lastHeard? handlings ≠ some Opcode.enableReset.code)
  /-- The instruction that enables the reset was heard last, but not obeyed. -/
  | enable (hdue : chip.ResetDue handlings request)
      (hobeyed : chip.lastObeyed? handlings ≠ some Opcode.enableReset.code)
  /-- The instruction for the reset is heard, but not obeyed. -/
  | reset (hdue : chip.ResetDue handlings request)
      (hcalled : (chip.handleAll handlings).obeyedCode? request ≠ some Opcode.reset.code)

/-- A reset is carried out exactly if the instruction obeyed before it enabled one. -/
theorem resetsOn_iff_handled (hlatch : chip.latches.resetEnable = false)
    (handlings : List Handling) (request : BusCall) :
    (chip.handleAll handlings).ResetsOn request ↔
      (chip.handleAll handlings).obeyedCode? request = some Opcode.reset.code ∧
        chip.lastObeyed? handlings = some Opcode.enableReset.code := by
  rw [resetsOn_iff_latch, resetEnable_handleAll, hlatch]
  cases chip.lastObeyed? handlings <;> simp

/-- A chip whose enable latch was clear, and that has been handled since, resets itself in a call
exactly if it obeys the instruction for it and the last one that it obeyed enables it. That is so
exactly when a reset is due, unless it overlooks something. What it can overlook is only what polls
send, and what wakes it. -/
theorem resetsOn_iff_lastObeyed (hlatch : chip.latches.resetEnable = false)
    (handlings : List Handling) (request : BusCall) :
    let handled := chip.handleAll handlings
    (handled.ResetsOn request ↔ handled.obeyedCode? request = some Opcode.reset.code ∧
        chip.lastObeyed? handlings = some Opcode.enableReset.code) ∧
      (handled.ResetsOn request → (handled.answer request).2 =
        { handled.drawn.log Opcode.reset.code with
          quad := false
          latches := .clear
          registers := .afterReset handled.registers.storedStatus2 }) ∧
      ((handled.ResetsOn request ↔ chip.ResetDue handlings request) ↔
        ¬chip.Overlooks handlings request) ∧
      ∀ request code, handled.heard? request = some code →
        handled.obeyedCode? request = some code ∨ (∃ poll, request = .poll poll) ∨
          handled.asleep = true ∧ code = Opcode.releasePowerDown.code := by
  intro handled
  have hresets := resetsOn_iff_handled hlatch handlings request
  refine ⟨hresets, fun h => ?_, ⟨fun hexact hoverlooks => ?_, fun hnot => ⟨fun h => ?_, ?_⟩⟩,
    fun _ _ => obeyed_of_heard?⟩
  · obtain ⟨hobeyed, hset⟩ := resetsOn_iff_latch.mp h
    exact answer_reset hobeyed hset
  · cases hoverlooks with
    | since hcalled hobeyed hheard => exact hheard (hexact.mp (hresets.mpr ⟨hcalled, hobeyed⟩)).2.2
    | enable hdue hobeyed => exact hobeyed (hresets.mp (hexact.mpr hdue)).2
    | reset hdue hcalled => exact hcalled (hresets.mp (hexact.mpr hdue)).1
  · obtain ⟨hcalled, hobeyed⟩ := hresets.mp h
    obtain ⟨hheard, hawake⟩ := heard?_of_obeyed hcalled
    refine ⟨hawake, hheard, Classical.byContradiction fun hlast => ?_⟩
    exact hnot (.since hcalled hobeyed hlast)
  · intro hdue
    refine hresets.mpr ⟨Classical.byContradiction fun hcalled => hnot (.reset hdue hcalled), ?_⟩
    exact Classical.byContradiction fun hobeyed => hnot (.enable hdue hobeyed)

/-- A poll, or a call that wakes the chip, between the instruction that enables a reset and the one
for it: the chip resets itself, although a reset is not due. -/
theorem resetsOn_iff_lastObeyed_after_poll :
    let chip := fresh ⟨0xEF, 0x4015⟩
    let enable := Handling.call (.command (.instruct Opcode.enableReset.code .single))
    let poll := Handling.call (.poll ⟨Opcode.readStatus1.code, .single, 1, 0, 16⟩)
    let wake := Handling.call (.command (.instruct Opcode.releasePowerDown.code .single))
    let reset := BusCall.command (.instruct Opcode.reset.code .single)
    chip.latches.resetEnable = false ∧
      ∀ handlings ∈ [[enable, poll], [enable, .setAsleep true, wake]],
        (chip.handleAll handlings).ResetsOn reset ∧ ¬chip.ResetDue handlings reset := by
  intro chip enable poll wake reset
  refine ⟨rfl, fun handlings hhandlings => ?_⟩
  have hcases : (chip.handleAll handlings).obeyedCode? reset = some Opcode.reset.code ∧
      chip.lastObeyed? handlings = some Opcode.enableReset.code ∧
      chip.lastHeard? handlings ≠ some Opcode.enableReset.code := by
    revert handlings
    decide
  obtain ⟨hcalled, hobeyed, hheard⟩ := hcases
  have hlatch : chip.latches.resetEnable = false := rfl
  obtain ⟨hresets, -, -, -⟩ := resetsOn_iff_lastObeyed hlatch handlings reset
  exact ⟨hresets.mpr ⟨hcalled, hobeyed⟩, fun hdue => hheard hdue.2.2⟩

end Chip

end NorFlash
