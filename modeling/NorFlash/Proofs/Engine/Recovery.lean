import NorFlash.Engine.Control
import NorFlash.Proofs.Bench.Command
import NorFlash.Proofs.Engine.Repertoire

/-!
# Recovery on a bench

Recovery sends the wake sequence on four lines, where refusals do not matter, and then on one line,
where the first refusal ends it. `ends_recover` says what becomes of the chip: `keepsQuad` tells
from what was refused on four lines whether a chip in quad protocol stays in it, and the pass on one
line never changes the protocol. On a responsive bench the chip is awake and listens on one line
afterwards, whatever state it was in.
-/

namespace NorFlash

namespace Chip

variable {chip : Chip} {command : Command} {instruction : Instruction} {refused : Bool}
  {width : BusWidth}

/-- The chip after a command that it was made to refuse or not. -/
def sent (chip : Chip) (command : Command) (refused : Bool) : Chip :=
  if refused then chip.drawn else (chip.accept command).2

/-- An instruction that is heard and not refused is obeyed. -/
theorem sent_of_hears (hhears : chip.Hears command.width)
    (hdecode : Instruction.decode? chip.vendor command.instruction = some instruction) :
    chip.sent command false = (chip.heed instruction command).2 :=
  congrArg Prod.snd (accept_of_decode hhears hdecode)

/-- A strict chip keeps its mode over an instruction at another width. -/
theorem mode_sent_of_ne (hstrict : chip.strict = true) (hwidth : command.width ≠ chip.width) :
    (chip.sent command refused).mode = chip.mode := by
  cases refused with
  | true => rfl
  | false =>
      have hlisten : chip.listens command.width = false := by simp [listens, hstrict, hwidth]
      show (chip.accept command).2.mode = chip.mode
      rw [accept_of_not_listens hlisten]
      rfl

/-- A chip told to wake on its own width is awake, if it was so already or was not made to
refuse. -/
theorem sent_wake (refused : Bool) (hlisten : chip.listens width = true)
    (hwake : chip.asleep = false ∨ refused = false) :
    (chip.sent (.instruct Opcode.releasePowerDown.code width) refused).mode =
        { chip.mode with asleep := false } ∧
      (chip.asleep = false →
        (chip.sent (.instruct Opcode.releasePowerDown.code width) refused).latches.resetEnable =
          (refused && chip.latches.resetEnable)) := by
  cases hasleep : chip.asleep with
  | true =>
      obtain rfl : refused = false := by simpa [hasleep] using hwake
      refine ⟨?_, by simp⟩
      show (chip.accept _).2.mode = _
      rw [accept_of_wake hasleep hlisten rfl]
      rfl
  | false =>
      have hmode : chip.mode = { chip.mode with asleep := false } := by
        simp [mode, hasleep]
      cases refused with
      | true => exact ⟨hmode, fun _ => rfl⟩
      | false =>
          have hdecode := Instruction.decode?_of_shared
            (show Instruction.shared.lookup Opcode.releasePowerDown.code = some .wake by decide)
            chip.vendor
          rw [sent_of_hears ⟨hasleep, hlisten⟩ hdecode]
          exact ⟨hmode, fun _ => rfl⟩

/-- An awake chip that is told to enable a reset does so, unless it is made to refuse. -/
theorem sent_enableReset (refused : Bool) (hhears : chip.Hears width) :
    (chip.sent (.instruct Opcode.enableReset.code width) refused).mode = chip.mode ∧
      (chip.sent (.instruct Opcode.enableReset.code width) refused).latches.resetEnable =
        (!refused || chip.latches.resetEnable) := by
  cases refused with
  | true => exact ⟨rfl, rfl⟩
  | false =>
      have hdecode := Instruction.decode?_of_shared
        (show Instruction.shared.lookup Opcode.enableReset.code = some .enableReset by decide)
        chip.vendor
      rw [sent_of_hears hhears hdecode]
      exact ⟨mode_heed rfl, rfl⟩

/-- An awake chip that is told to reset does so if that is enabled, unless it is made to refuse. -/
theorem sent_reset (refused : Bool) (hhears : chip.Hears width) :
    (chip.sent (.instruct Opcode.reset.code width) refused).mode =
      if !refused && chip.latches.resetEnable then chip.reset.mode else chip.mode := by
  cases refused with
  | true => rfl
  | false =>
      have hdecode := Instruction.decode?_of_shared
        (show Instruction.shared.lookup Opcode.reset.code = some .reset by decide) chip.vendor
      rw [sent_of_hears hhears hdecode]
      cases hlatch : chip.latches.resetEnable with
      | true => simp [heed, obey, hlatch]; rfl
      | false => simp [heed, obey, hlatch]; rfl

/-- The chip after the wake sequence on a width, of which some commands may have been refused. -/
def afterPass (chip : Chip) (width : BusWidth) (wake enable reset : Bool) : Chip :=
  ((chip.sent (.instruct Opcode.releasePowerDown.code width) wake).sent
    (.instruct Opcode.enableReset.code width) enable).sent (.instruct Opcode.reset.code width) reset

/-- What was refused keeps an awake chip from being reset: the reset itself, or the instruction that
enables it, unless it was enabled before and the instruction to wake did not end that. -/
def keepsQuad (chip : Chip) (wake enable reset : Bool) : Bool :=
  reset || (enable && !(wake && chip.latches.resetEnable))

variable {wake enable reset : Bool}

/-- A pass a chip listens to wakes it, and resets it unless an instruction was refused. -/
theorem afterPass_of_listens (hlisten : chip.listens width = true)
    (hwake : chip.asleep = false ∨ wake = false)
    (henable : chip.asleep = false ∨ enable = false) :
    (chip.afterPass width wake enable reset).asleep = false ∧
      (chip.afterPass width wake enable reset).quad =
        (chip.quad && chip.keepsQuad wake enable reset) := by
  -- Each command is taken for itself, and all that the next needs is what it says about the chip.
  obtain ⟨hfirst, hfirstLatch⟩ := sent_wake wake hlisten hwake
  have hwoken : Hears { chip with asleep := false } width := ⟨rfl, hlisten⟩
  have hfirstHears := hwoken.of_mode hfirst
  unfold afterPass
  generalize chip.sent (.instruct Opcode.releasePowerDown.code width) wake = first at *
  obtain ⟨hsecond, hsecondLatch⟩ := sent_enableReset enable hfirstHears
  have hsecondHears := hfirstHears.of_mode hsecond
  generalize first.sent (.instruct Opcode.enableReset.code width) enable = second at *
  have hthird := sent_reset reset hsecondHears
  generalize second.sent (.instruct Opcode.reset.code width) reset = third at *
  have hquad : second.quad = chip.quad :=
    (congrArg Mode.quad hsecond).trans (congrArg Mode.quad hfirst)
  have hlatch : second.latches.resetEnable = !(enable && !(wake && chip.latches.resetEnable)) := by
    rw [hsecondLatch]
    cases enable with
    | false => rfl
    | true =>
        rw [hfirstLatch (by simpa using henable)]
        simp
  rw [hlatch] at hthird
  have hasleepThird := congrArg Mode.asleep hthird
  have hquadThird := congrArg Mode.quad hthird
  unfold keepsQuad
  generalize (enable && !(wake && chip.latches.resetEnable)) = kept at *
  cases reset <;> cases kept <;>
    simp_all [mode, Chip.reset, hsecondHears.1]

/-- A pass at another width leaves the mode of a strict chip alone. -/
theorem afterPass_of_not_listens (hstrict : chip.strict = true) (hwidth : width ≠ chip.width) :
    (chip.afterPass width wake enable reset).mode = chip.mode := by
  have hkept : ∀ other : Chip, other.mode = chip.mode → ∀ code refused,
      (other.sent (.instruct code width) refused).mode = chip.mode := by
    intro other hmode code refused
    have hstrict : other.strict = true := (congrArg Mode.strict hmode).trans hstrict
    have hquad : other.quad = chip.quad := congrArg Mode.quad hmode
    have hwidth : width ≠ other.width := by rwa [Chip.width, hquad]
    exact (mode_sent_of_ne hstrict hwidth).trans hmode
  exact hkept _ (hkept _ (hkept chip rfl _ _) _ _) _ _

/-- On one line the wake sequence never changes the protocol, not even where it is heard. -/
theorem quad_answer_wakeSequence {code : UInt8} (hstrict : chip.strict = true)
    (hcode : code ∈ Engine.wakeRepertoire) :
    (chip.answer (.command (.instruct code .single))).2.quad = chip.quad := by
  cases effect_answer chip (.command (.instruct code .single)) with
  | idle h => exact congrArg Mode.quad h.mode
  | woken _ _ h => exact congrArg Mode.quad h.mode
  | obeyed command instruction resetEnabled base hsent hheard hdecode hbase hafter =>
      obtain rfl := Option.some.inj hsent
      have hknown : Instruction.NoneAmong
          (fun known => known != .wake && known != .enableReset && known != .reset)
          Engine.wakeRepertoire := by
        decide
      have hwake := Instruction.of_decode? (hknown code hcode) hdecode
      have hquad : base.quad = chip.quad := congrArg Mode.quad hbase.mode
      have hsingle : chip.quad = false := ((hears_single hstrict).mp hheard).2
      rw [hafter, hsingle]
      rw [hsingle] at hquad
      cases instruction with
      | wake => exact hquad
      | enableReset => exact hquad
      | reset =>
          simp only [obey]
          split
          · rfl
          · exact hquad
      | _ => simp at hwake

end Chip

namespace BusAction

variable {bench : Bench} {bus : BusState} {code : UInt8} {width : BusWidth}
  {ok : Unit → BusState → Bench → Prop} {bad : Fault → BusState → Bench → Prop}

/-- An instruction reaches the chip, or is refused on the way. -/
theorem ends_sent (hcode : Instruction.hasOnSome (· == .readQuad) code = false)
    (hok : ∀ after, bench.Issued (.instruct code width) false after → ok () bus after)
    (hbad : ∀ after, bench.Issued (.instruct code width) true after →
      bad (.bus .injected) bus after) :
    (BusAction.instruct code width).Ends Bench.environment ok bad bus bench := by
  rw [ends_instruct]
  exact Action.ends_command (Chip.reply_accept rfl hcode) hok hbad

/-- An instruction whose refusal is passed over goes on in either case. -/
theorem ends_attemptSent (hcode : Instruction.hasOnSome (· == .readQuad) code = false)
    (hok : ∀ refused after, bench.Issued (.instruct code width) refused after →
      ok () bus after) :
    (BusAction.attempt (BusAction.instruct code width)).Ends Bench.environment ok bad bus
      bench := by
  rw [ends_attempt]
  exact ends_sent hcode (hok false) (hok true)

end BusAction

namespace Engine

variable {bench : Bench} {engine : Engine} {bus : BusState}

/-- What the pass on four lines leaves in the record. -/
def fourLinePass (wake enable reset : Bool) : List (Command × Bool) :=
  [(.instruct Opcode.releasePowerDown.code .quad, wake),
    (.instruct Opcode.enableReset.code .quad, enable), (.instruct Opcode.reset.code .quad, reset)]

/-- The instructions in the order they are sent on one line, none of them refused. -/
def oneLine (opcodes : List Opcode) : List (Command × Bool) :=
  opcodes.map fun opcode => (.instruct opcode.code .single, false)

/-- Nothing that wakes a chip is a quad read. -/
theorem not_readQuad_of_wakeRepertoire :
    Instruction.NoneAmong (· == .readQuad) wakeRepertoire := by
  decide

/-- The bench after the pass on four lines. -/
structure PassedFourLines (bench : Bench) (wake enable reset : Bool) (after : Bench) : Prop where
  chip : after.chip = bench.chip.afterPass .quad wake enable reset
  build : Chip.SameBuild bench.chip after.chip
  commands : after.commands = bench.commands ++ fourLinePass wake enable reset
  responsive : bench.chip.Responsive → wake = false ∧ enable = false ∧ reset = false

/-- The pass on four lines sends its three instructions, whichever are refused. -/
theorem ends_fourLinePass {ok : Unit → BusState → Bench → Prop}
    {bad : Fault → BusState → Bench → Prop}
    (hok : ∀ wake enable reset after, PassedFourLines bench wake enable reset after →
      ok () bus after) :
    (wakeSequence.forM fun opcode =>
      BusAction.attempt (BusAction.instruct opcode.code .quad)).Ends Bench.environment ok bad bus
        bench := by
  have hcode := not_readQuad_of_wakeRepertoire
  simp only [wakeSequence, List.forM]
  rw [BusAction.ends_bind]
  refine BusAction.ends_attemptSent (hcode _ (by decide)) fun wake first hfirst => ?_
  rw [BusAction.ends_bind]
  refine BusAction.ends_attemptSent (hcode _ (by decide)) fun enable second hsecond => ?_
  rw [BusAction.ends_bind]
  refine BusAction.ends_attemptSent (hcode _ (by decide)) fun reset after hafter => ?_
  refine hok wake enable reset after ⟨?_, hfirst.sameBuild.trans
    (hsecond.sameBuild.trans hafter.sameBuild), ?_, fun hresponsive => ?_⟩
  · rw [hafter.chip, hsecond.chip, hfirst.chip]
    rfl
  · rw [hafter.commands, hsecond.commands, hfirst.commands]
    simp [fourLinePass]
  · have hone := hfirst.responsive hresponsive
    have htwo := hsecond.responsive hone
    exact ⟨hfirst.refused_eq.trans (Chip.not_refuses_of_responsive hresponsive),
      hsecond.refused_eq.trans (Chip.not_refuses_of_responsive hone),
      hafter.refused_eq.trans (Chip.not_refuses_of_responsive htwo)⟩

/-- Instructions sent on one line are all carried out, or the first that is refused ends them. -/
theorem ends_oneLine {opcodes : List Opcode}
    (hcodes : ∀ opcode ∈ opcodes, opcode.code ∈ wakeRepertoire)
    (hstrict : bench.chip.strict = true) :
    (opcodes.forM fun opcode => BusAction.instruct opcode.code .single).Ends Bench.environment
      (fun _ last after => last = bus ∧ Chip.SameBuild bench.chip after.chip ∧
        after.chip = opcodes.foldl
          (fun chip opcode => chip.sent (.instruct opcode.code .single) false) bench.chip ∧
        after.chip.quad = bench.chip.quad ∧
        after.commands = bench.commands ++ oneLine opcodes)
      (fun _ last after => last = bus ∧ ¬bench.chip.Responsive ∧
        after.chip.quad = bench.chip.quad ∧
        ∃ carried refused rest, opcodes = carried ++ refused :: rest ∧
          after.commands = bench.commands ++ oneLine carried ++
            [(.instruct refused.code .single, true)]) bus bench := by
  -- Whatever is sent next finds the chip in the same protocol, so the rest goes as from there.
  induction opcodes generalizing bench with
  | nil => exact ⟨rfl, .refl _, rfl, rfl, (List.append_nil _).symm⟩
  | cons opcode rest ih =>
      have hmem := hcodes opcode List.mem_cons_self
      have hkept : ∀ refused after,
          bench.Issued (.instruct opcode.code .single) refused after →
            after.chip.quad = bench.chip.quad := by
        intro refused after hissued
        rw [hissued.chip_eq_answer]
        exact Chip.quad_answer_wakeSequence hstrict hmem
      show BusAction.Ends _ (_ >>= fun _ => rest.forM _) _ _ _ _
      rw [BusAction.ends_bind]
      refine BusAction.ends_sent (not_readQuad_of_wakeRepertoire _ hmem)
        (fun middle hmiddle => ?_) fun after hafter => ?_
      · have hmiddleStrict := hmiddle.sameBuild.strict.trans hstrict
        refine (ih (fun other hother => hcodes other (List.mem_cons_of_mem _ hother))
          hmiddleStrict).mono ?_ ?_
        · rintro _ last after ⟨hlast, hbuild, hchip, hquad, hcommands⟩
          refine ⟨hlast, hmiddle.sameBuild.trans hbuild, ?_, hquad.trans (hkept _ _ hmiddle), ?_⟩
          · rw [hchip, hmiddle.chip]
            rfl
          · rw [hcommands, hmiddle.commands]
            simp [oneLine]
        · rintro _ last after ⟨hlast, hresponsive, hquad, carried, refused, left, hsplit, hcommands⟩
          refine ⟨hlast, mt hmiddle.responsive hresponsive, hquad.trans (hkept _ _ hmiddle),
            opcode :: carried, refused, left, congrArg (opcode :: ·) hsplit, ?_⟩
          rw [hcommands, hmiddle.commands]
          simp [oneLine]
      · refine ⟨rfl, hafter.not_responsive, hkept _ _ hafter, [], opcode, rest, rfl, ?_⟩
        rw [hafter.commands]
        simp [oneLine]

/-- The pass on one line is its three instructions in a row. -/
theorem foldl_wakeSequence (chip : Chip) :
    wakeSequence.foldl (fun chip opcode => chip.sent (.instruct opcode.code .single) false) chip =
      chip.afterPass .single false false false :=
  rfl

/-- The bench after recovery, with what was recorded after the pass on four lines. -/
structure Recovered (bench : Bench) (wake enable reset : Bool) (sent : List (Command × Bool))
    (after : Bench) : Prop where
  commands : after.commands = bench.commands ++ fourLinePass wake enable reset ++ sent
  quad : bench.chip.asleep = false →
    after.chip.quad = (bench.chip.quad && bench.chip.keepsQuad wake enable reset)

/-- The protocol of an awake chip after the pass on four lines. -/
theorem quad_afterPass_quad {chip : Chip} (hstrict : chip.strict = true)
    (hasleep : chip.asleep = false) (wake enable reset : Bool) :
    (chip.afterPass .quad wake enable reset).quad =
      (chip.quad && chip.keepsQuad wake enable reset) := by
  cases hquad : chip.quad with
  | true =>
      have hlisten := ((Chip.hears_quad hstrict).mpr ⟨hasleep, hquad⟩).2
      rw [(Chip.afterPass_of_listens hlisten (.inl hasleep) (.inl hasleep)).2, hquad]
  | false =>
      have hwidth : BusWidth.quad ≠ chip.width := by simp [Chip.width, hquad]
      exact (congrArg Chip.Mode.quad (Chip.afterPass_of_not_listens hstrict hwidth)).trans hquad

/-- A pass on four lines of which nothing is refused leaves the chip in single-line protocol. -/
theorem quad_afterPass_of_accepted {chip : Chip} (hstrict : chip.strict = true) :
    (chip.afterPass .quad false false false).quad = false := by
  cases hquad : chip.quad with
  | true =>
      have hlisten : chip.listens .quad = true := by simp [Chip.listens, Chip.width, hquad]
      rw [(Chip.afterPass_of_listens hlisten (.inr rfl) (.inr rfl)).2]
      simp [Chip.keepsQuad]
  | false =>
      have hwidth : BusWidth.quad ≠ chip.width := by simp [Chip.width, hquad]
      exact (congrArg Chip.Mode.quad (Chip.afterPass_of_not_listens hstrict hwidth)).trans hquad

/-- What recovery makes of a chip, and what it leaves in the record. -/
theorem ends_recover (hstrict : bench.chip.strict = true) (hbus : bench.bus = some bus) :
    engine.recover.Ends Bench.environment
      (fun _ after => after.bus = some ⟨.single, false⟩ ∧
        (∃ wake enable reset, Recovered bench wake enable reset (oneLine wakeSequence) after) ∧
        (bench.chip.Responsive → after.chip.Hears .single ∧ after.chip.Responsive))
      (fun _ after => after.bus = some ⟨bus.width, false⟩ ∧ ¬bench.chip.Responsive ∧
        ∃ wake enable reset carried refused rest, wakeSequence = carried ++ refused :: rest ∧
          Recovered bench wake enable reset
            (oneLine carried ++ [(.instruct refused.code .single, true)]) after) bench := by
  refine ends_withBus hbus fun start htaken => ?_
  have hstartStrict : start.chip.strict = true := htaken.chip.strict.trans hstrict
  have hstartQuad : start.chip.quad = bench.chip.quad := congrArg Chip.Mode.quad htaken.chip.mode
  have hkeeps : ∀ wake enable reset,
      start.chip.keepsQuad wake enable reset = bench.chip.keepsQuad wake enable reset := by
    simp [Chip.keepsQuad, htaken.latches]
  rw [BusAction.ends_bind]
  refine ends_fourLinePass fun wake enable reset middle hpassed => ?_
  obtain ⟨hchip, hbuild, hcommands, hresponsive⟩ := hpassed
  have hquad : bench.chip.asleep = false →
      middle.chip.quad = (bench.chip.quad && bench.chip.keepsQuad wake enable reset) := by
    intro hasleep
    have hstartAsleep : start.chip.asleep = false :=
      (congrArg Chip.Mode.asleep htaken.chip.mode).trans hasleep
    rw [hchip, quad_afterPass_quad hstartStrict hstartAsleep, hkeeps, hstartQuad]
  have hmiddleStrict := hbuild.strict.trans hstartStrict
  have hmem : ∀ opcode ∈ wakeSequence, opcode.code ∈ wakeRepertoire := by
    decide
  rw [BusAction.ends_bind]
  refine (ends_oneLine hmem hmiddleStrict).mono ?_ ?_
  · rintro _ _ after ⟨rfl, hafterBuild, hafter, hkept, hsent⟩
    refine ⟨rfl, ⟨wake, enable, reset, ?_, fun hasleep => hkept.trans (hquad hasleep)⟩, ?_⟩
    · show after.commands = _
      rw [hsent, hcommands, htaken.commands]
    · intro hbench
      -- With nothing refused, the first pass ends quad protocol and the second wakes the chip.
      obtain ⟨rfl, rfl, rfl⟩ := hresponsive (htaken.chip.responsive hbench)
      have hsingle : middle.chip.quad = false := hchip ▸ quad_afterPass_of_accepted hstartStrict
      have hlisten : middle.chip.listens .single = true := by
        simp [Chip.listens, Chip.width, hsingle]
      have hawake : after.chip.asleep = false := by
        rw [hafter, foldl_wakeSequence]
        exact (Chip.afterPass_of_listens hlisten (.inr rfl) (.inr rfl)).1
      exact ⟨(Chip.hears_single (hafterBuild.strict.trans hmiddleStrict)).mpr
        ⟨hawake, hkept.trans hsingle⟩,
        ((htaken.chip.toSameBuild.trans hbuild).trans hafterBuild).responsive hbench⟩
  · rintro _ _ after ⟨rfl, hmiddle, hkept, carried, refused, rest, hsplit, hsent⟩
    refine ⟨rfl, fun hbench => hmiddle (hbuild.responsive (htaken.chip.responsive hbench)), wake,
      enable, reset, carried, refused, rest, hsplit, ?_, fun hasleep =>
        hkept.trans (hquad hasleep)⟩
    show after.commands = _
    rw [hsent, hcommands, htaken.commands]
    simp

end Engine

end NorFlash
