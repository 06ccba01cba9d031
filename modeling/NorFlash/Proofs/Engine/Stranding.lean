import NorFlash.Proofs.Engine.Awareness

/-!
# When the engine loses the width

Bringing a device up changes the chip's protocol in the middle of its sequences, but the engine
records the width only at their ends. `Strands` tells from the commands recorded, and whether each
was refused, that the two were left apart, and `ends_bringUp_tracked` says that they are left apart
in no other case.
-/

namespace NorFlash

namespace Bench

/-- After `bench` an instruction was sent on the given width, and refused or not. -/
def Sent (bench after : Bench) (code : UInt8) (width : BusWidth) (refused : Bool) : Prop :=
  ∃ entry ∈ after.commands.drop bench.commands.length,
    entry.1.instruction = code ∧ entry.1.width = width ∧ entry.2 = refused

instance (bench after : Bench) (code : UInt8) (width : BusWidth) (refused : Bool) :
    Decidable (bench.Sent after code width refused) :=
  inferInstanceAs (Decidable (∃ entry ∈ _, _))

/-- What was sent on four lines resets a chip that listens there: the reset was carried out, and it
was enabled, either by the instruction for it or before, which the instruction to wake would have
ended. -/
def ResetOnFour (bench after : Bench) : Prop :=
  bench.Sent after Opcode.reset.code .quad false ∧
    (bench.Sent after Opcode.enableReset.code .quad false ∨
      (bench.Sent after Opcode.releasePowerDown.code .quad true ∧
        bench.chip.latches.resetEnable = true))

/-- A chip in quad protocol was reset by the pass on four lines, but the pass on one line did not
come to its end, or the other way around. -/
def Strays (bench after : Bench) : Prop :=
  bench.chip.quad = true ∧
    ¬(bench.ResetOnFour after ↔ bench.Sent after Opcode.reset.code .single false)

/-- Bringing up left the engine with another width than the chip: recovery did, or the last command
of the Winbond sequence was refused, after which the chip is in quad protocol and the engine has not
recorded it. -/
def Strands (bench after : Bench) : Prop :=
  bench.Sent after WinbondOpcode.setReadParameters.code .quad true ∨ bench.Strays after

variable {bench middle after : Bench} {code : UInt8} {width : BusWidth} {refused : Bool}
  {codes : List UInt8}

/-- What was sent is found among the commands that were added. -/
theorem sent_iff {sent : List (Command × Bool)} (h : after.commands = bench.commands ++ sent) :
    bench.Sent after code width refused ↔
      ∃ entry ∈ sent, entry.1.instruction = code ∧ entry.1.width = width ∧ entry.2 = refused := by
  rw [Sent, h, List.drop_left]

/-- An instruction that is not among those that could be added was not sent. -/
theorem Adds.not_sent (h : bench.Adds codes after) (hcode : code ∉ codes) :
    ¬bench.Sent after code width refused := by
  obtain ⟨sent, hsent, hamong⟩ := h
  rw [sent_iff hsent]
  rintro ⟨entry, hentry, rfl, -⟩
  exact hcode (hamong entry hentry)

/-- What was sent in two stretches was sent in one of them. -/
theorem Adds.sent_iff_or {more : List UInt8} (h : bench.Adds codes middle)
    (hnext : middle.Adds more after) :
    bench.Sent after code width refused ↔
      bench.Sent middle code width refused ∨ middle.Sent after code width refused := by
  obtain ⟨first, hfirst, -⟩ := h
  obtain ⟨second, hsecond, -⟩ := hnext
  rw [sent_iff hfirst, sent_iff hsecond,
    sent_iff (hsecond.trans (hfirst ▸ List.append_assoc ..))]
  simp only [List.mem_append, or_and_right, exists_or]

/-- Commands that were all carried out include none that was refused. -/
theorem Leads.not_sent (h : bench.Leads after) : ¬bench.Sent after code width true := by
  obtain ⟨sent, hsent⟩ := h.carried
  rw [sent_iff hsent]
  rintro ⟨entry, hentry, -, -, hrefused⟩
  obtain ⟨command, -, rfl⟩ := List.mem_map.mp hentry
  simp at hrefused

/-- The only command that was refused is the last one. -/
theorem StopsAt.sent_iff {last : Command} (h : bench.StopsAt last after) :
    bench.Sent after code width true ↔ last.instruction = code ∧ last.width = width := by
  obtain ⟨sent, hsent⟩ := h.carried
  rw [Bench.sent_iff (hsent.trans (List.append_assoc ..))]
  refine ⟨?_, fun hlast => ⟨(last, true), by simp, hlast.1, hlast.2, rfl⟩⟩
  rintro ⟨entry, hentry, hcode, hwidth, hrefused⟩
  rcases List.mem_append.mp hentry with hcarried | hlast
  · obtain ⟨command, -, rfl⟩ := List.mem_map.mp hcarried
    simp at hrefused
  · obtain rfl := List.mem_singleton.mp hlast
    exact ⟨hcode, hwidth⟩

/-- Whether the chip strays is decided once the device has been looked for. -/
theorem strays_of_adds (h : bench.Adds Engine.wakeRepertoire middle)
    (hnext : middle.Adds Engine.quadRepertoire after) :
    bench.Strays after ↔ bench.Strays middle := by
  have hkept : ∀ code ∈ Engine.wakeRepertoire, ∀ width refused,
      bench.Sent after code width refused ↔ bench.Sent middle code width refused := by
    intro code hcode width refused
    have hother : (Engine.wakeRepertoire.all fun code =>
        !Engine.quadRepertoire.contains code) = true := by
      decide
    have hnever : code ∉ Engine.quadRepertoire := by
      simpa using List.all_eq_true.mp hother code hcode
    rw [h.sent_iff_or hnext]
    simp [hnext.not_sent hnever]
  unfold Strays ResetOnFour
  rw [hkept _ (by decide), hkept _ (by decide), hkept _ (by decide), hkept _ (by decide)]

end Bench

namespace Engine

open Bench QuadEntry

variable {bench middle after : Bench} {engine : Engine} {bus : BusState} {id : JedecId}
  {wake enable reset : Bool} {sent : List (Command × Bool)}

/-- The record tells whether the pass on four lines resets the chip. -/
theorem Recovered.resetOnFour_iff (h : Recovered bench wake enable reset sent after)
    (hsent : ∀ entry ∈ sent, entry.1.width = .single) :
    bench.ResetOnFour after ↔ bench.chip.keepsQuad wake enable reset = false := by
  have hfour : ∀ code refused, bench.Sent after code .quad refused ↔
      ∃ entry ∈ fourLinePass wake enable reset,
        entry.1.instruction = code ∧ entry.1.width = .quad ∧ entry.2 = refused := by
    intro code refused
    rw [sent_iff (h.commands.trans (List.append_assoc ..))]
    refine ⟨?_, fun ⟨entry, hentry, hmatch⟩ => ⟨entry, List.mem_append_left _ hentry, hmatch⟩⟩
    rintro ⟨entry, hentry, hmatch⟩
    rcases List.mem_append.mp hentry with hfour | hone
    · exact ⟨entry, hfour, hmatch⟩
    · simp [hsent entry hone] at hmatch
  unfold ResetOnFour
  rw [hfour, hfour, hfour]
  unfold Chip.keepsQuad
  generalize bench.chip.latches.resetEnable = latch
  -- What is left is a statement about four truth values.
  clear hfour h
  revert wake enable reset latch
  decide

/-- What recovery sent, as long as the pass on one line went. -/
theorem Recovered.adds (h : Recovered bench wake enable reset sent after)
    (hsent : ∀ entry ∈ sent, entry.1.instruction ∈ wakeRepertoire) :
    bench.Adds wakeRepertoire after := by
  refine ⟨_, h.commands.trans (List.append_assoc ..), fun entry hentry => ?_⟩
  rcases List.mem_append.mp hentry with hfour | hone
  · simp only [fourLinePass, List.mem_cons, List.not_mem_nil, or_false] at hfour
    rcases hfour with rfl | rfl | rfl <;> simp [wakeRepertoire, wakeSequence, Command.instruct]
  · exact hsent entry hone

/-- The pass on one line sends the instructions that wake and reset, on one line. -/
theorem mem_oneLine {opcodes : List Opcode} (hcodes : opcodes ⊆ wakeSequence) :
    ∀ entry ∈ oneLine opcodes,
      entry.1.width = .single ∧ entry.1.instruction ∈ wakeRepertoire := by
  intro entry hentry
  obtain ⟨opcode, hopcode, rfl⟩ := List.mem_map.mp hentry
  exact ⟨rfl, List.mem_map_of_mem (hcodes hopcode)⟩

/-- A recovery adds no instructions but those that wake and reset. -/
theorem Course.adds (h : Course bench bus after) : bench.Adds wakeRepertoire after := by
  cases h with
  | answered _ _ _ hcommands => exact ⟨[], hcommands.trans (List.append_nil _).symm, by simp⟩
  | recovered wake enable reset _ h =>
      exact h.adds fun entry hentry => (mem_oneLine (fun _ hmem => hmem) entry hentry).2

/-- After the search for a device, unless it broke off, the engine assumes one line. -/
theorem Course.width_eq {last : BusState} (hsettled : bench.Settled id) (htracked : bench.Tracked)
    (hbus : bench.bus = some bus) (h : Course bench bus after) (hlast : after.bus = some last) :
    last.width = .single := by
  cases h with
  | answered hfirst _ hafter _ =>
      obtain rfl := Option.some.inj (hafter.symm.trans hlast)
      rw [tracked_iff hbus] at htracked
      exact htracked.trans ((hsettled.hears_iff _).mp hfirst).symm
  | recovered _ _ _ hafter _ =>
      obtain rfl := Option.some.inj (hafter.symm.trans hlast)
      rfl

/-- After the search for a device, only recovery can have lost the width. -/
theorem Course.tracked_iff (hsettled : bench.Settled id) (htracked : bench.Tracked)
    (hbus : bench.bus = some bus) (h : Course bench bus after) :
    after.Tracked ↔ ¬bench.Strays after := by
  cases h with
  | answered hheard hmode hafter _ =>
      have hquad := ((Chip.hears_single hsettled.sound.strict).mp hheard).2
      simp [Strays, hquad, htracked.of_mode hbus hafter hmode]
  | recovered wake enable reset hafter h =>
      have hmem := mem_oneLine (fun (opcode : Opcode) (hmem : opcode ∈ wakeSequence) => hmem)
      have hsent : bench.Sent after Opcode.reset.code .single false := by
        rw [sent_iff (h.commands.trans (List.append_assoc ..))]
        exact ⟨(.instruct Opcode.reset.code .single, false),
          List.mem_append_right _ (by decide), rfl, rfl, rfl⟩
      rw [Bench.tracked_iff hafter, Strays,
        h.resetOnFour_iff fun entry hentry => (hmem entry hentry).1, Chip.width,
        h.quad hsettled.awake]
      cases bench.chip.quad <;> cases bench.chip.keepsQuad wake enable reset <;> simp [hsent]

/-- A recovery that ended at a refused command did not come to the reset before. -/
theorem reset_not_mem_of_split {carried rest : List Opcode} {refused : Opcode}
    (hsplit : wakeSequence = carried ++ refused :: rest) : Opcode.reset ∉ carried := by
  unfold wakeSequence at hsplit
  rcases carried with _ | ⟨first, _ | ⟨second, _ | ⟨third, more⟩⟩⟩
  · simp
  · obtain ⟨rfl, -⟩ := List.cons.inj hsplit
    decide
  · obtain ⟨rfl, hrest⟩ := List.cons.inj hsplit
    obtain ⟨rfl, -⟩ := List.cons.inj hrest
    decide
  · simp at hsplit

/-- As `Course.tracked_iff`, after a recovery that ended at a refused command. -/
theorem Stopped.tracked_iff (hsettled : bench.Settled id) (htracked : bench.Tracked)
    (hbus : bench.bus = some bus) (h : Stopped bench bus after) :
    bench.Adds wakeRepertoire after ∧ (after.Tracked ↔ ¬bench.Strays after) := by
  have hafter := h.bus_eq
  obtain ⟨wake, enable, reset, carried, refused, rest, hsplit, h⟩ := h.recovered
  have hmem : ∀ entry ∈ oneLine carried ++ [(Command.instruct refused.code .single, true)],
      entry.1.width = .single ∧ entry.1.instruction ∈ wakeRepertoire := by
    intro entry hentry
    rcases List.mem_append.mp hentry with hcarried | hlast
    · exact mem_oneLine (fun _ hmem => hsplit ▸ List.mem_append_left _ hmem) entry hcarried
    · obtain rfl := List.mem_singleton.mp hlast
      exact ⟨rfl, List.mem_map_of_mem (hsplit ▸ by simp)⟩
  -- The reset is the last command of the sequence, so on one line it was refused or not sent.
  have hunsent : ¬bench.Sent after Opcode.reset.code .single false := by
    rw [sent_iff (h.commands.trans (List.append_assoc ..))]
    rintro ⟨entry, hentry, hcode, hwidth, hrefused⟩
    simp only [List.mem_append, List.mem_singleton] at hentry
    rcases hentry with hfour | hone | rfl
    · simp only [fourLinePass, List.mem_cons, List.not_mem_nil, or_false] at hfour
      rcases hfour with rfl | rfl | rfl <;> simp [Command.instruct] at hwidth
    · obtain ⟨opcode, hopcode, rfl⟩ := List.mem_map.mp hone
      have hreset : ∀ opcode ∈ wakeSequence, opcode.code = Opcode.reset.code → opcode = .reset := by
        decide
      obtain rfl := hreset opcode (hsplit ▸ List.mem_append_left _ hopcode) hcode
      exact reset_not_mem_of_split hsplit hopcode
    · simp at hrefused
  refine ⟨h.adds fun entry hentry => (hmem entry hentry).2, ?_⟩
  rw [Bench.tracked_iff hbus] at htracked
  rw [Bench.tracked_iff hafter, Strays,
    h.resetOnFour_iff fun entry hentry => (hmem entry hentry).1, htracked, Chip.width, Chip.width,
    h.quad hsettled.awake]
  cases bench.chip.quad <;> cases bench.chip.keepsQuad wake enable reset <;> simp [hunsent]

/-- A chip that was found has not strayed, whatever comes after. -/
theorem Searched.not_strays (hsettled : bench.Settled id) (htracked : bench.Tracked)
    (hbus : bench.bus = some bus) (h : Searched id bench bus middle)
    (hheard : middle.chip.Hears .single) (hadds : middle.Adds quadRepertoire after) :
    ¬bench.Strays after := by
  obtain ⟨last, hlast⟩ := h.course.bus_eq
  rw [strays_of_adds h.course.adds hadds, ← h.course.tracked_iff hsettled htracked hbus,
    Bench.tracked_iff hlast, h.course.width_eq hsettled htracked hbus hlast]
  exact ((Chip.hears_iff h.sound.strict _).mp hheard).2

/-- The engine loses the width in bringing up exactly if the record says so. -/
theorem ends_bringUp_tracked (hsettled : bench.Settled id) (htracked : bench.Tracked) :
    engine.bringUp.Ends Bench.environment (fun _ after => after.Tracked ↔ ¬bench.Strands after)
      bench := by
  obtain ⟨bus, hbus, -⟩ := hsettled.free
  have hother : WinbondOpcode.setReadParameters.code ∉ wakeRepertoire := by decide
  refine (ends_bringUp hsettled.sound hbus).mono ?_
  rintro ended after (⟨identity, rfl, hup⟩ | ⟨fault, rfl, hdown⟩)
  · obtain ⟨middle, hsearched, hheard, hleads, hadds⟩ := hup.entered
    have hkept := hsearched.not_strays hsettled htracked hbus hheard hadds
    simp [Strands, hsearched.course.adds.sent_iff_or hadds,
      hsearched.course.adds.not_sent hother, hleads.not_sent, hkept, hup.tracked]
  · cases hdown with
    | stopped hstopped =>
        obtain ⟨hadds, hiff⟩ := hstopped.tracked_iff hsettled htracked hbus
        simp [Strands, hadds.not_sent hother, hiff]
    | searching hsearched _ =>
        simp [Strands, hsearched.course.adds.not_sent hother,
          hsearched.course.tracked_iff hsettled htracked hbus]
    | entering middle last hsearched hlast hheard hafter hhalted hadds _ _ =>
        obtain ⟨command, hstops, hquad⟩ := hhalted
        have hkept := hsearched.not_strays hsettled htracked hbus hheard hadds
        have hsingle := hsearched.course.width_eq hsettled htracked hbus hlast
        rw [Bench.tracked_iff hafter, hsingle, Strands,
          hsearched.course.adds.sent_iff_or hadds, hstops.sent_iff]
        unfold setsReadParameters at hquad
        rw [← hquad]
        cases hprotocol : after.chip.quad <;>
          simp [Chip.width, hprotocol, hsearched.course.adds.not_sent hother, hkept]

end Engine

end NorFlash
