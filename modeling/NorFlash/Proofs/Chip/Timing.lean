import NorFlash.Proofs.Chip.Calm
import NorFlash.Proofs.Chip.Heard

/-!
# Timing of quad reads

A chip accepts a quad read that leaves it just the cycles it expects between address and data: those
of the mode byte and the dummy cycles. The two counts are bytes and are added as such, which
overflows for some reads. `checkRead_eq_ok_iff` is what the rest of the theory knows of the check,
and `accepts_iff` says how a chip that hears it answers any quad read: which ones it accepts, which
ones it refuses and why, and on which ones the addition overflows.
-/

namespace NorFlash

namespace Command

variable {command : Command}

/-- The cycles of the read are more than a byte counts: a mode byte on one line with 248 dummy
cycles or more, or one on four lines with 254 or more. -/
def Overflows (command : Command) : Prop :=
  match command.mode with
  | some (_, .single) => 248 ≤ command.dummyCycles.toNat
  | some (_, .quad) => 254 ≤ command.dummyCycles.toNat
  | none => False

/-- A read overflows exactly if a byte does not count its cycles. -/
theorem overflows_iff : command.Overflows ↔ UInt8.size ≤ command.latency := by
  have hbound : command.dummyCycles.toNat < 256 := command.dummyCycles.toNat_lt
  unfold Overflows latency modeCycles
  cases command.mode with
  | none =>
      refine iff_of_false id (Nat.not_le.mpr ?_)
      show 0 + _ < 256
      omega
  | some mode =>
      obtain ⟨byte, _ | _⟩ := mode
      · show _ ↔ 256 ≤ 8 + _
        omega
      · show _ ↔ 256 ≤ 2 + _
        omega

/-- The cycles are as many as a byte says if their sum, formed in a byte, says so without an
overflow. -/
theorem latency_eq_iff (expected : UInt8) :
    command.latency = expected.toNat ↔
      command.latency < UInt8.size ∧ command.modeCycles + command.dummyCycles = expected := by
  have hexpected : expected.toNat < UInt8.size := expected.toNat_lt
  have hsum : (command.modeCycles + command.dummyCycles).toNat = command.latency % UInt8.size :=
    UInt8.toNat_add ..
  rw [← UInt8.toNat_inj, hsum]
  constructor
  · intro h
    rw [h]
    exact ⟨hexpected, Nat.mod_eq_of_lt hexpected⟩
  · rintro ⟨hlatency, h⟩
    rwa [Nat.mod_eq_of_lt hlatency] at h

end Command

/-- The command that a call has the chip judge: the one to carry out, or the one that reads of the
mapped window are to issue. -/
def BusCall.conveyed? : BusCall → Option Command
  | command sent | start sent | map sent => some sent
  | poll _ | abort => none

namespace Chip

variable {chip : Chip} {command : Command}

/-- Quad reads are enabled: on a Winbond chip by its quad enable bit, and on others always. -/
def QuadReadable (chip : Chip) : Prop :=
  chip.vendor = .winbond → chip.registers.status2.quadEnabled = true

/-- The chip expects just the cycles of the read. -/
def Expects (chip : Chip) (command : Command) : Prop :=
  chip.QuadReadable ∧ command.latency = chip.readDummyCycles.toNat

/-- What a chip expects, a byte counts. -/
theorem Expects.latency_lt (h : chip.Expects command) : command.latency < UInt8.size :=
  lt_of_eq_of_lt h.2 chip.readDummyCycles.toNat_lt

/-- A read is refused while quad reads are disabled, whatever its cycles. -/
theorem checkRead_of_not_quadReadable (h : ¬chip.QuadReadable) :
    chip.checkRead command = .error .quadDisabled := by
  rw [checkRead, if_pos]
  simpa [QuadReadable] using h

/-- Once quad reads are enabled, only the cycles count. -/
theorem checkRead_of_quadReadable (h : chip.QuadReadable) :
    chip.checkRead command =
      if UInt8.size ≤ command.latency then .error .cycleOverflow
      else if command.modeCycles + command.dummyCycles = chip.readDummyCycles then .ok ()
      else .error (.cycleMismatch command.modeCycles command.dummyCycles chip.readDummyCycles) := by
  rw [checkRead, if_neg]
  rintro ⟨hvendor, hdisabled⟩
  exact absurd (hdisabled.symm.trans (h hvendor)) Bool.false_ne_true

/-- The check overflows on a read whose cycles a byte does not count. -/
theorem checkRead_of_overflows (h : chip.QuadReadable) (hoverflows : command.Overflows) :
    chip.checkRead command = .error .cycleOverflow := by
  rw [checkRead_of_quadReadable h, if_pos (Command.overflows_iff.mp hoverflows)]

/-- The check has nothing against the cycles expected. -/
theorem checkRead_of_expects (h : chip.Expects command) : chip.checkRead command = .ok () := by
  obtain ⟨hfits, hcycles⟩ := (Command.latency_eq_iff _).mp h.2
  rw [checkRead_of_quadReadable h.1, if_neg (Nat.not_le.mpr hfits), if_pos hcycles]

/-- The check refuses cycles that a byte counts, but that are not those expected. -/
theorem checkRead_of_not_overflows (h : chip.QuadReadable) (hfits : ¬command.Overflows)
    (hcycles : command.latency ≠ chip.readDummyCycles.toNat) :
    chip.checkRead command =
      .error (.cycleMismatch command.modeCycles command.dummyCycles chip.readDummyCycles) := by
  rw [Command.overflows_iff] at hfits
  rw [checkRead_of_quadReadable h, if_neg hfits, if_neg]
  exact fun hsum => hcycles ((Command.latency_eq_iff _).mpr ⟨Nat.not_le.mp hfits, hsum⟩)

/-- The verdicts of the check, each with the reads that get it. -/
theorem checkRead_iff :
    (chip.checkRead command = .ok () ↔ chip.Expects command) ∧
      (chip.checkRead command = .error .quadDisabled ↔ ¬chip.QuadReadable) ∧
      (chip.checkRead command =
          .error (.cycleMismatch command.modeCycles command.dummyCycles chip.readDummyCycles) ↔
        chip.QuadReadable ∧ ¬command.Overflows ∧
          command.latency ≠ chip.readDummyCycles.toNat) ∧
      (chip.checkRead command = .error .cycleOverflow ↔
        chip.QuadReadable ∧ command.Overflows) := by
  by_cases hreadable : chip.QuadReadable
  · by_cases hoverflows : command.Overflows
    · have hunexpected : ¬chip.Expects command := fun hexpects =>
        absurd hexpects.latency_lt (Nat.not_lt.mpr (Command.overflows_iff.mp hoverflows))
      simp [checkRead_of_overflows hreadable hoverflows, hreadable, hoverflows, hunexpected]
    · by_cases hcycles : command.latency = chip.readDummyCycles.toNat
      · have hexpects : chip.Expects command := ⟨hreadable, hcycles⟩
        simp [checkRead_of_expects hexpects, hreadable, hoverflows, hexpects, hcycles]
      · have hunexpected : ¬chip.Expects command := fun hexpects => hcycles hexpects.2
        simp [checkRead_of_not_overflows hreadable hoverflows hcycles, hreadable, hoverflows,
          hunexpected, hcycles]
  · have hunexpected : ¬chip.Expects command := fun hexpects => hreadable hexpects.1
    simp [checkRead_of_not_quadReadable hreadable, hreadable, hunexpected]

/-- The check has nothing against a read exactly if the chip expects its cycles. -/
theorem checkRead_eq_ok_iff : chip.checkRead command = .ok () ↔ chip.Expects command :=
  checkRead_iff.1

/-- What is left of a reply once the data are dropped. -/
def verdict (reply : Reply) : Except BusFault Unit :=
  reply.map fun _ => ()

/-- A reply is a success if its verdict is. -/
theorem isOk_iff_verdict (reply : Reply) : reply.isOk = true ↔ verdict reply = .ok () := by
  cases reply <;> simp [verdict, Except.isOk, Except.toBool, Except.map]

/-- A reply is a fault if its verdict is that fault. -/
theorem eq_error_iff_verdict (reply : Reply) (fault : BusFault) :
    reply = .error fault ↔ verdict reply = .error fault := by
  cases reply <;> simp [verdict, Except.map]

/-- The verdict on a quad read is that of the check. -/
theorem verdict_readQuad (address : UInt32) :
    verdict (chip.readQuad command address) = chip.checkRead command := by
  unfold readQuad
  cases chip.checkRead command with
  | error cause => rfl
  | ok _ => cases command.data <;> rfl

/-- A quad read to carry out is answered by the check. -/
theorem verdict_execute (hcode : command.instruction = Opcode.fastReadQuad.code)
    (hhears : chip.Hears command.width) (hrefuses : chip.refuses = false) :
    verdict (chip.execute command).1 = chip.checkRead command := by
  have hdecode : Instruction.decode? chip.vendor command.instruction = some .readQuad := by
    rw [hcode]
    exact Instruction.decode?_of_shared (by decide) chip.vendor
  rw [execute_eq, hrefuses, if_neg Bool.false_ne_true, accept_of_decode hhears hdecode]
  -- What the chip notes down before it obeys does not matter to the check.
  refine (verdict_readQuad _).trans ?_
  exact checkRead_of_mode rfl command

/-- A chip that hears a mapping call judges the reads that the mapped window is to issue. -/
theorem verdict_map (hhears : chip.Hears command.width) (hrefuses : chip.refuses = false) :
    verdict (chip.map command).1 = chip.checkRead command := by
  have hawake : (chip.asleep || !chip.listens command.width) = false := by
    simp [hhears.1, hhears.2]
  rw [map_eq hrefuses, hawake, if_neg Bool.false_ne_true]
  cases chip.checkRead command <;> rfl

/-- However a quad read reaches a chip that hears it, the chip judges it. -/
theorem verdict_conveyed (request : BusCall) (hconveyed : request.conveyed? = some command)
    (hcode : command.instruction = Opcode.fastReadQuad.code) (hhears : chip.Hears command.width)
    (hrefuses : chip.refuses = false) :
    verdict (chip.answer request).1.reply = chip.checkRead command := by
  cases request with
  | command sent | start sent =>
      cases hconveyed
      exact verdict_execute hcode hhears hrefuses
  | map sent =>
      cases hconveyed
      exact verdict_map hhears hrefuses
  | poll _ | abort => cases hconveyed

/-- However a quad read reaches a chip that hears it, it is accepted exactly if the chip expects its
cycles. Any other read is refused, because quad reads are not enabled or because its cycles are not
those expected, unless they are more than a byte counts: then adding them overflows. -/
theorem accepts_iff (request : BusCall) (hconveyed : request.conveyed? = some command)
    (hcode : command.instruction = Opcode.fastReadQuad.code) (hhears : chip.Hears command.width)
    (hrefuses : chip.refuses = false) :
    let reply := (chip.answer request).1.reply
    (reply.isOk = true ↔ chip.Expects command) ∧
      (reply = .error .quadDisabled ↔ ¬chip.QuadReadable) ∧
      (reply =
          .error (.cycleMismatch command.modeCycles command.dummyCycles chip.readDummyCycles) ↔
        chip.QuadReadable ∧ ¬command.Overflows ∧
          command.latency ≠ chip.readDummyCycles.toNat) ∧
      (reply = .error .cycleOverflow ↔ chip.QuadReadable ∧ command.Overflows) := by
  intro reply
  have hverdict : verdict reply = chip.checkRead command :=
    verdict_conveyed request hconveyed hcode hhears hrefuses
  simp only [isOk_iff_verdict, eq_error_iff_verdict, hverdict]
  exact checkRead_iff

/-- A mode byte on one line and 254 dummy cycles are 262 cycles. A chip that expects 6 does not
refuse them, as it refuses 255 cycles: adding them overflows. -/
theorem accepts_iff_overflowing :
    let chip := Chip.fresh ⟨0xC2, 0x200C⟩
    let command (dummyCycles : UInt8) : Command :=
      ⟨0xEB, .single, some (0, .quad), some (0, .single), dummyCycles, .read 1, .quad⟩
    chip.readDummyCycles = 6 ∧ (command 254).latency = 262 ∧ (command 247).latency = 255 ∧
      (chip.answer (.command (command 254))).1.reply = .error .cycleOverflow ∧
      (chip.answer (.command (command 247))).1.reply = .error (.cycleMismatch 8 247 6) := by
  intro chip command
  have hhears : chip.Hears .single := ⟨rfl, rfl⟩
  obtain ⟨-, -, -, hoverflows⟩ := accepts_iff (.command (command 254)) rfl rfl hhears rfl
  obtain ⟨-, -, hmismatch, -⟩ := accepts_iff (.command (command 247)) rfl rfl hhears rfl
  refine ⟨rfl, rfl, rfl, hoverflows.mpr ⟨nofun, ?_⟩, hmismatch.mpr ⟨nofun, ?_, ?_⟩⟩
  · show 248 ≤ 254
    decide
  · show ¬248 ≤ 247
    decide
  · show 255 ≠ 6
    decide

end Chip

end NorFlash
