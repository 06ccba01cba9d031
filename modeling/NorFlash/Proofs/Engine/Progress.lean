import NorFlash.Proofs.Engine.Erasing
import NorFlash.Proofs.Engine.Interruption
import NorFlash.Proofs.Page

/-!
# Progress reports are honest

A write programs its data page by page and an erase of a range clears it unit by unit, and both
report what is done after each step. `reports_are_honest` says what the last report means when such
an operation fails midway: what it counts was done, the next page or unit was done as a whole or not
at all, and nothing else was changed. It does not matter when calls fail, before or after the chip
has acted, which completions are lost, or whether the chip hears the engine. What a chip comes with
is one such pattern of failures (`Bench.run_upsetting_own`).

Both operations are runs of steps with a report after each, `Action.stepwise`, and
`ends_stepwise_upsetting` is the induction along such a run.
-/

namespace NorFlash

variable {ι : Type} {settings : Nat → Chip → FailurePlan × CompletionMode}

/-! ## Reports -/

/-- Reports that begin with 0, rise, and end with a count. -/
structure Progress (given : List Nat) (last : Nat) : Prop where
  first : given.head? = some 0
  rising : given.IsChain (· < ·)
  last : given.getLast? = some last

/-- The report at the start is of nothing done. -/
theorem Progress.start : Progress [0] 0 :=
  ⟨rfl, .singleton 0, rfl⟩

/-- A further report goes on where it tells of more than the last. -/
theorem Progress.concat {given : List Nat} {last next : Nat} (h : Progress given last)
    (hnext : last < next) : Progress (given ++ [next]) next where
  first := by simp [h.first]
  rising := by
    refine List.isChain_append.mpr ⟨h.rising, .singleton next, ?_⟩
    intro count hcount after hafter
    obtain rfl : last = count := Option.some.inj (h.last.symm.trans hcount)
    obtain rfl : next = after := Option.some.inj hafter
    exact hnext
  last := by simp

/-- An operation that began on the first bench has reported progress up to a count on the second. -/
def Bench.Reported (start : Bench) (last : Nat) (bench : Bench) : Prop :=
  ∃ given, bench.reports.toList = start.reports.toList ++ given ∧ Progress given last

namespace Bench.Reported

variable {start bench after : Bench} {last next : Nat}

/-- An action that opens with a report of nothing has begun its reports. -/
theorem begun (hreports : after.reports = start.reports.push 0) : start.Reported 0 after :=
  ⟨[0], by simp [hreports], .start⟩

/-- What has been reported does not change while nothing is reported. -/
theorem congr (h : start.Reported last bench) (hreports : after.reports = bench.reports) :
    start.Reported last after := by
  obtain ⟨given, hgiven, hprogress⟩ := h
  exact ⟨given, hreports ▸ hgiven, hprogress⟩

/-- A report of more than the last goes on with the reports. -/
theorem push (h : start.Reported last bench) (hnext : last < next)
    (hreports : after.reports = bench.reports.push next) : start.Reported next after := by
  obtain ⟨given, hgiven, hprogress⟩ := h
  exact ⟨given ++ [next], by simp [hreports, hgiven], hprogress.concat hnext⟩

/-- What was reported last is the last of what was given. -/
theorem last_eq (h : start.Reported last bench) (given : List Nat)
    (hreports : bench.reports.toList = start.reports.toList ++ given)
    (hlast : given.getLast? = some next) : last = next := by
  obtain ⟨other, hother, hprogress⟩ := h
  obtain rfl : other = given := List.append_cancel_left (hother.symm.trans hreports)
  exact Option.some.inj (hprogress.last.symm.trans hlast)

end Bench.Reported

/-- What the last report of an operation tells: all of it was done if the operation succeeds, and
how far it got if it fails. -/
structure Honest (total : Nat) (whole : Memory → Prop) (halted : Nat → Memory → Prop)
    (start : Bench) (outcome : Outcome) (after : Bench) : Prop where
  done : outcome.result.isOk = true → start.Reported total after ∧ whole after.chip.memory
  halted : outcome.result.isOk = false →
    ∃ last, start.Reported last after ∧ halted last after.chip.memory

/-- An action that ends so whether it succeeds or fails reports honestly. -/
theorem ends_honest {action : Action Unit} {total : Nat} {whole : Memory → Prop}
    {halted : Nat → Memory → Prop} {start : Bench} {state : Bench × Nat}
    (h : action.Ends (Bench.upsetting settings)
      (fun _ after => start.Reported total after.1 ∧ whole after.1.chip.memory)
      (fun _ after => ∃ last, start.Reported last after.1 ∧ halted last after.1.chip.memory)
      state) :
    (Outcome.ofUnit <$> action.run).Ends (Bench.upsetting settings)
      (fun outcome after => Honest total whole halted start outcome after.1) state :=
  (Action.ends_ofUnit h).mono fun _ _ hafter => ⟨hafter.1, hafter.2⟩

/-! ## Steps with a report after each -/

/-- A report is added to the others, on a chip upset once more. -/
theorem Action.ends_report_upsetting {count reported : Nat} {bench : Bench}
    {ok : Unit → Bench × Nat → Prop} {bad : Fault → Bench × Nat → Prop} :
    (Action.report reported).Ends (Bench.upsetting settings) ok bad (bench, count) ↔
      ok () ((bench.upset (settings count)).withReports (bench.reports.push reported), count + 1) :=
  Iff.rfl

/-- Makes a step for each item, and reports what is done after each, `total` being done before. -/
def Action.stepwise (step : ι → Action Unit) (size : ι → Nat) : List ι → (total : Nat) → Action Unit
  | [], _ => return ()
  | item :: rest, total => do
      step item
      Action.report (total + size item)
      stepwise step size rest (total + size item)

namespace Engine

variable {engine : Engine}

/-- The pieces of a write are such steps. -/
theorem forM_programPiece (engine : Engine) {start address : Nat} (bytes : Bytes)
    (h : start ≤ address) :
    (Page.cut address bytes).forM (engine.programPiece start) =
      Action.stepwise (fun piece => engine.pageProgram (UInt32.ofNat piece.address) piece.bytes)
        (fun piece => piece.bytes.length) (Page.cut address bytes) (address - start) := by
  fun_induction Page.cut address bytes with
  | case1 => rfl
  | case2 address bytes hbytes ih =>
      have hdone : address - start + (bytes.take (Page.room address)).length =
          if Page.room address < bytes.length then address + Page.room address - start
          else address - start + bytes.length := by
        rw [List.length_take]
        split <;> omega
      unfold Action.stepwise
      show (engine.programPiece start _ >>= fun _ => _) = _
      unfold programPiece
      rw [bind_assoc, hdone]
      split
      · rw [← ih (by omega)]
        rfl
      · rw [List.drop_eq_nil_of_le (by omega), Page.cut_nil]
        rfl

/-- The erases of a plan are such steps. -/
theorem erasePlanned_eq (engine : Engine) (plan : ErasePlan) (total : Nat) :
    engine.erasePlanned plan total =
      Action.stepwise (fun planned => engine.erase planned.base (.unit planned.unit))
        (fun planned => planned.unit.size) plan total := by
  induction plan generalizing total with
  | nil => rfl
  | cons planned rest ih =>
      unfold erasePlanned Action.stepwise
      rw [ih]

end Engine

/-- A run of steps was halted: what is done was reported, and the next step was made as a whole or
not at all. -/
structure HaltedAt (held : List ι → Memory → Prop) (total : List ι → Nat) (items done : List ι)
    (next : ι) (start after : Bench) : Prop where
  splits : ∃ rest, items = done ++ next :: rest
  reported : start.Reported (total done) after
  undecided : held done after.chip.memory ∨ held (done ++ [next]) after.chip.memory

section Stepwise

variable {step : ι → Action Unit} {size : ι → Nat} {change : ι → Memory → Memory}
  {held : List ι → Memory → Prop} {total : List ι → Nat} {items : List ι} {start : Bench}
  (hstep : ∀ item (bench : Bench) count, (¬bench.Reaches → bench.Truthful) →
    (step item).Ends (Bench.upsetting settings)
      (fun _ after => bench.Changed (change item) after.1)
      (fun _ after => bench.Undecided (change item) after.1) (bench, count))
  (hheld : ∀ done item rest memory, items = done ++ item :: rest → held done memory →
    held (done ++ [item]) (change item memory))
  (htotal : ∀ done item, total (done ++ [item]) = total done + size item)
  (hsize : ∀ item ∈ items, 0 < size item)

include hstep hheld htotal hsize

/-- However failures come and go, steps that change the memory as a whole or not at all are made
one after the other, and what was done is reported. -/
theorem ends_stepwise_upsetting {done rest : List ι} (hitems : items = done ++ rest) {bench : Bench}
    (count : Nat) (htruthful : ¬bench.Reaches → bench.Truthful)
    (hdone : held done bench.chip.memory)
    (hreported : start.Reported (total done) bench) :
    (Action.stepwise step size rest (total done)).Ends (Bench.upsetting settings)
      (fun _ after => held items after.1.chip.memory ∧ start.Reported (total items) after.1)
      (fun _ after => ∃ done next, HaltedAt held total items done next start after.1)
      (bench, count) := by
  induction rest generalizing done bench count with
  | nil =>
      obtain rfl : items = done := by simpa using hitems
      exact ⟨hdone, hreported⟩
  | cons item rest ih =>
      have hmade := hheld done item rest _ hitems hdone
      unfold Action.stepwise
      rw [Action.ends_bind]
      refine (hstep item bench count htruthful).mono ?_ ?_
      · rintro _ ⟨after, counted⟩ hafter
        have hlast := hreported.congr hafter.reports
        have hnext : total done < total done + size item :=
          Nat.lt_add_of_pos_right (hsize item (by simp [hitems]))
        rw [Action.ends_bind, Action.ends_report_upsetting, ← htotal]
        refine ih (hitems.trans (by simp)) _ (fun hunreached => absurd hafter.reaches hunreached)
          ?_ (hlast.push (htotal done item ▸ hnext) rfl)
        exact hafter.memory.symm ▸ hmade
      · rintro fault after (hkept | hchanged)
        · exact ⟨done, item, ⟨rest, hitems⟩, hreported.congr hkept.reports,
            .inl (hkept.memory.symm ▸ hdone)⟩
        · exact ⟨done, item, ⟨rest, hitems⟩, hreported.congr hchanged.reports,
            .inr (hchanged.memory.symm ▸ hmade)⟩

variable (total) in
/-- The steps from the first on, after a report that nothing is done. -/
theorem ends_steps_upsetting (hzero : total [] = 0) (htruthful : start.Truthful)
    (hnone : held [] start.chip.memory) (count : Nat) :
    (do Action.report 0; Action.stepwise step size items 0 : Action Unit).Ends
      (Bench.upsetting settings)
      (fun _ after => held items after.1.chip.memory ∧ start.Reported (total items) after.1)
      (fun _ after => ∃ done next, HaltedAt held total items done next start after.1)
      (start, count) := by
  rw [Action.ends_bind, Action.ends_report_upsetting]
  have hbegun : start.Reported (total []) ((start.upset (settings count)).withReports
      (start.reports.push 0)) := by
    rw [hzero]
    exact .begun rfl
  have hstill : ((start.upset (settings count)).withReports (start.reports.push 0)).Truthful :=
    htruthful.congr rfl rfl rfl
  have hsteps := ends_stepwise_upsetting hstep hheld htotal hsize (List.nil_append items).symm
    (count + 1) (fun _ => hstill) hnone hbegun
  rwa [hzero] at hsteps

end Stepwise

/-! ## Writes -/

/-- The data of pieces is programmed from an address on, and nothing else was changed. -/
def Programmed (address : Nat) (before : Memory) (done : List PagePiece) (after : Memory) : Prop :=
  Memory.Masked address (done.flatMap fun piece => piece.bytes) before after

/-- A write has left off: some of the data is programmed from its beginning on, then the next piece
as a whole or not at all, and nothing else was changed. -/
def WriteHalted (address : Nat) (bytes : Bytes) (last : Nat) (before after : Memory) : Prop :=
  ∃ piece ∈ Page.cut address bytes, piece.address = address + last ∧
    (Memory.Masked address (bytes.take last) before after ∨
      Memory.Masked address (bytes.take (last + piece.bytes.length)) before after)

section Pieces

variable {address : Nat} {bytes : Bytes} {done rest : List PagePiece} {piece : PagePiece}
  {before memory : Memory}

/-- The pieces of data that come first are what comes first of it. -/
theorem Page.flatMap_eq_take (h : Page.cut address bytes = done ++ rest) :
    (done.flatMap fun piece => piece.bytes) =
      bytes.take (done.flatMap fun piece => piece.bytes).length := by
  have hjoined := Page.flatMap_cut address bytes
  rw [h, List.flatMap_append] at hjoined
  rw [← hjoined, List.take_left]

/-- The next piece is programmed after those before it. -/
theorem Programmed.concat (h : Programmed address before done memory)
    (hpieces : Page.cut address bytes = done ++ piece :: rest)
    (hrange : address + bytes.length ≤ before.size) (hsize : before.size ≤ addressable 24) :
    Programmed address before (done ++ [piece])
      (memory.program (UInt32.ofNat piece.address).toNat piece.bytes).memory := by
  have hmem : piece ∈ Page.cut address bytes := by simp [hpieces]
  have hwithin := Page.within_of_mem_cut piece hmem
  have hlast := Nat.le_trans hwithin.last hrange
  have haddress : (UInt32.ofNat piece.address).toNat = piece.address :=
    Catalog.toNat_ofNat_of_le (by omega)
  have hfirst := Page.address_of_cut_eq hpieces
  have hpiece := memory.masked_program hwithin.page (h.size.symm ▸ hlast)
  unfold Programmed
  rw [haddress, List.flatMap_append, List.flatMap_singleton]
  rw [hfirst] at hpiece hlast ⊢
  exact h.append hpiece hlast

/-- A write whose pieces were halted has left off. -/
theorem WriteHalted.of_haltedAt {start after : Bench}
    (h : HaltedAt (Programmed address before)
      (fun done => (done.flatMap fun piece => piece.bytes).length) (Page.cut address bytes) done
      piece start after) :
    WriteHalted address bytes (done.flatMap fun piece => piece.bytes).length before
      after.chip.memory := by
  obtain ⟨⟨rest, hpieces⟩, -, hundecided⟩ := h
  have hdone := Page.flatMap_eq_take hpieces
  have hmade := Page.flatMap_eq_take (show Page.cut address bytes = (done ++ [piece]) ++ rest by
    simp [hpieces])
  refine ⟨piece, by simp [hpieces], Page.address_of_cut_eq hpieces, ?_⟩
  unfold Programmed at hundecided
  rwa [hdone, hmade, List.flatMap_append, List.flatMap_singleton, List.length_append] at hundecided

end Pieces

/-! ## Erases of a range -/

/-- An erase of a range has left off: the first units of the plan are cleared, then the next one as
a whole or not at all, and nothing else was changed. -/
def EraseHalted (plan : ErasePlan) (last : Nat) (before after : Memory) : Prop :=
  ∃ done next rest, plan = done ++ next :: rest ∧ ErasePlan.totalSize done = last ∧
    (Memory.Cleared (ErasePlan.Clears done) before after ∨
      Memory.Cleared (ErasePlan.Clears (done ++ [next])) before after)

/-- A plan with one more erase is longer by its unit. -/
theorem ErasePlan.totalSize_concat (plan : ErasePlan) (planned : PlannedErase) :
    ErasePlan.totalSize (plan ++ [planned]) = plan.totalSize + planned.unit.size := by
  rw [ErasePlan.totalSize, List.foldl_append]
  rfl

/-- The next unit is cleared after those before it. -/
theorem ErasePlan.cleared_concat {done : ErasePlan} {planned : PlannedErase}
    {before memory : Memory}
    (h : Memory.Cleared (ErasePlan.Clears done) before memory)
    (hfits : planned.Fits before.size) :
    Memory.Cleared (ErasePlan.Clears (done ++ [planned])) before
      ((EraseKind.unit planned.unit).clear planned.base.toNat memory) := by
  have hunit := EraseKind.clears_planned hfits.aligned
  have hinside : planned.base.toNat < memory.size := by
    have hpositive := planned.unit.size_pos
    have hlast := hfits.inside
    rw [h.size]
    omega
  have hcleared : Memory.Cleared planned.Clears memory _ :=
    hunit ▸ (EraseKind.unit planned.unit).cleared_clear fun _ => hinside
  exact h.trans hcleared fun place => by simp [ErasePlan.Clears, or_and_right, exists_or]

namespace Engine

variable {engine : Engine} {identity : Identity} {bench : Bench} {address : UInt32} {count : Nat}

section Identified

variable (h : engine.Identified identity bench) (htruthful : bench.Truthful)

include h htruthful

/-- However failures come and go, a write programs its data piece by piece and reports it. -/
theorem ends_writeReporting_upsetting {bytes : Bytes} (hbytes : bytes ≠ [])
    (hrange : address.toNat + bytes.length ≤ identity.device.capacity) :
    (engine.writeReporting address bytes).Ends (Bench.upsetting settings)
      (fun _ after => bench.Reported bytes.length after.1 ∧
        Memory.Masked address.toNat bytes bench.chip.memory after.1.chip.memory)
      (fun _ after => ∃ last, bench.Reported last after.1 ∧
        WriteHalted address.toNat bytes last bench.chip.memory after.1.chip.memory)
      (bench, count) := by
  have hdevice := requireDevice_of_identity h.identity_eq
  have hsize := hrange
  rw [← h.size_eq] at hsize
  have hprograms (done : List PagePiece) (piece : PagePiece) (rest : List PagePiece)
      (memory : Memory) (hpieces : Page.cut address.toNat bytes = done ++ piece :: rest)
      (hdone : Programmed address.toNat bench.chip.memory done memory) :=
    hdone.concat hpieces hsize h.size_le
  have hjoins (done : List PagePiece) (piece : PagePiece) :
      ((done ++ [piece]).flatMap fun piece => piece.bytes).length =
        (done.flatMap fun piece => piece.bytes).length + piece.bytes.length := by
    simp
  have hpositive (piece : PagePiece) (hpiece : piece ∈ Page.cut address.toNat bytes) :
      0 < piece.bytes.length :=
    List.length_pos_iff.mpr (Page.bytes_ne_nil_of_mem_cut piece hpiece)
  obtain ⟨-, hcheck⟩ | ⟨hoverrun, -⟩ := checkRange_of_identity h.identity_eq address bytes.length
  · unfold writeReporting
    rw [hdevice, hcheck, Action.ends_bind, Action.ends_discard, Action.ends_ofExcept]
    show Action.Ends _ (if _ then _ else _) _ _ _
    rw [if_neg hbytes, Action.ends_bind, Action.ends_ofExcept,
      forM_programPiece engine bytes le_rfl, Nat.sub_self]
    refine (ends_steps_upsetting (fun done => (done.flatMap fun piece => piece.bytes).length)
      (fun piece _ _ hreaches => ends_pageProgram_upsetting hreaches hdevice
        (UInt32.ofNat piece.address) piece.bytes)
      hprograms hjoins hpositive rfl htruthful (Memory.masked_nil ..) count).mono ?_ ?_
    · rintro _ after ⟨hprogrammed, hreported⟩
      unfold Programmed at hprogrammed
      rw [Page.flatMap_cut] at hprogrammed hreported
      exact ⟨hreported, hprogrammed⟩
    · rintro fault after ⟨done, next, hhalted⟩
      exact ⟨_, hhalted.reported, .of_haltedAt hhalted⟩
  · exact absurd hrange hoverrun

/-- However failures come and go, an erase of a range clears its plan unit by unit and reports
it. -/
theorem ends_eraseRangeReporting_upsetting {length : Nat} (hlength : length ≠ 0)
    (hrange : address.toNat + length ≤ identity.device.capacity) :
    let plan := erasePlan address length
    (engine.eraseRangeReporting address length).Ends (Bench.upsetting settings)
      (fun _ after => bench.Reported plan.totalSize after.1 ∧
        Memory.Cleared plan.Clears bench.chip.memory after.1.chip.memory)
      (fun _ after => ∃ last, bench.Reported last after.1 ∧
        EraseHalted plan last bench.chip.memory after.1.chip.memory)
      (bench, count) := by
  intro plan
  have hdevice := requireDevice_of_identity h.identity_eq
  have hsize := hrange
  rw [← h.size_eq] at hsize
  have hfits : ∀ planned ∈ plan, planned.Fits bench.chip.memory.size :=
    ErasePlan.fits_covering (by simp [EraseUnit.all]) (Nat.le_trans hsize h.size_le_addresses)
      hsize h.size_dvd address.toNat
  have hclears (done : ErasePlan) (planned : PlannedErase) (rest : ErasePlan) (memory : Memory)
      (hplan : plan = done ++ planned :: rest)
      (hdone : Memory.Cleared done.Clears bench.chip.memory memory) :=
    ErasePlan.cleared_concat hdone (hfits planned (by simp [hplan]))
  have hnone : Memory.Cleared (ErasePlan.Clears []) bench.chip.memory bench.chip.memory :=
    Memory.cleared_nothing _ fun place => by simp [ErasePlan.Clears]
  obtain ⟨-, hcheck⟩ | ⟨hoverrun, -⟩ := checkRange_of_identity h.identity_eq address length
  · unfold eraseRangeReporting
    rw [hdevice, hcheck, Action.ends_bind, Action.ends_discard, Action.ends_ofExcept]
    show Action.Ends _ (if _ then _ else _) _ _ _
    rw [if_neg hlength, Action.ends_bind, Action.ends_ofExcept, erasePlanned_eq]
    refine (ends_steps_upsetting ErasePlan.totalSize
      (fun planned _ _ hreaches => ends_erase_upsetting hreaches hdevice planned.base
        (.unit planned.unit))
      hclears ErasePlan.totalSize_concat (fun planned _ => planned.unit.size_pos) rfl htruthful
      hnone count).mono ?_ ?_
    · exact fun _ _ hafter => hafter.symm
    · rintro fault after ⟨done, next, ⟨rest, hplan⟩, hreported, hundecided⟩
      exact ⟨_, hreported, done, next, rest, hplan, rfl, hundecided⟩
  · exact absurd hrange hoverrun

/-- However failures come and go, the last report of a write or of an erase of a range tells what
was done: all of it if the operation succeeds, and if it fails, then the next page or unit was done
as a whole or not at all. -/
theorem reports_are_honest :
    (∀ (address : UInt32) (bytes : Bytes), bytes ≠ [] →
      address.toNat + bytes.length ≤ identity.device.capacity →
        (engine.perform (.writeReporting address bytes)).Ends (Bench.upsetting settings)
          (fun outcome after => Honest bytes.length
            (Memory.Masked address.toNat bytes bench.chip.memory)
            (fun last => WriteHalted address.toNat bytes last bench.chip.memory)
            bench outcome after.1)
          (bench, count)) ∧
    ∀ (address : UInt32) (length : Nat), length ≠ 0 →
      address.toNat + length ≤ identity.device.capacity →
        (engine.perform (.eraseRangeReporting address length)).Ends (Bench.upsetting settings)
          (fun outcome after => Honest (erasePlan address length).totalSize
            (Memory.Cleared (erasePlan address length).Clears bench.chip.memory)
            (fun last => EraseHalted (erasePlan address length) last bench.chip.memory)
            bench outcome after.1)
          (bench, count) :=
  ⟨fun _ _ hbytes hrange =>
      ends_honest (ends_writeReporting_upsetting h htruthful hbytes hrange),
    fun _ _ hlength hrange =>
      ends_honest (ends_eraseRangeReporting_upsetting h htruthful hlength hrange)⟩

end Identified

/-- A write of two pages over bytes that are not erased, of which the second is programmed but not
reported complete, and an erase of two units, of which the second is refused. -/
theorem reports_are_honest_midway :
    let identity : Identity :=
      ⟨Catalog.winbond, ⟨0x4015, "W25Q16DV", 4096, false, 8, some .quad⟩⟩
    let engine := Engine.mk .standard (some identity)
    let chip := { (Chip.fresh ⟨0xEF, 0x4015⟩).overwrite 0x1FE [0xF0, 0x0F, 0x33] with quad := true }
    let bench := { Bench.ofChip chip with bus := some ⟨.quad, false⟩ }
    let silent (count : Nat) (_ : Chip) : FailurePlan × CompletionMode :=
      (.none, if count < 14 then .immediate else .never)
    let refusing (count : Nat) (_ : Chip) : FailurePlan × CompletionMode :=
      (⟨0, if count < 10 then 0 else 1⟩, .immediate)
    let written := (engine.perform (.writeReporting 0x1FE [0x3C, 0x3C, 0x3C])).run
      (Bench.upsetting silent) (bench, 0)
    let erased := (engine.perform (.eraseRangeReporting 0x8000 0x9000)).run
      (Bench.upsetting refusing) (bench, 0)
    (written.1.result.isOk = false ∧ written.2.1.reports = #[0, 2] ∧
      WriteHalted 0x1FE [0x3C, 0x3C, 0x3C] 2 chip.memory written.2.1.chip.memory) ∧
    (erased.1.result.isOk = false ∧ erased.2.1.reports = #[0, 0x8000] ∧
      EraseHalted (erasePlan 0x8000 0x9000) 0x8000 chip.memory erased.2.1.chip.memory) := by
  intro identity engine chip bench silent refusing written erased
  have hidentified : engine.Identified identity bench := ⟨rfl, rfl, rfl⟩
  have htruthful : bench.Truthful := ⟨⟨rfl, by decide⟩, ⟨rfl, by decide⟩⟩
  have hwritten : (engine.perform (.writeReporting 0x1FE [0x3C, 0x3C, 0x3C])).Ends
      (Bench.upsetting silent) _ (bench, 0) :=
    (reports_are_honest hidentified htruthful).1 _ _ (by decide) (by decide)
  have herased : (engine.perform (.eraseRangeReporting 0x8000 0x9000)).Ends
      (Bench.upsetting refusing) _ (bench, 0) :=
    (reports_are_honest hidentified htruthful).2 _ _ (by decide) (by decide)
  have hwrittenReports : written.2.1.reports = #[0, 2] := by decide +kernel
  have herasedReports : erased.2.1.reports = #[0, 0x8000] := by decide +kernel
  have hwrittenFails : written.1.result.isOk = false := by decide +kernel
  have herasedFails : erased.1.result.isOk = false := by decide +kernel
  obtain ⟨last, hreported, hhalted⟩ := hwritten.halted hwrittenFails
  obtain ⟨cleared, hcleared, hspared⟩ := herased.halted herasedFails
  obtain rfl := hreported.last_eq [0, 2] (congrArg Array.toList hwrittenReports) rfl
  obtain rfl := hcleared.last_eq [0, 0x8000] (congrArg Array.toList herasedReports) rfl
  exact ⟨⟨hwrittenFails, hwrittenReports, hhalted⟩, herasedFails, herasedReports, hspared⟩

end Engine

end NorFlash
