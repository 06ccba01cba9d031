import NorFlash.Proofs.Engine.Dividing
import NorFlash.Proofs.Engine.Sources

/-!
# Variants of one operation

Reads and erases of a range come in variants: a plain one, one that reports progress to its caller,
and one that shows it on a meter. `read_variants` and `eraseRange_variants` compare them on a bench.
A read in many transfers comes to what a read in one does, as long as the chip is responsive, and
paces its reports. The metered erase differs from the others for one kind of range: an empty one
that begins beyond the device, which it rejects and they do not.
-/

namespace NorFlash

variable {α β : Type}

/-- Reports are dropped whether the value is changed or not. -/
theorem Program.silenced_map (change : α → β) (program : Program α) :
    (change <$> program).silenced = change <$> program.silenced := by
  rw [map_eq_pure_bind, map_eq_pure_bind]
  show (program.bind _).silenced = program.silenced.bind _
  induction program <;> simp_all [bind, silenced, pure, -Bool.forall_bool]

/-- On a bench a program without its reports ends as the program does, with the reports there were
before. -/
theorem Program.run_silenced_self (program : Program α) (bench : Bench) :
    program.silenced.run Bench.environment bench =
      ((program.run Bench.environment bench).1,
        (program.run Bench.environment bench).2.withReports bench.reports) :=
  program.run_silenced bench bench.reports

/-- The progress that an interaction reports. -/
def Interaction.reported? : Interaction → Option Nat
  | report count => some count
  | _ => none

/-- A mark tells the progress its interaction reports. -/
theorem Mark.reported?_of (interaction : Interaction) :
    interaction.reported? = (of? interaction).bind reported? := by
  cases interaction with
  | call request reply =>
      show none = (request.fetched?.map fetched).bind reported?
      cases request.fetched? <;> rfl
  | _ => rfl

/-- A run on a bench adds what it reports to the reports there were before. -/
theorem Program.reports_run (program : Program α) (bench : Bench) :
    (program.run Bench.environment bench).2.reports.toList =
      bench.reports.toList ++
        (program.dialogue Bench.environment bench).filterMap Interaction.reported? := by
  induction program generalizing bench with
  | done value => exact (List.append_nil _).symm
  | acquire patience next ih => exact ih bench.bus { bench with bus := none }
  | release bus next ih => exact ih { bench with bus := some bus }
  | arm next ih => exact ih bench.arm
  | await patience next ih =>
      have hrest := ih (bench.await patience).1 (bench.await patience).2
      rwa [Bench.reports_await] at hrest
  | call request next ih =>
      have hrest := ih (bench.call request).1 (bench.call request).2
      rwa [Bench.reports_call] at hrest
  | report count next ih =>
      have hrest := ih { bench with reports := bench.reports.push count }
      rw [Array.toList_push, List.append_assoc] at hrest
      exact hrest

namespace Engine

variable {engine : Engine} {device : Descriptor} {address : UInt32} {length : Nat} {fault : Fault}

/-! ## Reads -/

/-- What an action gives is what its outcome is made of. -/
theorem run_of_gives {action : Action Bytes} {result : Except Fault Bytes} {bench : Bench}
    {last : Footing} (h : action.Gives bench.footing result last) :
    ((Outcome.ofValue .bytes <$> action.run).run Bench.environment bench).1 =
        Outcome.ofValue .bytes result ∧
      ((Outcome.ofValue .bytes <$> action.run).run Bench.environment bench).2.footing = last := by
  obtain ⟨hresult, hlast⟩ := h.run rfl
  rw [map_eq_pure_bind, Program.run_bind, hresult]
  exact ⟨rfl, hlast⟩

/-- The reports of a divided read that succeeds count from nothing to the whole range. -/
theorem paced_readReporting (engine : Engine) (bench : Bench) (address : UInt32) (length : Nat) :
    let divided := (engine.perform (.readReporting address length)).run Bench.environment bench
    divided.1.result.isOk = true →
      ∃ counts, divided.2.reports.toList = bench.reports.toList ++ counts ∧
        Paced (transferSize length) length counts := by
  intro divided hok
  let program := engine.perform (.readReporting address length)
  refine ⟨_, program.reports_run bench, ?_⟩
  have hmarks : (program.dialogue Bench.environment bench).filterMap Mark.of? =
      readMarks address length :=
    ((makes_perform engine address length).run Bench.environment bench).2 hok
  have hcounts : (program.dialogue Bench.environment bench).filterMap Interaction.reported? =
      (readMarks address length).filterMap Mark.reported? := by
    rw [← hmarks, List.filterMap_filterMap]
    exact congrArg (List.filterMap · _) (funext Mark.reported?_of)
  rw [hcounts, reported_readMarks]
  exact paced_spans length (transferSize_pos length)

/-- On a responsive bench, whatever is mapped, asleep or held there, the variants of a read end with
the same bytes or the same fault, leave the same bus and a chip that differs in its records only,
and change neither memory nor mode. If the divided one succeeds, its reports begin with nothing and
end with the whole range, and never fall back, go beyond it or rise by more than a part. -/
theorem read_variants (engine : Engine) (bench : Bench) (address : UInt32) (length : Nat)
    (hresponsive : bench.chip.Responsive) :
    let plain := (engine.perform (.read address length)).run Bench.environment bench
    let divided := (engine.perform (.readReporting address length)).run Bench.environment bench
    let metered := (engine.perform (.readMetered address length)).run Bench.environment bench
    (∀ ended ∈ [plain, divided, metered],
      ended.1 = plain.1 ∧ ended.2.footing = plain.2.footing ∧
        ended.2.chip.memory = bench.chip.memory ∧ ended.2.chip.mode = bench.chip.mode) ∧
      (divided.1.result.isOk = true →
        ∃ counts, divided.2.reports.toList = bench.reports.toList ++ counts ∧
          Paced (transferSize length) length counts) := by
  intro plain divided metered
  refine ⟨?_, paced_readReporting engine bench address length⟩
  obtain ⟨result, last, hplain, hdivided, hmemory, hmode⟩ :=
    gives_reads engine address length (show bench.footing.chip.Responsive from hresponsive)
  obtain ⟨hresult, hlast⟩ := run_of_gives hplain
  have halike : ∀ action : Action Bytes, action.Gives bench.footing result last →
      let ended := (Outcome.ofValue .bytes <$> action.run).run Bench.environment bench
      ended.1 = plain.1 ∧ ended.2.footing = plain.2.footing ∧
        ended.2.chip.memory = bench.chip.memory ∧ ended.2.chip.mode = bench.chip.mode := by
    intro action hgives ended
    obtain ⟨hsame, hfooting⟩ := run_of_gives hgives
    refine ⟨hsame.trans hresult.symm, hfooting.trans hlast.symm, ?_, ?_⟩
    · have hchip : ended.2.footing.chip.memory = last.chip.memory := by rw [hfooting]
      exact hchip.trans hmemory
    · have hchip : ended.2.footing.chip.mode = last.chip.mode := by rw [hfooting]
      exact hchip.trans hmode
  intro ended hended
  simp only [List.mem_cons, List.not_mem_nil, or_false] at hended
  rcases hended with rfl | rfl | rfl
  · exact halike _ hplain
  · exact halike _ hdivided
  · exact halike _ hdivided.silenced

/-- A sleeping chip leaves the lines alone, and so each read finds an erased range. -/
theorem read_variants_of_sleeping_chip :
    let engine : Engine := ⟨.standard, some ⟨Catalog.winbond,
      ⟨0x4015, "W25Q16DV", 4096, false, 8, some .quad⟩⟩⟩
    let bench := Bench.ofChip { Chip.fresh ⟨0xEF, 0x4015⟩ with asleep := true }
    let plain := (engine.perform (.read 0x1000 3000)).run Bench.environment bench
    let divided := (engine.perform (.readReporting 0x1000 3000)).run Bench.environment bench
    divided.1.result = .ok (.bytes (List.replicate 3000 Bytes.erased)) ∧ divided.1 = plain.1 ∧
      divided.2.chip.memory = plain.2.chip.memory ∧ Paced 1024 3000 divided.2.reports.toList := by
  intro engine bench plain divided
  obtain ⟨halike, hpaced⟩ := read_variants engine bench 0x1000 3000 ⟨rfl, rfl⟩
  obtain ⟨-, -, hmemory, -⟩ := halike plain List.mem_cons_self
  obtain ⟨hsame, -, hkept, -⟩ := halike divided (List.mem_cons_of_mem _ List.mem_cons_self)
  have hreports : bench.reports.toList = [] := rfl
  have hrange : engine.checkRange 0x1000 3000 = .ok () := checkRange_eq_ok_iff.mpr (by decide)
  have hgives := @gives_readReporting engine _ 0x1000 3000 bench.footing rfl hrange (by decide)
    ⟨rfl, rfl⟩
  have hsource : bench.footing.source ⟨0x4015, "W25Q16DV", 4096, false, 8, some .quad⟩ =
      .ok (.blank 0) := rfl
  simp only [hsource, Except.map, Memory.read_blank] at hgives
  -- The run is not to be unfolded.
  clear_value bench engine
  have hended : divided.1 = Outcome.ofValue .bytes (.ok (List.replicate 3000 Bytes.erased)) :=
    (run_of_gives hgives).1
  obtain ⟨counts, hcounts, hsteps⟩ := hpaced (congrArg (·.result.isOk) hended)
  rw [hreports] at hcounts
  refine ⟨congrArg Outcome.result hended, hsame, hkept.trans hmemory.symm, ?_⟩
  rw [hcounts]
  exact hsteps

/-! ## Erases -/

/-- An erase of a range is the one that reports, its reports dropped. -/
theorem perform_eraseRange (engine : Engine) (address : UInt32) (length : Nat) :
    engine.perform (.eraseRange address length) =
      (engine.perform (.eraseRangeReporting address length)).silenced :=
  (Program.silenced_map ..).symm

/-- An empty range that begins beyond the identified device. -/
def EmptyBeyond (engine : Engine) (address : UInt32) (length : Nat) : Prop :=
  engine.device?.isSome = true ∧ length = 0 ∧ engine.capacity < address.toNat

/-- An engine that passes the check for a device has one. -/
theorem isSome_device?_of_requireDevice (h : engine.requireDevice = .ok device) :
    engine.device?.isSome = true := by
  unfold requireDevice at h
  split at h
  · rename_i hdevice
    rw [hdevice]
    rfl
  · cases h

/-- The metered erase checks an empty range, and does otherwise what the plain one does. -/
theorem eraseRangeMetered_eq (h : ¬engine.EmptyBeyond address length) :
    engine.eraseRangeMetered address length = engine.eraseRange address length := by
  cases hdevice : engine.requireDevice with
  | error fault =>
      simp only [eraseRangeMetered, eraseRange, eraseRangeReporting, hdevice]
      rfl
  | ok device =>
      unfold eraseRangeMetered
      rw [requireDevice_bind hdevice]
      cases hrange : engine.checkRange address length with
      | ok _ => rfl
      | error fault =>
          have houtside : ¬address.toNat + length ≤ engine.capacity := by
            intro hwithin
            rw [checkRange_eq_ok_iff.mpr hwithin] at hrange
            cases hrange
          have hlength : length ≠ 0 := by
            rintro rfl
            exact h ⟨isSome_device?_of_requireDevice hdevice, rfl, Nat.lt_of_not_le houtside⟩
          unfold eraseRange eraseRangeReporting
          rw [requireDevice_bind hdevice, if_neg hlength, hrange]
          rfl

/-- The fault for an empty range that begins beyond the device carries the address before it. -/
theorem checkRange_zero_of_lt (h : engine.capacity < address.toNat) :
    engine.checkRange address 0 =
      .error (.addressOutOfRange (UInt32.ofNat (address.toNat - 1))) := by
  have hlast : address.toNat - 1 ≤ lastAddress :=
    Nat.sub_le_sub_right (Nat.le_of_lt address.toNat_lt) 1
  unfold checkRange
  simp only [Nat.add_zero]
  rw [if_neg (Nat.not_le.mpr h), Nat.min_eq_left hlast]

/-- The metered erase rejects an empty range that begins beyond the device, and the plain one has
nothing to do for it. -/
theorem perform_eraseRange_of_emptyBeyond (h : engine.EmptyBeyond address length) :
    engine.perform (.eraseRange address length) = pure ⟨.ok .nothing, none⟩ ∧
      engine.perform (.eraseRangeMetered address length) =
        pure ⟨.error (.addressOutOfRange (UInt32.ofNat (address.toNat - 1))), none⟩ := by
  obtain ⟨hsome, rfl, hbeyond⟩ := h
  obtain ⟨device, hdevice⟩ := Option.isSome_iff_exists.mp hsome
  have hrequire : engine.requireDevice = .ok device := by
    unfold requireDevice
    rw [hdevice]
  constructor
  · show Outcome.ofUnit <$> (engine.eraseRangeReporting address 0).silenced.run = _
    rw [eraseRangeReporting_zero hrequire]
    rfl
  · show Outcome.ofUnit <$> (engine.eraseRangeMetered address 0).run = _
    unfold eraseRangeMetered
    rw [requireDevice_bind hrequire, checkRange_zero_of_lt hbeyond]
    rfl

/-- The reporting erase of a range ends as the plain one does, and says no more than its reports.
The metered one does what the plain one does, the same calls included, unless the range is empty and
begins beyond the device: such a range it rejects, where the plain one succeeds, and neither says
anything. -/
theorem eraseRange_variants (engine : Engine) (bench : Bench) (address : UInt32) (length : Nat) :
    let plain := (engine.perform (.eraseRange address length)).run Bench.environment bench
    let reporting :=
      (engine.perform (.eraseRangeReporting address length)).run Bench.environment bench
    let metered := (engine.perform (.eraseRangeMetered address length)).run Bench.environment bench
    (reporting.1 = plain.1 ∧ reporting.2.withReports bench.reports = plain.2) ∧
      metered.2 = plain.2 ∧
      (metered.1 = plain.1 ↔ ¬engine.EmptyBeyond address length) ∧
      (engine.EmptyBeyond address length →
        plain.1.result = .ok .nothing ∧
          metered.1.result = .error (.addressOutOfRange (UInt32.ofNat (address.toNat - 1)))) := by
  intro plain reporting metered
  have hreporting : plain = (reporting.1, reporting.2.withReports bench.reports) := by
    show (engine.perform _).run Bench.environment bench = _
    rw [perform_eraseRange]
    exact Program.run_silenced_self _ bench
  have hresult : reporting.1 = plain.1 := (congrArg Prod.fst hreporting).symm
  have hbench : reporting.2.withReports bench.reports = plain.2 :=
    (congrArg Prod.snd hreporting).symm
  refine ⟨⟨hresult, hbench⟩, ?_⟩
  by_cases hbeyond : engine.EmptyBeyond address length
  · obtain ⟨hplain, hmetered⟩ := perform_eraseRange_of_emptyBeyond hbeyond
    simp only [plain, metered, hplain, hmetered]
    refine ⟨rfl, ⟨fun h => ?_, fun h => absurd hbeyond h⟩, fun _ => ⟨rfl, rfl⟩⟩
    cases congrArg Outcome.result h
  · have hmetered : metered = plain := by
      simp only [plain, metered, perform, eraseRangeMetered_eq hbeyond]
    rw [hmetered]
    exact ⟨rfl, ⟨fun _ => hbeyond, fun _ => rfl⟩, fun h => absurd h hbeyond⟩

/-- An empty range that begins one byte beyond the device. -/
theorem eraseRange_variants_beyond_end :
    let engine : Engine := ⟨.standard, some ⟨Catalog.winbond,
      ⟨0x4015, "W25Q16DV", 4096, false, 8, some .quad⟩⟩⟩
    let bench := Bench.ofChip (Chip.fresh ⟨0xEF, 0x4015⟩)
    ((engine.perform (.eraseRange 0x200001 0)).run Bench.environment bench).1.result =
        .ok .nothing ∧
      ((engine.perform (.eraseRangeMetered 0x200001 0)).run Bench.environment bench).1.result =
        .error (.addressOutOfRange 0x200000) := by
  intro engine bench
  exact (eraseRange_variants engine bench 0x200001 0).2.2.2 ⟨rfl, rfl, by decide⟩

end Engine

end NorFlash
