import NorFlash.Proofs.Engine.Checks

/-!
# Where reads are answered from

On a responsive bench a read is answered from one memory, the stored one or that of lines which
nothing drives, or with one fault. `Footing.source` says which, from the part of a bench that reads
depend on, and `Footing.settled` what a transfer leaves of that part. A transfer that follows finds
the same source and leaves the same, so a read in many transfers comes to what a read in one does:
`gives_reads` says so for every range, those that are empty or not within the device included.
-/

namespace NorFlash

variable {α β : Type}

/-- A blank memory reads erased throughout. -/
theorem Memory.read_blank (capacityCode : UInt8) (address length : Nat) :
    (blank capacityCode).read address length = List.replicate length Bytes.erased := by
  simp [read, byteAt_blank, List.map_const']

namespace Chip

variable {chip : Chip} {device : Descriptor} {width : BusWidth} {address : UInt32} {length : Nat}

instance (chip : Chip) (width : BusWidth) : Decidable (chip.Hears width) :=
  inferInstanceAs (Decidable (_ ∧ _))

/-- The chip without what it has on record of the calls made to it. -/
def unrecorded (chip : Chip) : Chip :=
  { chip with opcodes := #[], aborts := 0 }

/-- What a chip answers quad reads from: its memory, if it hears and accepts them. Lines that
nothing drives read as an erased memory does. -/
def source (chip : Chip) (device : Descriptor) (width : BusWidth) : Except BusFault Memory :=
  if chip.Hears width then
    (chip.checkRead (Engine.readCommand device .quad)).map fun _ => chip.memory
  else
    .ok (.blank 0)

/-- The chip after an instruction that changes nothing. Any that it hears ends an enabled reset. -/
def attended (chip : Chip) (width : BusWidth) : Chip :=
  { chip with
    latches := { chip.latches with
      resetEnable := chip.latches.resetEnable && !decide (chip.Hears width) } }

/-- A responsive chip has no failure to draw from its plan. -/
theorem drawn_of_responsive (h : chip.Responsive) : chip.drawn = chip := by
  simp [drawn, FailurePlan.next, h.1]

/-- A chip that does not hear a read leaves the lines alone. -/
theorem accept_quadRead_of_not_hears (h : ¬chip.Hears width) :
    chip.accept (Engine.quadRead device width address length) =
      (.ok (some (List.replicate length Bytes.erased)),
        chip.drawn.log Opcode.fastReadQuad.code) := by
  have hcode := @instruction_quadRead device width address length
  cases hlistens : chip.listens width with
  | false =>
      rw [accept_of_not_listens (by rwa [width_quadRead]), hcode]
      rfl
  | true =>
      have hasleep : chip.asleep = true := by
        by_contra hawake
        exact h ⟨by simpa using hawake, hlistens⟩
      rw [accept_of_asleep hasleep (by rw [hcode]; decide), hcode]
      rfl

/-- What a responsive chip answers to a read. -/
theorem reply_quadRead :
    (chip.accept (Engine.quadRead device width address length)).1 =
      (chip.source device width).map fun memory => some (memory.read address.toNat length) := by
  unfold source
  split
  · rename_i hhears
    rw [accept_quadRead hhears]
    cases chip.checkRead (Engine.readCommand device .quad) <;> rfl
  · rename_i hdeaf
    rw [accept_quadRead_of_not_hears hdeaf]
    exact congrArg (fun bytes => Except.ok (some bytes)) (Memory.read_blank ..).symm

/-- What a read leaves of a responsive chip. -/
theorem unrecorded_quadRead (hresponsive : chip.Responsive) :
    (chip.accept (Engine.quadRead device width address length)).2.unrecorded =
      (chip.attended width).unrecorded := by
  by_cases hhears : chip.Hears width
  · have hheard : chip.Hears (Engine.quadRead device width address length).width := by
      rwa [width_quadRead]
    rw [accept_of_decode hheard (decode?_quadRead chip.vendor)]
    simp only [heed, obey, drawn_of_responsive hresponsive, attended, hhears]
    simp [unrecorded, log]
  · rw [accept_quadRead_of_not_hears hhears, drawn_of_responsive hresponsive]
    simp [attended, hhears, unrecorded, log]

/-- A chip that is attended to twice is as after once. -/
theorem attended_attended (chip : Chip) (width : BusWidth) :
    (chip.attended width).attended width = chip.attended width := by
  have hagain : (chip.latches.resetEnable && !decide (chip.Hears width) &&
      !decide (chip.Hears width)) = (chip.latches.resetEnable && !decide (chip.Hears width)) := by
    rw [Bool.and_assoc, Bool.and_self]
  exact congrArg (fun resetEnable => { chip with latches := { chip.latches with resetEnable } })
    hagain

end Chip

/-- On a responsive bench a deferred command ends as the chip answers it, and what is refused is
aborted. -/
theorem Program.ends_exchange_responsive {bench : Bench} (hresponsive : bench.chip.Responsive)
    (command : Command) (patience : Nat) :
    (exchange (.start command) patience).Ends Bench.environment
      (fun ended after => after.bus = bench.bus ∧
        (ended.2.map fun _ => ended.1) = (bench.chip.accept command).1.mapError .bus ∧
        after.chip = if (bench.chip.accept command).1.isOk then (bench.chip.accept command).2
          else ((bench.chip.accept command).2.answer .abort).2) bench := by
  have hexecute : bench.chip.execute command = bench.chip.accept command := by
    rw [Chip.execute_eq, Chip.not_refuses_of_responsive hresponsive]
    rfl
  have hreply : (bench.chip.answer (.start command)).1.reply = (bench.chip.accept command).1 :=
    congrArg Prod.fst hexecute
  have hchip : (bench.chip.answer (.start command)).2 = (bench.chip.accept command).2 :=
    congrArg Prod.snd hexecute
  have hcalled : (bench.arm.call (.start command)).2.chip = (bench.chip.accept command).2 :=
    (Bench.chip_call ..).trans hchip
  have hbus : (bench.arm.call (.start command)).2.bus = bench.bus := Bench.bus_call ..
  unfold Ends
  cases haccept : (bench.chip.accept command).1 with
  | error cause =>
      rw [run_exchange_error bench _ patience (hreply.trans haccept)]
      refine ⟨(Bench.bus_call ..).trans hbus, rfl, ?_⟩
      rw [Bench.chip_call, hcalled]
      rfl
  | ok received =>
      have hdone : (bench.arm.call (.start command)).2.event.done = true :=
        Bench.done_call hresponsive.2 (Chip.completes_start hresponsive haccept)
      have harrived : ((bench.arm.call (.start command)).2.await patience).1 = true := by
        simp [Bench.await, hdone]
      rw [run_exchange_ok bench _ patience (hreply.trans haccept), if_pos harrived]
      refine ⟨(Bench.bus_await ..).trans hbus, rfl, ?_⟩
      rw [Bench.chip_await, hcalled]
      rfl

/-! ## Footings -/

/-- What the reads of an engine depend on, and what they may change. -/
structure Footing where
  /-- The chip without its records. -/
  chip : Chip
  bus : Option BusState

/-- The footing that a bench gives to reads. -/
def Bench.footing (bench : Bench) : Footing :=
  ⟨bench.chip.unrecorded, bench.bus⟩

namespace Footing

variable {footing : Footing} {device : Descriptor}

/-- What reads are answered from. -/
def source (footing : Footing) (device : Descriptor) : Except Fault Memory :=
  match footing.bus with
  | none => .error .busy
  | some bus => (footing.chip.source device bus.width).mapError .bus

/-- The footing after a transfer. A mapping has been left, and what was refused has been aborted. -/
def settled (footing : Footing) (device : Descriptor) : Footing :=
  match footing.bus with
  | none => footing
  | some bus =>
      { chip :=
          { footing.chip.attended bus.width with
            mapped := footing.chip.mapped && !bus.mapped && (footing.source device).isOk }
        bus := some ⟨bus.width, false⟩ }

end Footing

/-- The bench once the bus has been taken and the mapping has been left. -/
def Bench.taken (bench : Bench) (bus : BusState) : Bench :=
  if bus.mapped then ({ bench with bus := none }.call .abort).2 else { bench with bus := none }

/-- Taking the bus ends a mapping, and changes nothing else of the chip. -/
theorem Bench.unrecorded_taken (bench : Bench) (bus : BusState) :
    (bench.taken bus).chip.unrecorded =
      { bench.chip.unrecorded with mapped := bench.chip.mapped && !bus.mapped } := by
  unfold taken
  cases bus.mapped with
  | true =>
      show (({ bench with bus := none } : Bench).call .abort).2.chip.unrecorded = _
      rw [chip_call, Bool.not_true, Bool.and_false]
      rfl
  | false =>
      rw [Bool.not_false, Bool.and_true]
      rfl

/-- Taking the bus leaves a chip responsive. -/
theorem Bench.responsive_taken (bench : Bench) (bus : BusState) (h : bench.chip.Responsive) :
    (bench.taken bus).chip.Responsive := by
  have hsame : (bench.taken bus).chip.unrecorded.Responsive := bench.unrecorded_taken bus ▸ h
  exact hsame

/-- Taking the bus changes nothing of what a read would find. -/
theorem Bench.source_taken (bench : Bench) (bus : BusState) (device : Descriptor)
    (width : BusWidth) :
    (bench.taken bus).chip.source device width = bench.chip.source device width := by
  show (bench.taken bus).chip.unrecorded.source device width = _
  rw [unrecorded_taken]
  rfl

namespace Engine

/-- An action that takes the bus runs on what is there then. -/
theorem ends_withBus_taken {engine : Engine} {action : BusAction α} {bench : Bench}
    {bus : BusState} {ok : α → Bench → Prop} {bad : Fault → Bench → Prop}
    (hbus : bench.bus = some bus) :
    (engine.withBus action).Ends Bench.environment ok bad bench ↔
      action.Ends Bench.environment
        (fun value last after => ok value { after with bus := some last })
        (fun fault last after => bad fault { after with bus := some last })
        { bus with mapped := false } (bench.taken bus) := by
  unfold withBus
  rw [ends_holdingBus hbus, BusAction.ends_bind]
  obtain ⟨width, mapped⟩ := bus
  cases mapped with
  | true => rfl
  | false => rfl

/-- A read that a responsive chip is asked for delivers from the source. What is refused is aborted,
and that ends a mapping. -/
theorem ends_quadRead {bench : Bench} (hresponsive : bench.chip.Responsive) (device : Descriptor)
    (width : BusWidth) (address : UInt32) (length patience : Nat) :
    (Program.exchange (.start (quadRead device width address length)) patience).Ends
      Bench.environment
      (fun ended after =>
        (ended.2.map fun _ => ended.1) = ((bench.chip.source device width).mapError .bus).map
          (fun memory => some (memory.read address.toNat length)) ∧
        after.chip.unrecorded =
          { (bench.chip.attended width).unrecorded with
            mapped := bench.chip.mapped && (bench.chip.source device width).isOk }) bench := by
  refine (Program.ends_exchange_responsive hresponsive (quadRead device width address length)
    patience).mono ?_
  rintro ⟨received, outcome⟩ after ⟨-, hended, hafter⟩
  have hchip := @Chip.unrecorded_quadRead _ device width address length hresponsive
  rw [Chip.reply_quadRead] at hended hafter
  rw [hended, hafter]
  cases bench.chip.source device width with
  | error cause =>
      refine ⟨rfl, ?_⟩
      show { (bench.chip.accept _).2.unrecorded with mapped := false } =
        { (bench.chip.attended width).unrecorded with mapped := bench.chip.mapped && false }
      rw [hchip, Bool.and_false]
  | ok memory =>
      refine ⟨rfl, ?_⟩
      show (bench.chip.accept _).2.unrecorded =
        { (bench.chip.attended width).unrecorded with mapped := bench.chip.mapped && true }
      rw [hchip, Bool.and_true]
      rfl

/-- On a responsive bench one transfer delivers from the source, and settles the footing. -/
theorem ends_fetch_responsive (engine : Engine) (device : Descriptor) (address : UInt32)
    (length : Nat) {bench : Bench} (hresponsive : bench.chip.Responsive) :
    (engine.fetch device address length).Ends Bench.environment
      (fun ended after => after.footing = bench.footing.settled device ∧
        (ended.2.map fun _ => ended.1) =
          (bench.footing.source device).map fun memory => some (memory.read address.toNat length))
      (fun fault after => after.footing = bench.footing.settled device ∧
        bench.footing.source device = .error fault) bench := by
  cases hbus : bench.bus with
  | none =>
      refine ends_withBus_busy hbus ⟨?_, ?_⟩
      · simp [Footing.settled, Bench.footing, hbus]
      · simp [Footing.source, Bench.footing, hbus]
  | some bus =>
      have hsource : bench.footing.source device =
          (bench.chip.source device bus.width).mapError .bus := by
        simp only [Footing.source, Bench.footing, hbus]
        rfl
      refine (ends_withBus_taken hbus).mpr ?_
      rw [BusAction.ends_bind, BusAction.ends_width]
      dsimp only
      rw [BusAction.ends_lift, Action.ends_liftM]
      refine (ends_quadRead (bench.responsive_taken bus hresponsive) device bus.width address length
        engine.timeouts.command).mono ?_
      rintro ⟨received, outcome⟩ after ⟨hended, hafter⟩
      rw [Bench.source_taken] at hended hafter
      refine ⟨?_, by rw [hended, hsource]⟩
      show Footing.mk after.chip.unrecorded _ = _
      rw [hafter]
      have hattended : ((bench.taken bus).chip.attended bus.width).unrecorded =
          { bench.chip.unrecorded.attended bus.width with
            mapped := bench.chip.mapped && !bus.mapped } :=
        congrArg (·.attended bus.width) (bench.unrecorded_taken bus)
      have hmapped : (bench.taken bus).chip.mapped = (bench.chip.mapped && !bus.mapped) :=
        congrArg Chip.mapped (bench.unrecorded_taken bus)
      rw [hattended, hmapped]
      simp only [Footing.settled, hsource]
      simp only [Bench.footing, hbus]
      cases bench.chip.source device bus.width <;> rfl

/-- A read into a buffer that is not empty delivers in one transfer. -/
theorem ends_readInto_responsive {engine : Engine} {device : Descriptor}
    (hdevice : engine.requireDevice = .ok device) {address : UInt32} {buffer : Bytes}
    (hbuffer : buffer ≠ []) (hrange : engine.checkRange address buffer.length = .ok ())
    {bench : Bench} (hresponsive : bench.chip.Responsive) :
    (engine.readInto address buffer).Ends Bench.environment
      (fun ended after => after.footing = bench.footing.settled device ∧
        (ended.1.map fun _ => ended.2) = (bench.footing.source device).map fun memory =>
          memory.read address.toNat buffer.length) bench := by
  unfold readInto
  simp only [hdevice, if_neg hbuffer, hrange]
  rw [Program.ends_bind]
  refine Program.Ends.mono
    (ends_fetch_responsive engine device address buffer.length hresponsive) ?_
  rintro (fault | ⟨received, outcome⟩) after ⟨hfooting, hended⟩
  · refine ⟨hfooting, ?_⟩
    rw [hended]
    rfl
  · refine ⟨hfooting, ?_⟩
    cases hsource : bench.footing.source device with
    | error fault =>
        rw [hsource] at hended
        cases outcome with
        | error other => exact congrArg Except.error (Except.error.inj hended)
        | ok _ => cases hended
    | ok memory =>
        rw [hsource] at hended
        cases outcome with
        | error other => cases hended
        | ok _ =>
            obtain rfl : received = _ := Except.ok.inj hended
            rfl

end Engine

/-- On every bench with the one footing the action ends with the result, and leaves the other
footing. -/
def Action.Gives (before : Footing) (result : Except Fault α) (last : Footing)
    (action : Action α) : Prop :=
  ∀ bench : Bench, bench.footing = before →
    action.Ends Bench.environment
      (fun value after => result = .ok value ∧ after.footing = last)
      (fun fault after => result = .error fault ∧ after.footing = last) bench

namespace Action

variable {before middle last : Footing} {result : Except Fault α} {action : Action α}

/-- What an action gives is what a run of it comes to. -/
theorem Gives.run (h : action.Gives before result last) {bench : Bench}
    (hbench : bench.footing = before) :
    (action.run.run Bench.environment bench).1 = result ∧
      (action.run.run Bench.environment bench).2.footing = last := by
  have hended := h bench hbench
  rw [ends_iff] at hended
  generalize action.run.run Bench.environment bench = ended at hended ⊢
  obtain ⟨fault | value, after⟩ := ended
  · exact ⟨hended.1.symm, hended.2⟩
  · exact ⟨hended.1.symm, hended.2⟩

/-- An action that ends at once leaves the footing alone. -/
theorem gives_of_run (h : action.run = pure result) (footing : Footing) :
    action.Gives footing result footing := by
  intro bench hbench
  rw [ends_iff, h]
  cases result with
  | ok value => exact ⟨rfl, hbench⟩
  | error fault => exact ⟨rfl, hbench⟩

/-- A value is given without a change. -/
theorem gives_pure (footing : Footing) (value : α) :
    Action.Gives footing (.ok value) footing (pure value) :=
  fun _ hbench => ⟨rfl, hbench⟩

/-- A report gives nothing and changes nothing. -/
theorem gives_report (footing : Footing) (count : Nat) :
    (Action.report count).Gives footing (.ok ()) footing :=
  fun _ hbench => ⟨rfl, hbench⟩

/-- Actions give what they give one after the other. The first fault ends it. -/
theorem Gives.bind {next : α → Action β} {rest : α → Except Fault β}
    (h : action.Gives before result middle)
    (hnext : ∀ value, result = .ok value → (next value).Gives middle (rest value) last)
    (hfault : ∀ fault, result = .error fault → middle = last) :
    Action.Gives before (result >>= rest) last (action >>= next) := by
  intro bench hbench
  rw [ends_bind]
  refine (h bench hbench).mono (fun value after hafter => ?_) fun fault after hafter => ?_
  · rw [hafter.1]
    exact hnext value hafter.1 after hafter.2
  · exact ⟨by rw [hafter.1]; rfl, hafter.2.trans (hfault fault hafter.1)⟩

/-- Actions that each bring about the same footing, also from there. -/
theorem gives_mapM {action : α → Action β} {results : α → Except Fault β} {list : List α}
    (hlist : list ≠ [])
    (h : ∀ item ∈ list, ∀ footing, footing = before ∨ footing = last →
      (action item).Gives footing (results item) last) :
    (list.mapM action).Gives before (list.mapM results) last := by
  rw [← List.mapM'_eq_mapM, ← List.mapM'_eq_mapM]
  induction list generalizing before with
  | nil => exact absurd rfl hlist
  | cons first rest ih =>
      have hrest : (rest.mapM' action).Gives last (rest.mapM' results) last := by
        by_cases hempty : rest = []
        · rw [hempty]
          exact gives_pure last []
        · exact ih hempty fun item hitem footing hfooting =>
            h item (List.mem_cons_of_mem first hitem) footing (.inr (hfooting.elim id id))
      rw [List.mapM'_cons, List.mapM'_cons]
      refine (h first List.mem_cons_self before (.inl rfl)).bind (fun value _ => ?_) fun _ _ => rfl
      exact hrest.bind (fun values _ => gives_pure last (value :: values)) fun _ _ => rfl

/-- An action that reports to nobody gives the same. -/
theorem Gives.silenced (h : action.Gives before result last) :
    action.silenced.Gives before result last :=
  fun bench hbench => ends_silenced (h bench hbench)

end Action

/-! ## Reads -/

/-- An address that wraps around the largest one reads the same. -/
theorem Memory.read_ofNat (memory : Memory) (address length : Nat) :
    memory.read (UInt32.ofNat address).toNat length = memory.read address length := by
  have hdvd : memory.size ∣ UInt32.size :=
    addressable_dvd (Nat.le_trans memory.bits_le (show 24 ≤ 32 by decide))
  refine List.map_congr_left fun offset _ => ?_
  have hindex : memory.index ((UInt32.ofNat address).toNat + offset) =
      memory.index (address + offset) := by
    unfold index
    rw [UInt32.toNat_ofNat', Nat.add_mod, Nat.mod_mod_of_dvd _ hdvd, ← Nat.add_mod]
  unfold byteAt
  rw [hindex]

namespace Footing

variable (footing : Footing) (device : Descriptor)

/-- A transfer leaves the source as it is. -/
theorem source_settled : (footing.settled device).source device = footing.source device := by
  obtain ⟨chip, bus⟩ := footing
  cases bus <;> rfl

/-- A second transfer changes nothing more. -/
theorem settled_settled : (footing.settled device).settled device = footing.settled device := by
  have hsource := footing.source_settled device
  obtain ⟨chip, bus⟩ := footing
  cases bus with
  | none => rfl
  | some bus =>
      let accepted := (Footing.source ⟨chip, some bus⟩ device).isOk
      have hmapped : (chip.mapped && !bus.mapped && accepted && !false && accepted) =
          (chip.mapped && !bus.mapped && accepted) := by
        rw [Bool.not_false, Bool.and_true, Bool.and_assoc, Bool.and_self]
      show Footing.mk { (chip.attended bus.width).attended bus.width with
          mapped := chip.mapped && !bus.mapped && accepted && !false &&
            ((Footing.settled ⟨chip, some bus⟩ device).source device).isOk } _ = _
      rw [hsource, hmapped, Chip.attended_attended]
      rfl

/-- A transfer leaves the memory alone. -/
theorem memory_settled : (footing.settled device).chip.memory = footing.chip.memory := by
  obtain ⟨chip, bus⟩ := footing
  cases bus <;> rfl

/-- A transfer leaves the mode alone. -/
theorem mode_settled : (footing.settled device).chip.mode = footing.chip.mode := by
  obtain ⟨chip, bus⟩ := footing
  cases bus <;> rfl

/-- A transfer leaves a chip responsive. -/
theorem responsive_settled (h : footing.chip.Responsive) :
    (footing.settled device).chip.Responsive := by
  obtain ⟨chip, bus⟩ := footing
  cases bus with
  | none => exact h
  | some bus => exact h

end Footing

/-- Parts that are delivered from one source are those of its memory. -/
theorem mapM_source {ι : Type} (source : Except Fault Memory) (read : Memory → ι → Bytes)
    {list : List ι} (hlist : list ≠ []) :
    (list.mapM fun item => source.map fun memory => read memory item) =
      source.map fun memory => list.map (read memory) := by
  cases source with
  | error fault =>
      cases list with
      | nil => exact absurd rfl hlist
      | cons first rest =>
          rw [List.mapM_cons]
          rfl
  | ok memory => exact List.mapM_pure

namespace Engine

variable {engine : Engine} {device : Descriptor} {address : UInt32} {length : Nat}
  {footing : Footing}

/-- Bytes that are read into a zeroed buffer are delivered from the source. -/
theorem gives_readZeroed (hdevice : engine.requireDevice = .ok device) (hlength : length ≠ 0)
    (hrange : engine.checkRange address length = .ok ()) (hresponsive : footing.chip.Responsive) :
    (engine.readZeroed address length).Gives footing
      ((footing.source device).map fun memory => memory.read address.toNat length)
      (footing.settled device) := by
  intro bench hbench
  subst hbench
  have hbuffer : List.replicate length (0 : UInt8) ≠ [] := by simpa using hlength
  have hread := ends_readInto_responsive hdevice hbuffer (by rwa [List.length_replicate])
    (show bench.chip.Responsive from hresponsive)
  rw [List.length_replicate] at hread
  unfold readZeroed
  rw [Action.ends_bind, Action.ends_liftM]
  refine hread.mono ?_
  rintro ⟨outcome, bytes⟩ after ⟨hfooting, hended⟩
  rw [Action.ends_bind, Action.ends_ofExcept]
  cases outcome with
  | error fault => exact ⟨hended.symm, hfooting⟩
  | ok _ => exact ⟨hended.symm, hfooting⟩

section Within

variable (hdevice : engine.requireDevice = .ok device)
  (hrange : engine.checkRange address length = .ok ()) (hlength : length ≠ 0)
  (hresponsive : footing.chip.Responsive)

include hdevice hrange hlength hresponsive

/-- A plain read of a range within the device is one transfer. -/
theorem gives_read :
    (engine.read address length).Gives footing
      ((footing.source device).map fun memory => memory.read address.toNat length)
      (footing.settled device) := by
  unfold read
  rw [requireDevice_bind hdevice, hrange]
  exact gives_readZeroed hdevice hlength hrange hresponsive

omit hlength in
/-- Each part of a divided read is one transfer. -/
theorem gives_readSpan {span : Nat × Nat} (hspan : span ∈ spans length (transferSize length)) :
    (engine.readSpan address span).Gives footing
      ((footing.source device).map fun memory => memory.read (address.toNat + span.1) span.2)
      (footing.settled device) := by
  obtain ⟨hpart, hcheck⟩ := checkRange_span hrange hspan
  have hread := gives_readZeroed hdevice hpart hcheck hresponsive
  simp only [Memory.read_ofNat] at hread
  have hreported := hread.bind (fun bytes _ =>
    (Action.gives_report _ (span.1 + span.2)).bind
      (fun _ _ => Action.gives_pure _ bytes) fun _ _ => rfl) fun _ _ => rfl
  unfold readSpan
  cases hsource : footing.source device with
  | error fault => rwa [hsource] at hreported
  | ok memory => rwa [hsource] at hreported

/-- A divided read of a range within the device delivers what the plain one does. -/
theorem gives_readReporting :
    (engine.readReporting address length).Gives footing
      ((footing.source device).map fun memory => memory.read address.toNat length)
      (footing.settled device) := by
  have hadjoins := adjoining_spans length (transferSize_pos length)
  have hspans := hadjoins.ne_nil (Nat.pos_of_ne_zero hlength)
  have hparts : ((spans length (transferSize length)).mapM (engine.readSpan address)).Gives footing
      ((spans length (transferSize length)).mapM fun span =>
        (footing.source device).map fun memory => memory.read (address.toNat + span.1) span.2)
      (footing.settled device) := by
    refine Action.gives_mapM hspans fun span hspan start hstart => ?_
    rcases hstart with rfl | rfl
    · exact gives_readSpan hdevice hrange hresponsive hspan
    · -- The parts after the first find the footing settled, and leave it so.
      have hagain := gives_readSpan hdevice hrange (footing.responsive_settled device hresponsive)
        hspan
      rwa [footing.source_settled, footing.settled_settled] at hagain
  rw [mapM_source _ (fun memory span => memory.read (address.toNat + span.1) span.2) hspans]
    at hparts
  have hread := (Action.gives_report footing 0).bind (fun _ _ => hparts.bind (fun parts _ =>
    (Action.gives_report _ length).bind (fun _ _ => Action.gives_pure _ parts.flatten)
      fun _ _ => rfl) fun _ _ => rfl) fun _ hfault => by cases hfault
  unfold readReporting
  rw [requireDevice_bind hdevice, hrange]
  cases hsource : footing.source device with
  | error fault => rwa [hsource] at hread
  | ok memory =>
      rw [hsource] at hread
      have hflatten := flatten_spans memory address.toNat length (transferSize_pos length)
      show Action.Gives _ (.ok (memory.read address.toNat length)) _ _
      rw [← hflatten]
      exact hread

end Within

/-- Whatever range it is asked for, a divided read ends as the plain one does, and leaves the same
footing, with the memory and the mode there were before. -/
theorem gives_reads (engine : Engine) (address : UInt32) (length : Nat)
    (hresponsive : footing.chip.Responsive) :
    ∃ result last,
      (engine.read address length).Gives footing result last ∧
        (engine.readReporting address length).Gives footing result last ∧
        last.chip.memory = footing.chip.memory ∧ last.chip.mode = footing.chip.mode := by
  cases hdevice : engine.requireDevice with
  | error fault =>
      refine ⟨.error fault, footing, Action.gives_of_run ?_ footing,
        Action.gives_of_run ?_ footing, rfl, rfl⟩
      · simp only [read, hdevice]
        rfl
      · simp only [readReporting, hdevice]
        rfl
  | ok device =>
      cases hrange : engine.checkRange address length with
      | error fault =>
          refine ⟨.error fault, footing, Action.gives_of_run ?_ footing,
            Action.gives_of_run ?_ footing, rfl, rfl⟩
          · unfold read
            rw [requireDevice_bind hdevice, hrange]
            rfl
          · unfold readReporting
            rw [requireDevice_bind hdevice, hrange]
            rfl
      | ok _ =>
          by_cases hlength : length = 0
          · subst hlength
            refine ⟨.ok [], footing, Action.gives_of_run ?_ footing, ?_, rfl, rfl⟩
            · unfold read readZeroed
              rw [requireDevice_bind hdevice, hrange, List.replicate_zero,
                readInto_nil hdevice]
              rfl
            · unfold readReporting
              rw [requireDevice_bind hdevice, hrange]
              exact (Action.gives_report footing 0).bind (fun _ _ =>
                (Action.gives_report footing 0).bind (fun _ _ => Action.gives_pure footing [])
                  fun _ _ => rfl) fun _ _ => rfl
          · exact ⟨_, footing.settled device, gives_read hdevice hrange hlength hresponsive,
              gives_readReporting hdevice hrange hlength hresponsive,
              footing.memory_settled device, footing.mode_settled device⟩

end Engine

end NorFlash
