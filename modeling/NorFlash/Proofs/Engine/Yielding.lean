import NorFlash.Proofs.Engine.Erasing
import NorFlash.Proofs.Engine.Mapping

/-!
# Operations that do not get the bus

An operation that passes its checks and has something to do asks for the bus before it asks for
anything else, and if the bus is not to be had it ends at once: `Program.Seeks`. `screened_perform`
says that of every operation. It is rejected at once, or it is for an empty range, or it seeks the
bus.
-/

namespace NorFlash

variable {α β : Type}

/-- The program makes reports at most before it asks for the bus, and if the bus is not to be had it
ends at once with the given value. -/
def Program.Seeks (busy : α) : Program α → Prop
  | report _ next => next.Seeks busy
  | acquire _ next => next none = done busy
  | done _ | release .. | arm _ | await .. | call .. => False

/-- As `Program.Seeks`, for an action, which then fails. -/
abbrev Action.Seeks (action : Action α) : Prop :=
  Program.Seeks (.error .busy) action.run

/-- The program ends at once with a rejection, or there is nothing to do, or it seeks the bus. -/
def Program.Screened (rejected : α → Prop) (empty : Prop) (busy : α) (program : Program α) : Prop :=
  (∃ value, program = pure value ∧ rejected value) ∨ empty ∨ program.Seeks busy

/-- As `Program.Screened`, for an action. -/
abbrev Action.Screened (empty : Prop) (action : Action α) : Prop :=
  Program.Screened Rejected empty (.error .busy) action.run

namespace Program

variable {program : Program α} {busy : α}

/-- What follows a program that seeks the bus returns the value it is given. -/
theorem Seeks.bind {next : α → Program β} {last : β} (h : program.Seeks busy)
    (hnext : next busy = pure last) : (program >>= next).Seeks last := by
  show (program.bind next).Seeks last
  induction program with
  | acquire patience rest ih =>
      show (rest none).bind next = done last
      rw [show rest none = done busy from h]
      exact hnext
  | report count rest ih => exact ih h
  | done | release | arm | await | call => exact absurd h id

/-- A program that seeks the bus does so with another value. -/
theorem Seeks.map (h : program.Seeks busy) (change : α → β) :
    (change <$> program).Seeks (change busy) := by
  rw [map_eq_pure_bind]
  exact h.bind rfl

/-- Dropping its reports, a program seeks the bus as before. -/
theorem Seeks.silenced (h : program.Seeks busy) : program.silenced.Seeks busy := by
  induction program with
  | acquire patience rest ih =>
      show (rest none).silenced = done busy
      rw [show rest none = done busy from h]
      rfl
  | report count rest ih => exact ih h
  | done | release | arm | await | call => exact absurd h id

/-- A program is screened as before under a change of its value. -/
theorem Screened.map {rejected : α → Prop} {turned : β → Prop} {empty nothing : Prop}
    (h : program.Screened rejected empty busy) {change : α → β}
    (hchange : ∀ value, rejected value → turned (change value)) (hempty : empty → nothing) :
    (change <$> program).Screened turned nothing (change busy) := by
  obtain ⟨value, rfl, hvalue⟩ | hnone | hseeks := h
  · exact .inl ⟨change value, rfl, hchange value hvalue⟩
  · exact .inr (.inl (hempty hnone))
  · exact .inr (.inr (hseeks.map change))

end Program

namespace Action

variable {action : Action α} {empty : Prop}

/-- An action that seeks the bus fails before anything that follows. -/
theorem Seeks.bind (h : action.Seeks) (next : α → Action β) : Action.Seeks (action >>= next) :=
  Program.Seeks.bind h rfl

/-- A list of actions that seek the bus does so, unless it is empty. -/
theorem seeks_forM {list : List α} {action : α → Action Unit} (hlist : list ≠ [])
    (h : ∀ item ∈ list, (action item).Seeks) : Action.Seeks (list.forM action) := by
  cases list with
  | nil => exact absurd rfl hlist
  | cons first rest => exact (h first List.mem_cons_self).bind _

/-- A list of actions that return values seeks the bus, unless it is empty. -/
theorem seeks_mapM {list : List α} {action : α → Action β} (hlist : list ≠ [])
    (h : ∀ item ∈ list, (action item).Seeks) : Action.Seeks (list.mapM action) := by
  rw [← List.mapM'_eq_mapM]
  cases list with
  | nil => exact absurd rfl hlist
  | cons first rest => exact (h first List.mem_cons_self).bind _

/-- An action that reports to nobody is screened as before. -/
theorem Screened.silenced (h : action.Screened empty) : action.silenced.Screened empty := by
  obtain ⟨value, hvalue, hrejected⟩ | hempty | hseeks := h
  · refine .inl ⟨value, ?_, hrejected⟩
    show action.run.silenced = pure value
    rw [hvalue]
    rfl
  · exact .inr (.inl hempty)
  · exact .inr (.inr (Program.Seeks.silenced hseeks))

/-- An action may go on knowing what a check found, if what the check denies is rejected. -/
theorem screened_ofExcept_bind {result : Except Fault α} {next : α → Action β}
    (hrejection : ∀ fault, result = .error fault → fault.isRejection = true)
    (h : ∀ value, result = .ok value → (next value).Screened empty) :
    Action.Screened empty (MonadExcept.ofExcept result >>= next) := by
  cases result with
  | ok value => exact h value rfl
  | error fault =>
      exact .inl ⟨.error fault, rfl, rejected_error_iff.mpr (hrejection fault rfl)⟩

end Action

namespace Engine

variable {engine : Engine} {device : Descriptor} {address : UInt32} {length : Nat}
  {buffer : Bytes} {fault : Fault}

/-! ## What is denied is rejected -/

/-- The lack of a device is a rejection. -/
theorem isRejection_of_requireDevice (h : engine.requireDevice = .error fault) :
    fault.isRejection = true := by
  unfold requireDevice at h
  split at h
  · cases h
  · obtain rfl := Except.error.inj h
    rfl

/-- A range outside the device is a rejection. -/
theorem isRejection_of_checkRange (h : engine.checkRange address length = .error fault) :
    fault.isRejection = true := by
  unfold checkRange at h
  dsimp only at h
  split at h
  · cases h
  · obtain rfl := Except.error.inj h
    rfl

/-- A sector outside the device is a rejection. -/
theorem isRejection_of_sectorAddress {sector : UInt32}
    (h : engine.sectorAddress sector = .error fault) : fault.isRejection = true := by
  unfold sectorAddress at h
  cases hdevice : engine.requireDevice with
  | error other =>
      rw [hdevice] at h
      obtain rfl : other = fault := Except.error.inj h
      exact isRejection_of_requireDevice hdevice
  | ok device =>
      rw [hdevice] at h
      simp only [bind, Except.bind] at h
      split at h
      · cases h
      · obtain rfl := Except.error.inj h
        rfl

/-- Without a device an action that asks for it first is rejected. -/
theorem screened_requireDevice_bind {empty : Prop} {next : Action α}
    (h : ∀ device, engine.requireDevice = .ok device → next.Screened empty) :
    Action.Screened empty
      (discard (MonadExcept.ofExcept engine.requireDevice : Action Descriptor) >>= fun _ =>
        next) := by
  cases hdevice : engine.requireDevice with
  | error fault =>
      exact .inl ⟨.error fault, rfl,
        rejected_error_iff.mpr (isRejection_of_requireDevice hdevice)⟩
  | ok device => exact h device hdevice

/-! ## Operations -/

/-- An action on the bus begins by asking for it. -/
theorem seeks_holdingBus (engine : Engine) (action : BusAction α) :
    (engine.holdingBus action).Seeks :=
  rfl

/-- A read into a buffer that passes its checks seeks the bus, and keeps the buffer. -/
theorem seeks_readInto (hdevice : engine.requireDevice = .ok device) (hbuffer : buffer ≠ [])
    (hrange : engine.checkRange address buffer.length = .ok ()) :
    (engine.readInto address buffer).Seeks (.error .busy, buffer) := by
  unfold readInto
  simp only [hdevice, if_neg hbuffer, hrange]
  exact Program.Seeks.bind (seeks_holdingBus engine _) rfl

/-- A read into zeros that passes its checks seeks the bus. -/
theorem seeks_readZeroed (hdevice : engine.requireDevice = .ok device) (hlength : length ≠ 0)
    (hrange : engine.checkRange address length = .ok ()) :
    (engine.readZeroed address length).Seeks := by
  have hinto : (engine.readInto address (List.replicate length 0)).Seeks
      (.error .busy, List.replicate length 0) :=
    seeks_readInto hdevice (by simpa using hlength) (by rwa [List.length_replicate])
  exact Program.Seeks.bind (hinto.bind rfl) rfl

/-- A read is rejected, empty, or seeks the bus. -/
theorem screened_read (engine : Engine) (address : UInt32) (length : Nat) :
    (engine.read address length).Screened (length = 0) := by
  refine screened_requireDevice_bind fun device hdevice =>
    Action.screened_ofExcept_bind (fun _ => isRejection_of_checkRange) fun _ hrange => ?_
  by_cases hlength : length = 0
  · exact .inr (.inl hlength)
  · exact .inr (.inr (seeks_readZeroed hdevice hlength hrange))

/-- A read in parts is rejected, empty, or seeks the bus. -/
theorem screened_readReporting (engine : Engine) (address : UInt32) (length : Nat) :
    (engine.readReporting address length).Screened (length = 0) := by
  refine screened_requireDevice_bind fun device hdevice =>
    Action.screened_ofExcept_bind (fun _ => isRejection_of_checkRange) fun _ hrange => ?_
  by_cases hlength : length = 0
  · exact .inr (.inl hlength)
  · refine .inr (.inr (Action.Seeks.bind (Action.seeks_mapM ?_ fun span hspan => ?_) _))
    · have hadjoins := adjoining_spans length (transferSize_pos length)
      exact hadjoins.ne_nil (Nat.pos_of_ne_zero hlength)
    · obtain ⟨hpart, hcheck⟩ := checkRange_span hrange hspan
      exact (seeks_readZeroed hdevice hpart hcheck).bind _

/-- A page program on a known device seeks the bus. -/
theorem seeks_pageProgram (hdevice : engine.requireDevice = .ok device) (address : UInt32)
    (bytes : Bytes) : (engine.pageProgram address bytes).Seeks := by
  unfold pageProgram
  rw [requireDevice_bind hdevice]
  exact seeks_holdingBus engine _

/-- A page program is rejected, or seeks the bus. -/
theorem screened_pageProgram (engine : Engine) (address : UInt32) (bytes : Bytes) :
    (engine.pageProgram address bytes).Screened False :=
  screened_requireDevice_bind fun _ _ => .inr (.inr (seeks_holdingBus engine _))

/-- Data that is not empty has a first piece. -/
theorem screened_writeReporting (engine : Engine) (address : UInt32) (bytes : Bytes) :
    (engine.writeReporting address bytes).Screened (bytes.length = 0) := by
  refine screened_requireDevice_bind fun device hdevice => ?_
  by_cases hbytes : bytes = []
  · exact .inr (.inl (congrArg List.length hbytes))
  · rw [if_neg hbytes]
    refine Action.screened_ofExcept_bind (fun _ => isRejection_of_checkRange) fun _ _ =>
      .inr (.inr (Action.seeks_forM ?_ fun piece _ => ?_))
    · rw [Page.cut_of_ne_nil _ hbytes]
      exact List.cons_ne_nil _ _
    · exact (seeks_pageProgram hdevice _ _).bind _

/-- An erase of a unit that passes its checks seeks the bus. -/
theorem seeks_eraseUnit (hdevice : engine.requireDevice = .ok device)
    (hrange : engine.checkRange address 1 = .ok ()) (area : EraseUnit) :
    (engine.erase address (.unit area)).Seeks := by
  unfold erase
  rw [requireDevice_bind hdevice, if_neg (by simp), hrange]
  exact seeks_holdingBus engine _

/-- An erase is rejected, or seeks the bus. -/
theorem screened_erase (engine : Engine) (address : UInt32) (kind : EraseKind) :
    (engine.erase address kind).Screened False := by
  refine screened_requireDevice_bind fun device hdevice => ?_
  cases kind with
  | unit area =>
      exact Action.screened_ofExcept_bind (fun _ => isRejection_of_checkRange) fun _ _ =>
        .inr (.inr (seeks_holdingBus engine _))
  | chip => exact .inr (.inr (seeks_holdingBus engine _))

/-- A range that is not empty has a first unit, which begins within it. -/
theorem screened_eraseRangeReporting (engine : Engine) (address : UInt32) (length : Nat) :
    (engine.eraseRangeReporting address length).Screened (length = 0) := by
  refine screened_requireDevice_bind fun device hdevice => ?_
  by_cases hlength : length = 0
  · exact .inr (.inl hlength)
  · rw [if_neg hlength]
    refine Action.screened_ofExcept_bind (fun _ => isRejection_of_checkRange) fun _ hrange =>
      .inr (.inr ?_)
    obtain ⟨unit, hunit⟩ := ErasePlan.choose_of_ne_nil (show EraseUnit.all ≠ [] by decide)
      address.toNat (address.toNat + length)
    have hplan : erasePlan address length = _ := ErasePlan.covering_of_lt (by omega) hunit
    have hbase := toNat_ofNat_le (unit.baseOf address.toNat)
    have hposition := unit.baseOf_le address.toNat
    have hfirst := checkRange_of_le hrange
      (show (UInt32.ofNat (unit.baseOf address.toNat)).toNat + 1 ≤ address.toNat + length by omega)
    rw [hplan]
    exact (seeks_eraseUnit hdevice hfirst unit).bind _

/-- The second check finds what the first one found. -/
theorem screened_eraseRangeMetered (engine : Engine) (address : UInt32) (length : Nat) :
    (engine.eraseRangeMetered address length).Screened (length = 0) :=
  screened_requireDevice_bind fun _ _ =>
    Action.screened_ofExcept_bind (fun _ => isRejection_of_checkRange) fun _ _ =>
      Action.Screened.silenced (engine.screened_eraseRangeReporting address length)

/-- What is done at the address of a sector is screened if it is at every address. -/
theorem screened_sectorAddress_bind {empty : Prop} {sector : UInt32} {next : UInt32 → Action α}
    (h : ∀ address, (next address).Screened empty) :
    Action.Screened empty (MonadExcept.ofExcept (engine.sectorAddress sector) >>= next) :=
  Action.screened_ofExcept_bind (fun _ => isRejection_of_sectorAddress) fun address _ => h address

/-- A read into a buffer is rejected, empty, or seeks the bus. -/
theorem screened_readInto (engine : Engine) (address : UInt32) (buffer : Bytes) :
    (engine.readInto address buffer).Screened (fun ended => Rejected ended.1)
      (buffer.length = 0) (.error .busy, buffer) := by
  cases hdevice : engine.requireDevice with
  | error fault =>
      refine .inl ⟨(.error fault, buffer), ?_, fault, rfl, isRejection_of_requireDevice hdevice⟩
      unfold readInto
      rw [hdevice]
  | ok device =>
      by_cases hbuffer : buffer = []
      · exact .inr (.inl (congrArg List.length hbuffer))
      · cases hrange : engine.checkRange address buffer.length with
        | error fault =>
            refine .inl ⟨(.error fault, buffer), ?_, fault, rfl, isRejection_of_checkRange hrange⟩
            unfold readInto
            simp only [hdevice, if_neg hbuffer, hrange]
        | ok _ => exact .inr (.inr (seeks_readInto hdevice hbuffer hrange))

/-- Mapping is rejected, or seeks the bus. -/
theorem screened_enterMapped (engine : Engine) : engine.enterMapped.Screened False :=
  Action.screened_ofExcept_bind (fun _ => isRejection_of_requireDevice) fun _ _ =>
    .inr (.inr (seeks_holdingBus engine _))

end Engine

/-- An outcome without a value is screened as its action. -/
theorem Action.Screened.ofUnit {action : Action Unit} {empty nothing : Prop}
    (h : action.Screened empty) (hempty : empty → nothing) :
    Program.Screened Outcome.Rejected nothing ⟨.error .busy, none⟩
      (Outcome.ofUnit <$> action.run) := by
  refine Program.Screened.map h ?_ hempty
  rintro _ ⟨fault, rfl, hfault⟩
  exact ⟨fault, rfl, hfault⟩

/-- An outcome with a value is screened as its action. -/
theorem Action.Screened.ofValue {action : Action α} {empty nothing : Prop}
    (h : action.Screened empty) (payload : α → Payload) (hempty : empty → nothing) :
    Program.Screened Outcome.Rejected nothing ⟨.error .busy, none⟩
      (Outcome.ofValue payload <$> action.run) := by
  refine Program.Screened.map h ?_ hempty
  rintro _ ⟨fault, rfl, hfault⟩
  exact ⟨fault, rfl, hfault⟩

/-- An action that has nothing to check seeks the bus. -/
theorem Action.Seeks.screened {action : Action α} (h : action.Seeks) : action.Screened False :=
  .inr (.inr h)

namespace Engine

variable (engine : Engine)

/-- An operation is rejected at once, or it is for an empty range, or it seeks the bus. -/
theorem screened_perform (operation : Operation) :
    (engine.perform operation).Screened Outcome.Rejected (operation.count? = some 0)
      ⟨.error .busy, operation.buffer?⟩ := by
  cases operation with
  | readId => exact (seeks_holdingBus engine _).screened.ofValue .id False.elim
  | sleep enter => exact (seeks_holdingBus engine _).screened.ofUnit False.elim
  | reset => exact (seeks_holdingBus engine _).screened.ofUnit False.elim
  | enterMapped => exact engine.screened_enterMapped.ofUnit False.elim
  | exitMapped => exact (seeks_holdingBus engine _).screened.ofUnit False.elim
  | read address length =>
      exact (engine.screened_read address length).ofValue .bytes (congrArg some)
  | readInto address buffer =>
      refine Program.Screened.map (engine.screened_readInto address buffer) ?_ (congrArg some)
      rintro ⟨_, after⟩ ⟨fault, rfl, hfault⟩
      exact ⟨fault, rfl, hfault⟩
  | readReporting address length =>
      exact (engine.screened_readReporting address length).ofValue .bytes (congrArg some)
  | readMetered address length =>
      exact (engine.screened_readReporting address length).silenced.ofValue .bytes (congrArg some)
  | readSector sector length =>
      have hread (address : UInt32) := engine.screened_read address length
      exact Action.Screened.ofValue (screened_sectorAddress_bind hread) .bytes (congrArg some)
  | write address bytes | writeMetered address bytes =>
      exact (engine.screened_writeReporting address bytes).silenced.ofUnit (congrArg some)
  | writeReporting address bytes =>
      exact (engine.screened_writeReporting address bytes).ofUnit (congrArg some)
  | writeSector sector bytes =>
      have hwrite (address : UInt32) : (engine.write address bytes).Screened (bytes.length = 0) :=
        (engine.screened_writeReporting address bytes).silenced
      exact Action.Screened.ofUnit (screened_sectorAddress_bind hwrite) (congrArg some)
  | pageProgram address bytes =>
      exact (engine.screened_pageProgram address bytes).ofUnit False.elim
  | erase address kind => exact (engine.screened_erase address kind).ofUnit False.elim
  | eraseChip => exact (engine.screened_erase 0 .chip).ofUnit False.elim
  | eraseRange address length =>
      exact (engine.screened_eraseRangeReporting address length).silenced.ofUnit (congrArg some)
  | eraseRangeReporting address length =>
      exact (engine.screened_eraseRangeReporting address length).ofUnit (congrArg some)
  | eraseRangeMetered address length =>
      exact (engine.screened_eraseRangeMetered address length).ofUnit (congrArg some)
  | eraseSector sector =>
      have herase (address : UInt32) := engine.screened_erase address (.unit .sector)
      exact Action.Screened.ofUnit (screened_sectorAddress_bind herase) False.elim

end Engine

end NorFlash
