import NorFlash.Engine.Operation
import NorFlash.Proofs.Engine.Custody
import NorFlash.Proofs.Engine.Reading
import NorFlash.Proofs.Erase.Cover

/-!
# Checks come first

An operation checks what it is asked before it asks anything itself, and its inner operations pass
the checks that it has passed. So it ends at once or it is not rejected: `checked_perform`, and
`checked_serve` for any request. `ranges_perform` says which of the two it is for an operation on a
range, and `perform_outOfRange_iff` reads off it that the range is checked exactly.
-/

namespace NorFlash

variable {σ α β : Type}

/-- A checked program that ends with an excluded value has said nothing and changed nothing. -/
theorem Program.Checked.untouched {program : Program α} {excluded : α → Prop}
    (h : program.Checked excluded) {environment : Environment σ} {state : σ}
    (hexcluded : excluded (program.run environment state).1) :
    program.dialogue environment state = [] ∧ (program.run environment state).2 = state := by
  obtain ⟨value, rfl⟩ | h := h
  · exact ⟨rfl, rfl⟩
  · obtain ⟨_, -, -, hvalue⟩ := Follows.run h environment state
    exact absurd hexcluded hvalue

/-- The request was turned down for what it asks. -/
def Outcome.Rejected (outcome : Outcome) : Prop :=
  NorFlash.Rejected outcome.result

/-- An outcome without a value is rejected if its result is. -/
theorem Outcome.rejected_ofUnit {result : Except Fault Unit} (h : (ofUnit result).Rejected) :
    NorFlash.Rejected result := by
  cases result with
  | ok value => exact absurd h (not_rejected_ok _)
  | error fault => exact rejected_error_iff.mpr (rejected_error_iff.mp h)

/-- An outcome with a value is rejected if its result is. -/
theorem Outcome.rejected_ofValue {payload : α → Payload} {result : Except Fault α}
    (h : (ofValue payload result).Rejected) : NorFlash.Rejected result := by
  cases result with
  | ok value => exact absurd h (not_rejected_ok _)
  | error fault => exact rejected_error_iff.mpr (rejected_error_iff.mp h)

/-- An outcome with a buffer is rejected if its result is. -/
theorem Outcome.rejected_withBuffer {ended : Except Fault Unit × Bytes}
    (h : Outcome.Rejected ⟨ended.1.map fun _ => .nothing, some ended.2⟩) :
    NorFlash.Rejected ended.1 :=
  rejected_ofUnit h

namespace Engine

/-! ## The range of an operation -/

variable {engine : Engine} {device : Descriptor} {address : UInt32} {length : Nat}

/-- A range passes the check exactly if it ends within the capacity. -/
theorem checkRange_eq_ok_iff :
    engine.checkRange address length = .ok () ↔ address.toNat + length ≤ engine.capacity := by
  unfold checkRange
  dsimp only
  split <;> simp [*]

/-- What ends no later than a range that is within the device is within it too. -/
theorem checkRange_of_le {inner : UInt32} {count : Nat}
    (h : engine.checkRange address length = .ok ())
    (hle : inner.toNat + count ≤ address.toNat + length) :
    engine.checkRange inner count = .ok () :=
  checkRange_eq_ok_iff.mpr (Nat.le_trans hle (checkRange_eq_ok_iff.mp h))

/-- A sector whose address fits a word is found there. -/
theorem sectorAddress_of_le {sector : UInt32} (hdevice : engine.requireDevice = .ok device)
    (h : sector.toNat * device.sectorSize.toNat ≤ lastAddress) :
    engine.sectorAddress sector =
      .ok (UInt32.ofNat (sector.toNat * device.sectorSize.toNat)) := by
  unfold sectorAddress
  rw [hdevice]
  exact if_pos h

/-- A number cut to a word does not grow. -/
theorem toNat_ofNat_le (n : Nat) : (UInt32.ofNat n).toNat ≤ n := by
  rw [UInt32.toNat_ofNat']
  exact Nat.mod_le ..

/-- No part of a divided range is empty, and each passes the check that the whole has passed. -/
theorem checkRange_span {span : Nat × Nat} (h : engine.checkRange address length = .ok ())
    (hspan : span ∈ spans length (transferSize length)) :
    span.2 ≠ 0 ∧ engine.checkRange (UInt32.ofNat (address.toNat + span.1)) span.2 = .ok () := by
  have hadjoins := adjoining_spans length (transferSize_pos length)
  obtain ⟨-, hpositive, hwithin⟩ := hadjoins.within hspan
  have haddress := toNat_ofNat_le (address.toNat + span.1)
  exact ⟨Nat.ne_of_gt hpositive, checkRange_of_le h (by omega)⟩

/-- The program is denied at once if the range is not within the device, and proceeds otherwise. -/
def Ranges (engine : Engine) (address : UInt32) (length : Nat) (excluded : α → Prop)
    (deny : Fault → α) (program : Program α) : Prop :=
  match engine.checkRange address length with
  | .error fault => program = pure (deny fault)
  | .ok () => program.Proceeds .away excluded

/-- As `Ranges`, for an action, which is denied by being rejected. -/
abbrev RangesAction (engine : Engine) (address : UInt32) (length : Nat) (action : Action α) :
    Prop :=
  engine.Ranges address length Rejected .error action.run

section Ranges

variable {excluded : α → Prop} {deny : Fault → α} {program : Program α} {action : Action α}

/-- A program with a range is checked. -/
theorem Ranges.checked (h : engine.Ranges address length excluded deny program) :
    program.Checked excluded := by
  unfold Ranges at h
  split at h
  · exact .inl ⟨_, h⟩
  · exact .inr h

/-- A program whose range passes the check proceeds. -/
theorem Ranges.proceeds (h : engine.Ranges address length excluded deny program)
    (hrange : engine.checkRange address length = .ok ()) : program.Proceeds .away excluded := by
  unfold Ranges at h
  rwa [hrange] at h

/-- Leaving the reports out does not change what the range decides. -/
theorem Ranges.silenced (h : engine.Ranges address length excluded deny program) :
    engine.Ranges address length excluded deny program.silenced := by
  unfold Ranges at h ⊢
  split at h
  · rw [h]
    rfl
  · exact h.silenced

/-- Changing the value does not change what the range decides. -/
theorem Ranges.map {shunned : β → Prop} {change : α → β}
    (h : engine.Ranges address length excluded deny program)
    (hchange : ∀ value, shunned (change value) → excluded value) :
    engine.Ranges address length shunned (change ∘ deny) (change <$> program) := by
  unfold Ranges at h ⊢
  split at h
  · rw [h]
    rfl
  · exact h.map hchange

/-- An action that checks its range first has that range. -/
theorem ranges_check_bind {next : Unit → Action α}
    (h : engine.checkRange address length = .ok () → (next ()).Proceeds .away) :
    engine.RangesAction address length
      (MonadExcept.ofExcept (engine.checkRange address length) >>= next) := by
  unfold RangesAction Ranges
  cases hrange : engine.checkRange address length with
  | error fault => rfl
  | ok _ => exact h hrange

/-- Nothing is rejected if there is a device, and neither is what is done once it is known. -/
theorem requireDevice_bind {next : Action α} (hdevice : engine.requireDevice = .ok device) :
    (discard (MonadExcept.ofExcept engine.requireDevice : Action Descriptor) >>= fun _ => next) =
      next := by
  rw [hdevice]
  rfl

/-- An action that asks for the device first ends at once without one. -/
theorem checked_of_requireDevice {next : Action α}
    (haction : action =
      (discard (MonadExcept.ofExcept engine.requireDevice : Action Descriptor) >>= fun _ => next))
    (h : ∀ device, engine.requireDevice = .ok device → action.Checked) : action.Checked := by
  cases hdevice : engine.requireDevice with
  | error fault =>
      refine .inl ⟨.error fault, ?_⟩
      rw [haction, hdevice]
      rfl
  | ok device => exact h device hdevice

end Ranges

/-! ## Operations -/

variable (engine : Engine)

/-- Reading the identification keeps custody of the bus. -/
theorem proceeds_readId : engine.readId.Proceeds .away :=
  proceeds_withBus ((BusAction.proceeds_transfer rfl _).bind fun _ => BusAction.proceeds_pure _)

/-- Putting to sleep and waking keep custody of the bus. -/
theorem proceeds_sleep (enter : Bool) : (engine.sleep enter).Proceeds .away :=
  proceeds_withBus (BusAction.proceeds_width_bind fun _ => BusAction.proceeds_instruct _ _)

/-- A reset keeps custody of the bus. -/
theorem proceeds_reset : engine.reset.Proceeds .away :=
  proceeds_withBus (BusAction.proceeds_width_bind fun _ =>
    (BusAction.proceeds_instruct _ _).bind fun _ => (BusAction.proceeds_instruct _ _).bind fun _ =>
      BusAction.proceeds_setWidth _)

/-- The flag is set exactly if the controller has been mapped. -/
theorem checked_enterMapped : engine.enterMapped.Checked := by
  refine Action.checked_ofExcept_bind fun device _ => .inr ?_
  refine proceeds_holdingBus (by simp [Rejected, Fault.isRejection]) ?_
  rintro ⟨width, mapped⟩
  have hmap : Program.Follows Custody.next
      (fun (ended : Except Fault Unit × BusState) after =>
        after = .holding ended.2.mapped ∧ ¬Rejected ended.1)
      ((do
        discard <| BusAction.call (.map ((readCommand device width).atAddress 0 .quad))
        modify fun bus => { bus with mapped := true } : BusAction Unit).run.run ⟨width, false⟩)
      (.holding false) := by
    intro reply
    cases reply with
    | error cause => exact ⟨.holding false, rfl, rfl, by simp [Rejected, Fault.isRejection]⟩
    | ok received => exact ⟨.holding true, rfl, rfl, not_rejected_ok ()⟩
  cases mapped with
  | false => exact hmap
  | true => exact fun _ => ⟨.holding false, rfl, hmap⟩

/-- Ending a mapping keeps custody of the bus. -/
theorem proceeds_exitMapped : engine.exitMapped.Proceeds .away :=
  proceeds_holdingBus (by simp [Rejected, Fault.isRejection]) fun bus _ =>
    ⟨.holding false, by simp [Custody.next, BusCall.maps], rfl, not_rejected_ok ()⟩

section Reading

variable {engine}

/-- A fetch keeps custody of the bus. -/
theorem proceeds_fetch (device : Descriptor) (address : UInt32) (length : Nat) :
    (engine.fetch device address length).run.Proceeds .away (RejectedIn Prod.snd) :=
  proceedsWith_withBus (by simp [RejectedIn, Fault.isRejection])
    (BusAction.proceeds_width_bind fun _ => BusAction.proceeds_exchange rfl _)

/-- A read into a buffer has the range that the buffer takes. -/
theorem ranges_readInto (hdevice : engine.requireDevice = .ok device) (address : UInt32)
    {buffer : Bytes} (hbuffer : buffer ≠ []) :
    engine.Ranges address buffer.length (fun ended => Rejected ended.1)
      (fun fault => (.error fault, buffer)) (engine.readInto address buffer) := by
  unfold Ranges readInto
  simp only [hdevice, if_neg hbuffer]
  cases engine.checkRange address buffer.length with
  | error fault => rfl
  | ok _ =>
      refine Program.Proceeds.bind (proceeds_fetch device address buffer.length)
        fun result hresult => ?_
      cases result with
      | ok ended => exact Program.proceeds_pure hresult
      | error fault => exact Program.proceeds_pure (mt rejected_error_iff.mp hresult)

/-- An empty buffer is left alone. -/
theorem readInto_nil (hdevice : engine.requireDevice = .ok device) (address : UInt32) :
    engine.readInto address [] = pure (.ok (), []) := by
  unfold readInto
  rw [hdevice]
  rfl

/-- No bytes are read from any address of the device, and from the one after it. -/
theorem read_zero (hdevice : engine.requireDevice = .ok device)
    (haddress : address.toNat ≤ engine.capacity) : engine.read address 0 = pure [] := by
  unfold read readZeroed
  rw [hdevice, checkRange_eq_ok_iff.mpr haddress, List.replicate_zero,
    readInto_nil hdevice]
  rfl

/-- A read into a buffer is checked first. -/
theorem checked_readInto (engine : Engine) (address : UInt32) (buffer : Bytes) :
    (engine.readInto address buffer).Checked fun ended => Rejected ended.1 := by
  cases hdevice : engine.requireDevice with
  | error fault =>
      refine .inl ⟨(.error fault, buffer), ?_⟩
      unfold readInto
      rw [hdevice]
  | ok device =>
      by_cases hbuffer : buffer = []
      · exact .inl ⟨_, hbuffer ▸ readInto_nil hdevice address⟩
      · exact (ranges_readInto hdevice address hbuffer).checked

/-- A read into zeros proceeds if its range passed the check. -/
theorem proceeds_readZeroed (hdevice : engine.requireDevice = .ok device)
    (hrange : engine.checkRange address length = .ok ()) :
    (engine.readZeroed address length).Proceeds .away := by
  have hinto : (engine.readInto address (List.replicate length 0)).Proceeds .away
      fun ended => Rejected ended.1 := by
    by_cases hlength : length = 0
    · subst hlength
      exact readInto_nil hdevice address ▸ Program.proceeds_pure (not_rejected_ok ())
    · refine (ranges_readInto hdevice address (by simpa using hlength)).proceeds ?_
      rwa [List.length_replicate]
  have hread : Program.Proceeds .away (RejectedIn Prod.fst)
      (liftM (engine.readInto address (List.replicate length 0)) :
        Action (Except Fault Unit × Bytes)).run :=
    Program.Proceeds.bind hinto fun ended hended =>
      Program.proceeds_pure fun h : RejectedIn Prod.fst (.ok ended) => hended h
  refine Program.Proceeds.bind hread fun result hresult => ?_
  obtain fault | ⟨fault | _, bytes⟩ := result
  · exact Program.proceeds_pure (mt rejected_error_iff.mp hresult)
  · exact Program.proceeds_pure (not_rejected_error hresult)
  · exact Program.proceeds_pure (not_rejected_ok bytes)

/-- A read has the range it asks for. -/
theorem ranges_read (hdevice : engine.requireDevice = .ok device) (address : UInt32)
    (length : Nat) : engine.RangesAction address length (engine.read address length) := by
  unfold read
  rw [requireDevice_bind hdevice]
  exact ranges_check_bind fun hrange => proceeds_readZeroed hdevice hrange

/-- A read is checked first. -/
theorem checked_read (engine : Engine) (address : UInt32) (length : Nat) :
    (engine.read address length).Checked :=
  checked_of_requireDevice rfl fun _ hdevice => (ranges_read hdevice address length).checked

/-- A read in parts has the range it asks for. -/
theorem ranges_readReporting (hdevice : engine.requireDevice = .ok device) (address : UInt32)
    (length : Nat) : engine.RangesAction address length (engine.readReporting address length) := by
  unfold readReporting
  rw [requireDevice_bind hdevice]
  refine ranges_check_bind fun hrange => (Action.proceeds_report 0).bind fun _ =>
    Action.Proceeds.bind (Action.proceeds_mapM fun span hspan => ?_) fun parts =>
      (Action.proceeds_report length).bind fun _ => Action.proceeds_pure parts.flatten
  refine (proceeds_readZeroed hdevice (checkRange_span hrange hspan).2).bind fun bytes => ?_
  exact (Action.proceeds_report _).bind fun _ => Action.proceeds_pure bytes

/-- A read in parts is checked first. -/
theorem checked_readReporting (engine : Engine) (address : UInt32) (length : Nat) :
    (engine.readReporting address length).Checked :=
  checked_of_requireDevice rfl fun _ hdevice =>
    (ranges_readReporting hdevice address length).checked

/-- A read from a sector is checked first. -/
theorem checked_readSector (engine : Engine) (sector : UInt32) (length : Nat) :
    (engine.readSector sector length).Checked :=
  Action.checked_ofExcept_bind fun address _ => checked_read engine address length

end Reading

section Writing

variable {engine}

/-- Enabling a write keeps custody of the bus. -/
theorem proceeds_enableWrite : enableWrite.Proceeds :=
  BusAction.proceeds_width_bind fun _ => BusAction.proceeds_instruct _ _

/-- Waiting for a chip that is busy keeps custody of the bus. -/
theorem proceeds_waitWhileBusy (patience : Nat) : (waitWhileBusy patience).Proceeds :=
  BusAction.proceeds_width_bind fun _ => (BusAction.proceeds_transfer rfl patience).discard

/-- A page program keeps custody of the bus. -/
theorem proceeds_pageProgram (hdevice : engine.requireDevice = .ok device) (address : UInt32)
    (bytes : Bytes) : (engine.pageProgram address bytes).Proceeds .away := by
  unfold pageProgram
  rw [requireDevice_bind hdevice]
  refine proceeds_withBus (BusAction.proceeds_width_bind fun width => ?_)
  exact proceeds_enableWrite.bind fun _ =>
    (BusAction.proceeds_transfer rfl _).discard.bind fun _ => proceeds_waitWhileBusy _

/-- A page program is checked first. -/
theorem checked_pageProgram (engine : Engine) (address : UInt32) (bytes : Bytes) :
    (engine.pageProgram address bytes).Checked :=
  checked_of_requireDevice rfl fun _ hdevice => .inr (proceeds_pageProgram hdevice address bytes)

/-- A write has the range that its data takes. -/
theorem ranges_writeReporting (hdevice : engine.requireDevice = .ok device) (address : UInt32)
    {bytes : Bytes} (hbytes : bytes ≠ []) :
    engine.RangesAction address bytes.length (engine.writeReporting address bytes) := by
  unfold writeReporting
  rw [requireDevice_bind hdevice, if_neg hbytes]
  refine ranges_check_bind fun _ => (Action.proceeds_report 0).bind fun _ =>
    Action.proceeds_forM fun piece _ => ?_
  exact (proceeds_pageProgram hdevice _ _).bind fun _ => Action.proceeds_report _

/-- Nothing is written for want of data. -/
theorem writeReporting_nil (hdevice : engine.requireDevice = .ok device) (address : UInt32) :
    engine.writeReporting address [] = pure () := by
  unfold writeReporting
  rw [requireDevice_bind hdevice, if_pos rfl]

/-- A write that reports is checked first. -/
theorem checked_writeReporting (engine : Engine) (address : UInt32) (bytes : Bytes) :
    (engine.writeReporting address bytes).Checked := by
  refine checked_of_requireDevice rfl fun _ hdevice => ?_
  by_cases hbytes : bytes = []
  · exact .inl ⟨.ok (), hbytes ▸ writeReporting_nil hdevice address⟩
  · exact (ranges_writeReporting hdevice address hbytes).checked

/-- A write is checked first. -/
theorem checked_write (engine : Engine) (address : UInt32) (bytes : Bytes) :
    (engine.write address bytes).Checked :=
  (checked_writeReporting engine address bytes).silenced

/-- A write to a sector is checked first. -/
theorem checked_writeSector (engine : Engine) (sector : UInt32) (bytes : Bytes) :
    (engine.writeSector sector bytes).Checked :=
  Action.checked_ofExcept_bind fun address _ => checked_write engine address bytes

end Writing

section Erasing

variable {engine}

/-- An erase of a unit has the range of its one address. -/
theorem ranges_erase (hdevice : engine.requireDevice = .ok device) (address : UInt32)
    (area : EraseUnit) :
    engine.RangesAction address 1 (engine.erase address (.unit area)) := by
  unfold erase
  rw [requireDevice_bind hdevice]
  refine ranges_check_bind fun _ => proceeds_withBus (BusAction.proceeds_width_bind fun width => ?_)
  exact proceeds_enableWrite.bind fun _ => (BusAction.proceeds_command _).discard.bind fun _ =>
    proceeds_waitWhileBusy _

/-- An erase is checked first. -/
theorem checked_erase (engine : Engine) (address : UInt32) (kind : EraseKind) :
    (engine.erase address kind).Checked := by
  refine checked_of_requireDevice rfl fun _ hdevice => ?_
  cases kind with
  | unit area => exact (ranges_erase hdevice address area).checked
  | chip =>
      refine .inr ?_
      unfold erase
      rw [requireDevice_bind hdevice]
      refine proceeds_withBus (BusAction.proceeds_width_bind fun width => ?_)
      exact proceeds_enableWrite.bind fun _ => (BusAction.proceeds_command _).discard.bind fun _ =>
        proceeds_waitWhileBusy _

/-- Every erase of a plan is at an address within the range that the plan is for. -/
theorem base_lt_of_mem_covering {units : List EraseUnit} (hunits : units ≠ []) {stop : Nat}
    (position : Nat) :
    ∀ planned ∈ ErasePlan.covering units position stop, planned.base.toNat < stop := by
  refine ErasePlan.covering_induction
    (motive := fun _ plan => ∀ planned ∈ plan, planned.base.toNat < stop) hunits
    (fun _ _ planned hplanned => absurd hplanned List.not_mem_nil)
    (fun position unit rest h _ ih planned hplanned => ?_) position
  rcases List.mem_cons.mp hplanned with rfl | hrest
  · have hbase := toNat_ofNat_le (unit.baseOf position)
    have hposition := unit.baseOf_le position
    dsimp only
    omega
  · exact ih planned hrest

/-- A plan proceeds if each of its erases begins within the device. -/
theorem proceeds_erasePlanned (hdevice : engine.requireDevice = .ok device) (plan : ErasePlan)
    (total : Nat) (hplan : ∀ planned ∈ plan, engine.checkRange planned.base 1 = .ok ()) :
    (engine.erasePlanned plan total).Proceeds .away := by
  induction plan generalizing total with
  | nil => exact Action.proceeds_pure ()
  | cons planned rest ih =>
      have hfirst := (ranges_erase hdevice planned.base planned.unit).proceeds
        (hplan planned List.mem_cons_self)
      exact Action.Proceeds.bind hfirst fun _ => (Action.proceeds_report _).bind fun _ =>
        ih _ fun other hother => hplan other (List.mem_cons_of_mem planned hother)

/-- An erase of a range has that range. -/
theorem ranges_eraseRangeReporting (hdevice : engine.requireDevice = .ok device)
    (address : UInt32) (hlength : length ≠ 0) :
    engine.RangesAction address length (engine.eraseRangeReporting address length) := by
  unfold eraseRangeReporting
  rw [requireDevice_bind hdevice, if_neg hlength]
  refine ranges_check_bind fun hrange => (Action.proceeds_report 0).bind fun _ =>
    proceeds_erasePlanned hdevice _ _ fun planned hplanned => checkRange_of_le hrange ?_
  have hbase := base_lt_of_mem_covering (show EraseUnit.all ≠ [] by decide) _ planned hplanned
  omega

/-- Nothing is erased for an empty range. -/
theorem eraseRangeReporting_zero (hdevice : engine.requireDevice = .ok device)
    (address : UInt32) : engine.eraseRangeReporting address 0 = pure () := by
  unfold eraseRangeReporting
  rw [requireDevice_bind hdevice, if_pos rfl]

/-- An erase of a range that reports is checked first. -/
theorem checked_eraseRangeReporting (engine : Engine) (address : UInt32) (length : Nat) :
    (engine.eraseRangeReporting address length).Checked := by
  refine checked_of_requireDevice rfl fun _ hdevice => ?_
  by_cases hlength : length = 0
  · exact .inl ⟨.ok (), hlength ▸ eraseRangeReporting_zero hdevice address⟩
  · exact (ranges_eraseRangeReporting hdevice address hlength).checked

/-- The range is checked twice, and the second check finds what the first one found. -/
theorem ranges_eraseRangeMetered (hdevice : engine.requireDevice = .ok device)
    (address : UInt32) (length : Nat) :
    engine.RangesAction address length (engine.eraseRangeMetered address length) := by
  unfold eraseRangeMetered
  rw [requireDevice_bind hdevice]
  refine ranges_check_bind fun hrange => Program.Proceeds.silenced ?_
  by_cases hlength : length = 0
  · subst hlength
    rw [eraseRangeReporting_zero hdevice]
    exact Action.proceeds_pure ()
  · exact (ranges_eraseRangeReporting hdevice address hlength).proceeds hrange

/-- A metered erase of a range is checked first. -/
theorem checked_eraseRangeMetered (engine : Engine) (address : UInt32) (length : Nat) :
    (engine.eraseRangeMetered address length).Checked :=
  checked_of_requireDevice rfl fun _ hdevice =>
    (ranges_eraseRangeMetered hdevice address length).checked

/-- An erase of a sector is checked first. -/
theorem checked_eraseSector (engine : Engine) (sector : UInt32) :
    (engine.eraseSector sector).Checked :=
  Action.checked_ofExcept_bind fun address _ => checked_erase engine address (.unit .sector)

end Erasing

end Engine

namespace Operation

/-- The range that an operation is checked for. -/
def range? : Operation → Option (UInt32 × Nat)
  | read address length | readReporting address length | readMetered address length =>
      some (address, length)
  | readInto address buffer => some (address, buffer.length)
  | write address bytes | writeReporting address bytes | writeMetered address bytes =>
      some (address, bytes.length)
  | erase address (.unit _) => some (address, 1)
  | eraseRange address length | eraseRangeReporting address length
  | eraseRangeMetered address length => some (address, length)
  | _ => none

end Operation

/-- An outcome without a value is checked if its action is. -/
theorem Action.Checked.ofUnit {action : Action Unit} (h : action.Checked) :
    Program.Checked Outcome.Rejected (Outcome.ofUnit <$> action.run) :=
  Program.Checked.map h fun _ => Outcome.rejected_ofUnit

/-- An outcome with a value is checked if its action is. -/
theorem Action.Checked.ofValue {action : Action α} (h : action.Checked) (payload : α → Payload) :
    Program.Checked Outcome.Rejected (Outcome.ofValue payload <$> action.run) :=
  Program.Checked.map h fun _ => Outcome.rejected_ofValue

namespace Engine

variable (engine : Engine)

/-- Every operation is checked. -/
theorem checked_perform (operation : Operation) :
    (engine.perform operation).Checked Outcome.Rejected := by
  cases operation with
  | readId => exact Action.Checked.ofValue (.inr engine.proceeds_readId) _
  | sleep enter => exact Action.Checked.ofUnit (.inr (engine.proceeds_sleep enter))
  | reset => exact Action.Checked.ofUnit (.inr engine.proceeds_reset)
  | enterMapped => exact engine.checked_enterMapped.ofUnit
  | exitMapped => exact Action.Checked.ofUnit (.inr engine.proceeds_exitMapped)
  | read address length => exact (engine.checked_read address length).ofValue _
  | readInto address buffer =>
      exact Program.Checked.map (engine.checked_readInto address buffer) fun _ =>
        Outcome.rejected_withBuffer
  | readReporting address length => exact (engine.checked_readReporting address length).ofValue _
  | readMetered address length =>
      exact Action.Checked.ofValue (Program.Checked.silenced
        (engine.checked_readReporting address length)) _
  | readSector sector length => exact (engine.checked_readSector sector length).ofValue _
  | write address bytes | writeMetered address bytes =>
      exact (engine.checked_write address bytes).ofUnit
  | writeReporting address bytes => exact (engine.checked_writeReporting address bytes).ofUnit
  | writeSector sector bytes => exact (engine.checked_writeSector sector bytes).ofUnit
  | pageProgram address bytes => exact (engine.checked_pageProgram address bytes).ofUnit
  | erase address kind => exact (engine.checked_erase address kind).ofUnit
  | eraseChip => exact (engine.checked_erase 0 .chip).ofUnit
  | eraseRange address length =>
      exact Action.Checked.ofUnit (Program.Checked.silenced
        (engine.checked_eraseRangeReporting address length))
  | eraseRangeReporting address length =>
      exact (engine.checked_eraseRangeReporting address length).ofUnit
  | eraseRangeMetered address length =>
      exact (engine.checked_eraseRangeMetered address length).ofUnit
  | eraseSector sector => exact (engine.checked_eraseSector sector).ofUnit

/-- An operation on a range that is not empty is rejected if the range is not within the device, and
is not rejected otherwise. -/
theorem ranges_perform {operation : Operation} (hdevice : engine.requireDevice = .ok device)
    (hrange : operation.range? = some (address, length)) (hlength : length ≠ 0) :
    engine.Ranges address length Outcome.Rejected (fun fault => ⟨.error fault, operation.buffer?⟩)
      (engine.perform operation) := by
  cases operation with
  | read =>
      cases hrange
      exact (ranges_read hdevice _ _).map fun _ => Outcome.rejected_ofValue
  | readReporting =>
      cases hrange
      exact (ranges_readReporting hdevice _ _).map fun _ => Outcome.rejected_ofValue
  | readMetered =>
      cases hrange
      exact (ranges_readReporting hdevice _ _).silenced.map fun _ => Outcome.rejected_ofValue
  | readInto =>
      cases hrange
      exact (ranges_readInto hdevice _ (mt (congrArg List.length) hlength)).map fun _ =>
        Outcome.rejected_withBuffer
  | write | writeMetered =>
      cases hrange
      exact (ranges_writeReporting hdevice _ (mt (congrArg List.length) hlength)).silenced.map
        fun _ => Outcome.rejected_ofUnit
  | writeReporting =>
      cases hrange
      exact (ranges_writeReporting hdevice _ (mt (congrArg List.length) hlength)).map fun _ =>
        Outcome.rejected_ofUnit
  | erase place kind =>
      cases kind with
      | unit area =>
          cases hrange
          exact (ranges_erase hdevice _ area).map fun _ => Outcome.rejected_ofUnit
      | chip => simp [Operation.range?] at hrange
  | eraseRange =>
      cases hrange
      exact (ranges_eraseRangeReporting hdevice _ hlength).silenced.map fun _ =>
        Outcome.rejected_ofUnit
  | eraseRangeReporting =>
      cases hrange
      exact (ranges_eraseRangeReporting hdevice _ hlength).map fun _ => Outcome.rejected_ofUnit
  | eraseRangeMetered =>
      cases hrange
      exact (ranges_eraseRangeMetered hdevice _ _).map fun _ => Outcome.rejected_ofUnit
  | _ => simp [Operation.range?] at hrange

/-- Whatever the surroundings answer, an operation on a range that is not empty is rejected for its
address exactly if the range ends beyond the capacity, and the fault carries the last address of the
range, or the largest address if that is beyond it. -/
theorem perform_outOfRange_iff {operation : Operation} {identity : Identity}
    (hidentity : engine.identity = some identity)
    (hrange : operation.range? = some (address, length)) (hlength : length ≠ 0)
    (environment : Environment σ) (state : σ) (last : UInt32) :
    ((engine.perform operation).run environment state).1.result =
        .error (.addressOutOfRange last) ↔
      identity.device.capacity < address.toNat + length ∧
        last = UInt32.ofNat (min (address.toNat + length - 1) lastAddress) := by
  have hcapacity := capacity_of_identity hidentity
  have hranges := engine.ranges_perform (requireDevice_of_identity hidentity) hrange hlength
  by_cases hwithin : address.toNat + length ≤ identity.device.capacity
  · have hproceeds := hranges.proceeds (checkRange_eq_ok_iff.mpr (hcapacity ▸ hwithin))
    obtain ⟨_, -, -, houtcome⟩ := Program.Follows.run hproceeds environment state
    refine ⟨fun hresult => absurd ⟨_, hresult, rfl⟩ houtcome, fun h => ?_⟩
    exact absurd h.1 (Nat.not_lt.mpr hwithin)
  · have hcheck : engine.checkRange address length = .error (.addressOutOfRange
        (UInt32.ofNat (min (address.toNat + length - 1) lastAddress))) := by
      simp [checkRange, hcapacity, hwithin]
    unfold Ranges at hranges
    rw [hcheck] at hranges
    rw [hranges]
    simpa [Program.run, pure, eq_comm] using fun _ => Nat.lt_of_not_le hwithin

/-! ## Bringing up and shutting down -/

/-- Identifying a device keeps custody of the bus. -/
theorem proceeds_identify : engine.identify.Proceeds .away := by
  refine engine.proceeds_readId.bind fun id => ?_
  split
  · exact Action.proceeds_pure _
  · exact Action.proceeds_throw rfl

/-- Waking and resetting a device keep custody of the bus. -/
theorem proceeds_recover : engine.recover.Proceeds .away :=
  proceeds_withBus ((BusAction.proceeds_forM fun _ =>
    (BusAction.proceeds_instruct _ _).attempt).bind fun _ => (BusAction.proceeds_forM fun _ =>
      BusAction.proceeds_instruct _ _).bind fun _ => BusAction.proceeds_setWidth _)

/-- Reading a register keeps custody of the bus. -/
theorem proceeds_readRegister (code : UInt8) (width : BusWidth) :
    (QuadEntry.readRegister code width).Proceeds (.holding false) :=
  (Action.proceeds_call fun _ => rfl).bind fun _ => Action.proceeds_pure _

/-- Writing a register keeps custody of the bus. -/
theorem proceeds_writeRegister (code : UInt8) (width : BusWidth) (value : UInt8) :
    (QuadEntry.writeRegister code width value).Proceeds (.holding false) :=
  (Action.proceeds_call fun _ => rfl).discard

/-- An instruction on the way into quad mode keeps custody of the bus. -/
theorem proceeds_instruct (code : UInt8) :
    (QuadEntry.instruct code).Proceeds (.holding false) :=
  (Action.proceeds_call fun _ => rfl).discard

/-- Bringing a Winbond chip into quad mode keeps custody of the bus. -/
theorem proceeds_enterWinbond (device : Descriptor) :
    (QuadEntry.enterWinbond device).Proceeds (.holding false) := by
  unfold QuadEntry.enterWinbond
  split
  · exact Action.proceeds_throw rfl
  · refine (proceeds_readRegister _ _).bind fun status => ?_
    have hswitch (value : UInt8) : Action.Proceeds (.holding false) (do
        QuadEntry.instruct WinbondOpcode.enterQuadProtocol.code
        QuadEntry.writeRegister WinbondOpcode.setReadParameters.code .quad value
        return BusWidth.quad) :=
      (proceeds_instruct _).bind fun _ => (proceeds_writeRegister _ _ value).bind fun _ =>
        Action.proceeds_pure _
    dsimp only
    split
    · exact hswitch _
    · exact (proceeds_instruct _).bind fun _ => (proceeds_writeRegister _ _ _).bind fun _ =>
        hswitch _

/-- Bringing a Micron chip into quad mode keeps custody of the bus. -/
theorem proceeds_enterMicron (device : Descriptor) :
    (QuadEntry.enterMicron device).Proceeds (.holding false) := by
  refine (proceeds_readRegister _ _).bind fun enhanced => ?_
  dsimp only
  split
  · exact Action.proceeds_pure _
  · refine (proceeds_readRegister _ _).bind fun config => ?_
    split
    · exact Action.proceeds_throw rfl
    · exact (proceeds_instruct _).bind fun _ => (proceeds_writeRegister _ _ _).bind fun _ =>
        (proceeds_instruct _).bind fun _ => (proceeds_writeRegister _ _ _).bind fun _ =>
          Action.proceeds_pure _

/-- Bringing a chip into quad mode keeps custody of the bus. -/
theorem proceeds_enterQuad (identity : Identity) :
    (engine.enterQuad identity).Proceeds .away := by
  refine proceeds_withBus ((BusAction.proceeds_lift ?_).bind fun _ => BusAction.proceeds_setWidth _)
  cases identity.manufacturer.quadEntry with
  | winbond => exact proceeds_enterWinbond identity.device
  | micron => exact proceeds_enterMicron identity.device

/-- Acquiring a device keeps custody of the bus. -/
theorem proceeds_acquireDevice : engine.acquireDevice.Proceeds .away :=
  (engine.proceeds_identify.tryCatch fun _ => engine.proceeds_recover.bind fun _ =>
    engine.proceeds_identify).bind fun identity =>
      (engine.proceeds_enterQuad identity).bind fun _ => Action.proceeds_pure identity

/-- Bringing a device up keeps custody of the bus, and is never rejected. -/
theorem proceeds_bringUp : engine.bringUp.Proceeds .away fun ended => Rejected ended.1 := by
  refine Program.Proceeds.bind engine.proceeds_acquireDevice fun result hresult => ?_
  cases result with
  | ok identity => exact Program.proceeds_pure (not_rejected_ok ())
  | error fault => exact Program.proceeds_pure (not_rejected_error hresult)

/-- Shutting a device down keeps custody of the bus, and is never rejected. -/
theorem proceeds_shutDown : engine.shutDown.Proceeds .away fun ended => Rejected ended.1 := by
  have hwaken : (discard (engine.sleep false).run).Proceeds .away fun _ => False :=
    Program.Proceeds.bind (engine.proceeds_sleep false) fun _ _ => Program.proceeds_pure id
  exact hwaken.bind fun _ _ => Program.Proceeds.bind engine.proceeds_reset fun result hresult =>
    Program.proceeds_pure hresult

/-- Every request is checked before anything is asked. -/
theorem checked_serve (request : EngineRequest) :
    (engine.serve request).Checked fun ended => ended.1.Rejected := by
  cases request with
  | bringUp =>
      exact .inr (Program.Proceeds.bind engine.proceeds_bringUp fun ended hended =>
        Program.proceeds_pure (mt Outcome.rejected_ofUnit hended))
  | shutDown =>
      exact .inr (Program.Proceeds.bind engine.proceeds_shutDown fun ended hended =>
        Program.proceeds_pure (mt Outcome.rejected_ofUnit hended))
  | operation operation =>
      exact Program.Checked.map (engine.checked_perform operation) fun _ h => h

/-! ## The catalog -/

/-- A device that was identified is in the catalog. -/
def Catalogued (engine : Engine) : Prop :=
  ∀ identity, engine.identity = some identity → ∃ id, Catalog.Knows id identity

/-- A new engine has identified nothing outside the catalog. -/
theorem catalogued_fresh (timeouts : Timeouts) : (fresh timeouts).Catalogued :=
  nofun

variable {engine}

/-- The capacity of a device of the catalog takes at most 24 bits to address. -/
theorem Catalogued.capacity_le (h : engine.Catalogued) : engine.capacity ≤ addressable 24 := by
  unfold capacity device?
  cases hidentity : engine.identity with
  | none => exact Nat.zero_le _
  | some identity =>
      obtain ⟨id, hknows⟩ := h identity hidentity
      exact hknows.capacity_le

section Serving

variable {environment : Environment σ} {state : σ}

/-- Every action ends. -/
theorem ends_somehow (action : Action α) :
    action.Ends environment (fun _ _ => True) (fun _ _ => True) state := by
  rw [Action.ends_iff]
  split <;> trivial

/-- What is identified is in the catalog. -/
theorem ends_identify_catalogued :
    engine.identify.Ends environment (fun identity _ => ∃ id, Catalog.Knows id identity)
      (fun _ _ => True) state := by
  refine (Action.ends_bind ..).mpr ((ends_somehow _).mono (fun id after _ => ?_) fun _ _ h => h)
  split
  · rename_i manufacturer found hfound
    exact ⟨id, hfound⟩
  · trivial

/-- What is acquired is in the catalog. -/
theorem ends_acquireDevice_catalogued :
    engine.acquireDevice.Ends environment (fun identity _ => ∃ id, Catalog.Knows id identity)
      (fun _ _ => True) state := by
  refine (Action.ends_bind ..).mpr (Action.Ends.mono ((Action.ends_tryCatch ..).mpr
    (ends_identify_catalogued.mono (fun _ _ h => h) fun _ _ _ => ?_))
    (fun identity _ hknows => ?_) fun _ _ h => h)
  · exact (Action.ends_bind ..).mpr ((ends_somehow _).mono
      (fun _ _ _ => ends_identify_catalogued) fun _ _ h => h)
  · exact (Action.ends_bind ..).mpr ((ends_somehow _).mono (fun _ _ _ => hknows) fun _ _ h => h)

/-- After bringing up, an engine has identified nothing outside the catalog. -/
theorem ends_bringUp_catalogued :
    engine.bringUp.Ends environment (fun ended _ => ended.2.Catalogued) state := by
  refine (Program.ends_bind ..).mpr (Program.Ends.mono ends_acquireDevice_catalogued ?_)
  rintro (fault | identity) after hknows
  · exact nofun
  · rintro other hother
    exact Option.some.inj hother ▸ hknows

/-- After shutting down, an engine has identified nothing outside the catalog. -/
theorem ends_shutDown_catalogued :
    engine.shutDown.Ends environment (fun ended _ => ended.2.Catalogued) state := by
  refine (Program.ends_bind ..).mpr (Program.ends_of_forall _ fun _ _ => ?_)
  exact (Program.ends_bind ..).mpr (Program.ends_of_forall _ fun _ _ => nofun)

/-- Whatever the surroundings answer, a request leaves an engine whose device is in the catalog. -/
theorem ends_serve_catalogued (h : engine.Catalogued) (request : EngineRequest) :
    (engine.serve request).Ends environment (fun ended _ => ended.2.Catalogued) state := by
  cases request with
  | bringUp => exact (Program.ends_bind ..).mpr ends_bringUp_catalogued
  | shutDown => exact (Program.ends_bind ..).mpr ends_shutDown_catalogued
  | operation operation =>
      exact (Program.ends_bind ..).mpr (Program.ends_of_forall _ fun _ _ => h)

end Serving

end Engine

end NorFlash
