import NorFlash.Bench.Basic
import NorFlash.Engine.Operation
import NorFlash.Proofs.Engine.Settling

/-!
# No deferred call outlives its request

Every operation of the engine settles its deferred calls, whatever the surroundings answer:
`settles_perform`, and `settles_serve` for any request. `converse_settled` says what that means for
a whole run of requests. In the dialogue of each of them a deferred call that failed is aborted
next, and for every other one the completion is awaited next and the call aborted if it does not
come. So nothing is outstanding when a request returns, and one that fails of a time-out has
aborted.
-/

namespace NorFlash

namespace Engine

/-! ## Faults that are no time-out -/

section Faults

variable {engine : Engine}

/-- The lack of a device is no time-out. -/
theorem requireDevice_ne_timeout : engine.requireDevice ≠ .error .timeout := by
  unfold requireDevice
  split <;> simp

/-- A range that is rejected is no time-out. -/
theorem checkRange_ne_timeout (address : UInt32) (length : Nat) :
    engine.checkRange address length ≠ .error .timeout := by
  simp only [checkRange]
  split <;> simp

/-- A sector that is rejected is no time-out. -/
theorem sectorAddress_ne_timeout (sector : UInt32) :
    engine.sectorAddress sector ≠ .error .timeout := by
  unfold sectorAddress requireDevice
  cases engine.device? with
  | none => simp [bind, Except.bind]
  | some device =>
      simp only [bind, Except.bind]
      split
      · simp [pure, Except.pure]
      · simp [throw, throwThe, MonadExceptOf.throw]

end Faults

/-! ## Operations -/

variable (engine : Engine)

/-- Reading the identification settles its deferred call. -/
theorem settles_readId : engine.readId.Settles :=
  settles_withBus ((BusAction.settles_transfer rfl _).bind fun _ => BusAction.settles_pure _)

/-- Putting to sleep and waking defer nothing. -/
theorem settles_sleep (enter : Bool) : (engine.sleep enter).Settles :=
  settles_withBus (BusAction.settles_width_bind fun _ => BusAction.settles_instruct _ _)

/-- A reset defers nothing. -/
theorem settles_reset : engine.reset.Settles :=
  settles_withBus (BusAction.settles_width_bind fun _ =>
    (BusAction.settles_instruct _ _).bind fun _ => (BusAction.settles_instruct _ _).bind fun _ =>
      BusAction.settles_modify _)

/-- Mapping defers nothing. -/
theorem settles_enterMapped : engine.enterMapped.Settles := by
  refine (Action.settles_ofExcept requireDevice_ne_timeout).bind fun device => ?_
  refine settles_withBus (BusAction.settles_width_bind fun width => ?_)
  exact (BusAction.settles_call rfl).discard.bind fun _ => BusAction.settles_modify _

/-- Ending a mapping defers nothing. -/
theorem settles_exitMapped : engine.exitMapped.Settles :=
  settles_holdingBus ((BusAction.settles_lift Action.settles_abort).bind fun _ =>
    BusAction.settles_modify _)

section Reading

/-- A fetch settles its deferred call, and tells of a time-out. -/
theorem settles_fetch (device : Descriptor) (address : UInt32) (length : Nat) :
    Program.Settles False LateExchange (engine.fetch device address length).run :=
  settlesWith_withBus (fun _ => id) (BusAction.settles_width_bind fun _ =>
    BusAction.settles_exchange rfl _)

/-- A read into a buffer settles its deferred call. -/
theorem settles_readInto (address : UInt32) (buffer : Bytes) :
    (engine.readInto address buffer).Settles False fun ended => TimedOut ended.1 := by
  unfold readInto
  split
  · rename_i fault hfault
    have hcause : fault ≠ .timeout := fun hlate => requireDevice_ne_timeout (hlate ▸ hfault)
    exact Program.settles_pure (not_timedOut_error hcause)
  · split
    · exact Program.settles_pure (not_timedOut_ok ())
    · split
      · rename_i fault hfault
        have hcause : fault ≠ .timeout := fun hlate => checkRange_ne_timeout _ _ (hlate ▸ hfault)
        exact Program.settles_pure (not_timedOut_error hcause)
      · refine Program.Settles.bind (engine.settles_fetch _ _ _) fun result => ?_
        -- What the exchange came to is the result, so it tells of a time-out only then.
        cases result with
        | ok ended => exact Program.settles_pure id
        | error fault => exact Program.settles_pure Except.error.inj

/-- A read into zeros settles its deferred call. -/
theorem settles_readZeroed (address : UInt32) (length : Nat) :
    (engine.readZeroed address length).Settles := by
  have hread : Program.Settles False
      (fun result : Except Fault (Except Fault Unit × Bytes) => TimedOut (result.bind Prod.fst))
      (liftM (engine.readInto address (List.replicate length 0)) :
        Action (Except Fault Unit × Bytes)).run :=
    Program.Settles.bind (engine.settles_readInto _ _) fun _ => Program.settles_pure id
  refine Program.Settles.bind hread fun result => ?_
  obtain fault | ⟨fault | _, bytes⟩ := result
  · exact Program.settles_pure fun hlate => congrArg Except.error (Except.error.inj hlate)
  · exact Program.settles_pure fun hlate => congrArg Except.error (Except.error.inj hlate)
  · exact Program.settles_pure fun hlate => absurd hlate (not_timedOut_ok _)

/-- A read settles its deferred call. -/
theorem settles_read (address : UInt32) (length : Nat) : (engine.read address length).Settles :=
  (Action.settles_ofExcept requireDevice_ne_timeout).discard.bind fun _ =>
    (Action.settles_ofExcept (checkRange_ne_timeout _ _)).bind fun _ =>
      engine.settles_readZeroed address length

/-- A read in parts settles the deferred call of each part. -/
theorem settles_readReporting (address : UInt32) (length : Nat) :
    (engine.readReporting address length).Settles := by
  refine (Action.settles_ofExcept requireDevice_ne_timeout).discard.bind fun _ =>
    (Action.settles_ofExcept (checkRange_ne_timeout _ _)).bind fun _ =>
      (Action.settles_report 0).bind fun _ => Action.Settles.bind ?_ fun parts =>
        (Action.settles_report length).bind fun _ => Action.settles_pure parts.flatten
  exact Action.settles_mapM fun span => (engine.settles_readZeroed _ _).bind fun bytes =>
    (Action.settles_report _).bind fun _ => Action.settles_pure bytes

/-- A read from a sector settles its deferred call. -/
theorem settles_readSector (sector : UInt32) (length : Nat) :
    (engine.readSector sector length).Settles :=
  (Action.settles_ofExcept (sectorAddress_ne_timeout sector)).bind fun address =>
    engine.settles_read address length

end Reading

section Writing

/-- Enabling a write defers nothing. -/
theorem settles_enableWrite : enableWrite.Settles :=
  BusAction.settles_width_bind fun _ => BusAction.settles_instruct _ _

/-- Waiting for a chip that is busy settles its poll. -/
theorem settles_waitWhileBusy (patience : Nat) : (waitWhileBusy patience).Settles :=
  BusAction.settles_width_bind fun _ => (BusAction.settles_transfer rfl patience).discard

/-- A page program settles its program and its poll. -/
theorem settles_pageProgram (address : UInt32) (bytes : Bytes) :
    (engine.pageProgram address bytes).Settles := by
  refine (Action.settles_ofExcept requireDevice_ne_timeout).discard.bind fun _ =>
    settles_withBus (BusAction.settles_width_bind fun width => ?_)
  exact settles_enableWrite.bind fun _ =>
    (BusAction.settles_transfer rfl _).discard.bind fun _ => settles_waitWhileBusy _

/-- A write that reports settles the deferred calls of each page. -/
theorem settles_writeReporting (address : UInt32) (bytes : Bytes) :
    (engine.writeReporting address bytes).Settles := by
  refine (Action.settles_ofExcept requireDevice_ne_timeout).discard.bind fun _ => ?_
  split
  · exact Action.settles_pure ()
  · refine (Action.settles_ofExcept (checkRange_ne_timeout _ _)).bind fun _ =>
      (Action.settles_report 0).bind fun _ => Action.settles_forM fun piece => ?_
    exact (engine.settles_pageProgram _ _).bind fun _ => Action.settles_report _

/-- A write settles the deferred calls of each page. -/
theorem settles_write (address : UInt32) (bytes : Bytes) : (engine.write address bytes).Settles :=
  (engine.settles_writeReporting address bytes).silenced

/-- A write to a sector settles its deferred calls. -/
theorem settles_writeSector (sector : UInt32) (bytes : Bytes) :
    (engine.writeSector sector bytes).Settles :=
  (Action.settles_ofExcept (sectorAddress_ne_timeout sector)).bind fun address =>
    engine.settles_write address bytes

end Writing

section Erasing

/-- An erase settles its poll. -/
theorem settles_erase (address : UInt32) (kind : EraseKind) :
    (engine.erase address kind).Settles := by
  refine (Action.settles_ofExcept requireDevice_ne_timeout).discard.bind fun _ => ?_
  cases kind with
  | unit area =>
      refine (Action.settles_ofExcept (checkRange_ne_timeout _ _)).bind fun _ =>
        settles_withBus (BusAction.settles_width_bind fun width => ?_)
      exact settles_enableWrite.bind fun _ => (BusAction.settles_call rfl).discard.bind fun _ =>
        settles_waitWhileBusy _
  | chip =>
      refine settles_withBus (BusAction.settles_width_bind fun width => ?_)
      exact settles_enableWrite.bind fun _ => (BusAction.settles_call rfl).discard.bind fun _ =>
        settles_waitWhileBusy _

/-- A plan settles the poll of each erase. -/
theorem settles_erasePlanned (plan : ErasePlan) (total : Nat) :
    (engine.erasePlanned plan total).Settles := by
  induction plan generalizing total with
  | nil => exact Action.settles_pure ()
  | cons planned rest ih =>
      exact (engine.settles_erase _ _).bind fun _ => (Action.settles_report _).bind fun _ => ih _

/-- An erase of a range that reports settles its polls. -/
theorem settles_eraseRangeReporting (address : UInt32) (length : Nat) :
    (engine.eraseRangeReporting address length).Settles := by
  refine (Action.settles_ofExcept requireDevice_ne_timeout).discard.bind fun _ => ?_
  split
  · exact Action.settles_pure ()
  · exact (Action.settles_ofExcept (checkRange_ne_timeout _ _)).bind fun _ =>
      (Action.settles_report 0).bind fun _ => engine.settles_erasePlanned _ _

/-- A metered erase of a range settles its polls. -/
theorem settles_eraseRangeMetered (address : UInt32) (length : Nat) :
    (engine.eraseRangeMetered address length).Settles :=
  (Action.settles_ofExcept requireDevice_ne_timeout).discard.bind fun _ =>
    (Action.settles_ofExcept (checkRange_ne_timeout _ _)).bind fun _ =>
      (engine.settles_eraseRangeReporting address length).silenced

/-- An erase of a sector settles its poll. -/
theorem settles_eraseSector (sector : UInt32) : (engine.eraseSector sector).Settles :=
  (Action.settles_ofExcept (sectorAddress_ne_timeout sector)).bind fun address =>
    engine.settles_erase address (.unit .sector)

end Erasing

end Engine

/-- The outcome is a failure for want of a completion. -/
def Outcome.TimedOut (outcome : Outcome) : Prop :=
  outcome.result = .error .timeout

/-- An outcome without a value settles what its action does. -/
theorem Action.Settles.ofUnit {action : Action Unit} (h : action.Settles) :
    Program.Settles False Outcome.TimedOut (Outcome.ofUnit <$> action.run) := by
  refine Program.Settles.map h fun result hlate => ?_
  cases result with
  | ok value => cases hlate
  | error fault => exact congrArg _ (Except.error.inj hlate)

/-- An outcome with a value settles what its action does. -/
theorem Action.Settles.ofValue {α : Type} {action : Action α} (h : action.Settles)
    (payload : α → Payload) :
    Program.Settles False Outcome.TimedOut (Outcome.ofValue payload <$> action.run) := by
  refine Program.Settles.map h fun result hlate => ?_
  cases result with
  | ok value => cases hlate
  | error fault => exact congrArg _ (Except.error.inj hlate)

namespace Engine

variable (engine : Engine)

/-- Every operation settles its deferred calls. -/
theorem settles_perform (operation : Operation) :
    (engine.perform operation).Settles False Outcome.TimedOut := by
  cases operation with
  | readId => exact engine.settles_readId.ofValue _
  | sleep enter => exact (engine.settles_sleep enter).ofUnit
  | reset => exact engine.settles_reset.ofUnit
  | enterMapped => exact engine.settles_enterMapped.ofUnit
  | exitMapped => exact engine.settles_exitMapped.ofUnit
  | read address length => exact (engine.settles_read address length).ofValue _
  | readInto address buffer =>
      refine (engine.settles_readInto address buffer).bind fun ended => Program.settles_pure ?_
      obtain ⟨fault | _, bytes⟩ := ended
      · exact fun hlate => congrArg _ (Except.error.inj hlate)
      · exact nofun
  | readReporting address length => exact (engine.settles_readReporting address length).ofValue _
  | readMetered address length =>
      exact (engine.settles_readReporting address length).silenced.ofValue _
  | readSector sector length => exact (engine.settles_readSector sector length).ofValue _
  | write address bytes => exact (engine.settles_write address bytes).ofUnit
  | writeReporting address bytes => exact (engine.settles_writeReporting address bytes).ofUnit
  | writeMetered address bytes => exact (engine.settles_write address bytes).ofUnit
  | writeSector sector bytes => exact (engine.settles_writeSector sector bytes).ofUnit
  | pageProgram address bytes => exact (engine.settles_pageProgram address bytes).ofUnit
  | erase address kind => exact (engine.settles_erase address kind).ofUnit
  | eraseChip => exact (engine.settles_erase 0 .chip).ofUnit
  | eraseRange address length =>
      exact (engine.settles_eraseRangeReporting address length).silenced.ofUnit
  | eraseRangeReporting address length =>
      exact (engine.settles_eraseRangeReporting address length).ofUnit
  | eraseRangeMetered address length =>
      exact (engine.settles_eraseRangeMetered address length).ofUnit
  | eraseSector sector => exact (engine.settles_eraseSector sector).ofUnit

/-! ## Bringing up and shutting down -/

/-- Identifying a device settles its deferred call. -/
theorem settles_identify : engine.identify.Settles := by
  refine engine.settles_readId.bind fun id => ?_
  split
  · exact Action.settles_pure _
  · exact Action.settles_throw (by simp)

/-- Waking and resetting a device defer nothing. -/
theorem settles_recover : engine.recover.Settles :=
  settles_withBus ((BusAction.settles_forM fun _ => (BusAction.settles_instruct _ _).attempt).bind
    fun _ => (BusAction.settles_forM fun _ => BusAction.settles_instruct _ _).bind fun _ =>
      BusAction.settles_modify _)

/-- Reading a register defers nothing. -/
theorem settles_readRegister (code : UInt8) (width : BusWidth) :
    (QuadEntry.readRegister code width).Settles :=
  (Action.settles_call rfl).bind fun _ => Action.settles_pure _

/-- Writing a register defers nothing. -/
theorem settles_writeRegister (code : UInt8) (width : BusWidth) (value : UInt8) :
    (QuadEntry.writeRegister code width value).Settles :=
  (Action.settles_call rfl).discard

/-- An instruction on the way into quad mode defers nothing. -/
theorem settles_instruct (code : UInt8) : (QuadEntry.instruct code).Settles :=
  (Action.settles_call rfl).discard

/-- Bringing a Winbond chip into quad mode defers nothing. -/
theorem settles_enterWinbond (device : Descriptor) : (QuadEntry.enterWinbond device).Settles := by
  unfold QuadEntry.enterWinbond
  split
  · exact Action.settles_throw (by simp)
  · refine (settles_readRegister _ _).bind fun status => ?_
    have hswitch (value : UInt8) : Action.Settles (do
        QuadEntry.instruct WinbondOpcode.enterQuadProtocol.code
        QuadEntry.writeRegister WinbondOpcode.setReadParameters.code .quad value
        return BusWidth.quad) :=
      (settles_instruct _).bind fun _ => (settles_writeRegister _ _ value).bind fun _ =>
        Action.settles_pure _
    dsimp only
    split
    · exact hswitch _
    · exact (settles_instruct _).bind fun _ => (settles_writeRegister _ _ _).bind fun _ =>
        hswitch _

/-- Bringing a Micron chip into quad mode defers nothing. -/
theorem settles_enterMicron (device : Descriptor) : (QuadEntry.enterMicron device).Settles := by
  refine (settles_readRegister _ _).bind fun enhanced => ?_
  dsimp only
  split
  · exact Action.settles_pure _
  · refine (settles_readRegister _ _).bind fun config => ?_
    split
    · exact Action.settles_throw (by simp)
    · exact (settles_instruct _).bind fun _ => (settles_writeRegister _ _ _).bind fun _ =>
        (settles_instruct _).bind fun _ => (settles_writeRegister _ _ _).bind fun _ =>
          Action.settles_pure _

/-- Bringing a chip into quad mode defers nothing. -/
theorem settles_enterQuad (identity : Identity) : (engine.enterQuad identity).Settles := by
  refine settles_withBus ((BusAction.settles_lift ?_).bind fun _ => BusAction.settles_modify _)
  cases identity.manufacturer.quadEntry with
  | winbond => exact settles_enterWinbond identity.device
  | micron => exact settles_enterMicron identity.device

/-- Acquiring a device settles its deferred calls. -/
theorem settles_acquireDevice : engine.acquireDevice.Settles :=
  (engine.settles_identify.tryCatch fun _ => engine.settles_recover.bind fun _ =>
    engine.settles_identify).bind fun identity => (engine.settles_enterQuad identity).bind fun _ =>
      Action.settles_pure identity

/-- Bringing a device up settles its deferred calls. -/
theorem settles_bringUp : engine.bringUp.Settles False fun ended => TimedOut ended.1 := by
  refine Program.Settles.bind engine.settles_acquireDevice fun result => ?_
  cases result with
  | ok identity => exact Program.settles_pure fun hlate => absurd hlate (not_timedOut_ok _)
  | error fault => exact Program.settles_pure fun hlate => congrArg _ (Except.error.inj hlate)

/-- That waking the device failed does not show, and the time-outs of what follows do. -/
theorem settles_shutDown : engine.shutDown.Settles False fun ended => TimedOut ended.1 := by
  have hwaken : (discard (engine.sleep false).run).Settles False fun _ => False :=
    Program.Settles.bind (engine.settles_sleep false) fun _ => Program.settles_pure False.elim
  exact hwaken.bind fun _ => Program.Settles.bind engine.settles_reset fun result =>
    Program.settles_pure id

/-- Every request settles its deferred calls. -/
theorem settles_serve (request : EngineRequest) :
    (engine.serve request).Settles False fun ended => ended.1.TimedOut := by
  cases request with
  | bringUp =>
      refine engine.settles_bringUp.bind fun ended => Program.settles_pure fun hlate => ?_
      obtain ⟨fault | _, after⟩ := ended
      · exact congrArg _ (Except.error.inj hlate)
      · cases hlate
  | shutDown =>
      refine engine.settles_shutDown.bind fun ended => Program.settles_pure fun hlate => ?_
      obtain ⟨fault | _, after⟩ := ended
      · exact congrArg _ (Except.error.inj hlate)
      · cases hlate
  | operation operation =>
      exact (engine.settles_perform operation).bind fun outcome => Program.settles_pure id

/-! ## Runs -/

variable {σ : Type}

/-- The dialogue and the outcome of each request of a run, each made with timeouts of its own. -/
def converse (environment : Environment σ) (engine : Engine) :
    List (Timeouts × EngineRequest) → σ → List (Dialogue × Outcome)
  | [], _ => []
  | (timeouts, request) :: rest, state =>
      let program := { engine with timeouts }.serve request
      let ((outcome, engine), after) := program.run environment state
      (program.dialogue environment state, outcome) :: engine.converse environment rest after

/-- In any surroundings, every request of a run settles its deferred calls: none is outstanding when
the request returns, and a request that fails of a time-out has made an abort as its last call. -/
theorem converse_settled (environment : Environment σ) (engine : Engine)
    (requests : List (Timeouts × EngineRequest)) (state : σ) :
    ∀ call ∈ engine.converse environment requests state,
      call.1.Settled ∧ call.1.outstanding = false ∧
        (call.2.result = .error .timeout → call.1.GaveUp) := by
  induction requests generalizing engine state with
  | nil => simp [converse]
  | cons first rest ih =>
      obtain ⟨timeouts, request⟩ := first
      intro call hcall
      rcases List.mem_cons.mp hcall with rfl | hcall
      · have hfollows := Engine.settles_serve { engine with timeouts } request .clear id
        obtain ⟨last, haccepted, hlast⟩ := hfollows.run environment state
        refine ⟨Dialogue.settled_of_accepted hlast haccepted,
          Dialogue.outstanding_of_accepted hlast haccepted, fun hlate => ?_⟩
        cases last with
        | clear => exact absurd hlate hlast
        | abandoned => exact Dialogue.gaveUp_of_accepted haccepted
        | armed | begun | owing => exact hlast.elim
      · exact ih _ _ call hcall

/-- A request for the identification whose completion is lost fails of the time-out. -/
theorem converse_settled_of_lost_completion :
    let bench := Bench.ofChip { Chip.fresh ⟨0xEF, 0x4015⟩ with completion := .never }
    let calls := (Engine.fresh .standard).converse Bench.environment
      [(.standard, .operation .readId)] bench
    ∃ call ∈ calls, call.2.result = .error .timeout ∧ call.1.outstanding = false ∧
      call.1.GaveUp := by
  intro bench calls
  have hsettled := converse_settled Bench.environment (Engine.fresh .standard)
    [(.standard, .operation .readId)] bench
  obtain ⟨call, hcall⟩ : ∃ call, calls = [call] := ⟨_, rfl⟩
  have hmem : call ∈ calls := hcall ▸ List.mem_cons_self
  obtain ⟨-, houtstanding, hlate⟩ := hsettled call hmem
  have htimeout : calls.map (·.2.result) = [.error .timeout] := by decide +kernel
  have hresult : call.2.result = .error .timeout := by
    rw [hcall] at htimeout
    exact List.singleton_inj.mp htimeout
  exact ⟨call, hmem, hresult, houtstanding, hlate hresult⟩

end Engine

end NorFlash
