import NorFlash.Proofs.Engine.Checks
import NorFlash.Proofs.Engine.Orderly
import NorFlash.Proofs.Page

/-!
# Addresses on the bus

`BusCall.Puts` says of a call which addresses it may put on the bus. An operation that checks its
range puts only addresses within the device there, each of its transfers being checked once more
when its turn comes, and the control sequences put none there. The exception is a page program: it
checks nothing, and the address it is given goes out as it is. `puts_perform` is the one statement
of it, and `perform_denied` says what becomes of an operation whose range is not within the device.
-/

namespace NorFlash

variable {σ α : Type} {allowed : UInt32 → Prop}

namespace BusCall

/-- The address that a call puts on the bus. -/
def address? : BusCall → Option UInt32
  | command sent | start sent | map sent => sent.address.map Prod.fst
  | poll _ | abort => none

/-- The call puts no address on the bus but one that is allowed. -/
def Puts (allowed : UInt32 → Prop) (request : BusCall) : Prop :=
  ∀ address ∈ request.address?, allowed address

/-- A call without an address puts none on the bus. -/
theorem puts_of_none {request : BusCall} (h : request.address? = none) : request.Puts allowed := by
  intro address haddress
  rw [h] at haddress
  cases haddress

/-- A command puts its own address on the bus. -/
theorem puts_command {sent : Command} {address : UInt32} {width : BusWidth}
    (haddress : sent.address = some (address, width)) (h : allowed address) :
    Puts allowed (.command sent) := by
  intro other hother
  simp only [address?, haddress, Option.map_some] at hother
  exact Option.some.inj hother ▸ h

/-- A deferred command puts its own address on the bus. -/
theorem puts_start {sent : Command} {address : UInt32} {width : BusWidth}
    (haddress : sent.address = some (address, width)) (h : allowed address) :
    Puts allowed (.start sent) :=
  puts_command haddress h

/-- A mapping puts its own address on the bus. -/
theorem puts_map {sent : Command} {address : UInt32} {width : BusWidth}
    (haddress : sent.address = some (address, width)) (h : allowed address) :
    Puts allowed (.map sent) :=
  puts_command haddress h

end BusCall

/-- Whatever the program is answered, it puts no address on the bus but those that are allowed. -/
abbrev Program.Puts (allowed : UInt32 → Prop) (program : Program α) : Prop :=
  program.Orderly (BusCall.Puts allowed) (fun _ => True) false (fun _ => True) false

/-- As `Program.Puts`, for an action that takes the bus itself. -/
abbrev Action.Puts (allowed : UInt32 → Prop) (action : Action α) : Prop :=
  action.Orderly (BusCall.Puts allowed) (fun _ => True) false

/-- As `Program.Puts`, for an action that makes its calls while the bus is held. -/
abbrev Action.PutsHeld (allowed : UInt32 → Prop) (action : Action α) : Prop :=
  action.Orderly (BusCall.Puts allowed) (fun _ => True) true

/-- As `Program.Puts`, for a bus action. -/
abbrev BusAction.Puts (allowed : UInt32 → Prop) (action : BusAction α) : Prop :=
  action.Orderly (BusCall.Puts allowed) (fun _ => True)

/-- In any surroundings, an orderly program makes no calls but those it is said to make. -/
theorem Program.Orderly.of_mem_dialogue {calls : BusCall → Prop} {values : α → Prop}
    {first last : Bool} {program : Program α}
    (h : program.Orderly calls (fun _ => True) last values first) {environment : Environment σ}
    {state : σ} {request : BusCall} {reply : Reply}
    (hmem : .call request reply ∈ program.dialogue environment state) : calls request := by
  induction program generalizing first state with
  | done value => cases hmem
  | acquire patience next ih =>
      obtain ⟨-, hnone, hsome⟩ := h
      have hrest := List.mem_of_ne_of_mem (by simp) hmem
      cases hbus : (environment.acquire patience state).1 with
      | none =>
          rw [hbus] at hrest
          exact ih _ hnone hrest
      | some bus =>
          rw [hbus] at hrest
          exact ih _ (hsome bus trivial) hrest
  | release bus next ih => exact ih h.2.2 (List.mem_of_ne_of_mem (by simp) hmem)
  | arm next ih => exact ih h (List.mem_of_ne_of_mem (by simp) hmem)
  | await patience next ih => exact ih _ (h _) (List.mem_of_ne_of_mem (by simp) hmem)
  | call other next ih =>
      rcases List.mem_cons.mp hmem with heq | hrest
      · rw [(Interaction.call.inj heq).1]
        exact h.2.1
      · exact ih _ (h.2.2 _) hrest
  | report count next ih => exact ih h (List.mem_of_ne_of_mem (by simp) hmem)

namespace BusAction

/-- An instruction alone puts no address on the bus. -/
theorem puts_instruct {code : UInt8} {width : BusWidth} : (instruct code width).Puts allowed :=
  orderly_instruct (BusCall.puts_of_none rfl)

/-- A transfer puts no other address on the bus than its call. -/
theorem puts_transfer {request : BusCall} (h : request.Puts allowed) (patience : Nat) :
    (transfer request patience).Puts allowed :=
  orderly_transfer h (BusCall.puts_of_none rfl) patience

end BusAction

namespace Engine

variable (engine : Engine)

/-- The address lies within the identified device. -/
def Inside (engine : Engine) (address : UInt32) : Prop :=
  address.toNat < engine.capacity

variable {engine}

/-- A range that passed the check begins within the device. -/
theorem inside_of_checkRange {address : UInt32} {length : Nat} (hlength : length ≠ 0)
    (h : engine.checkRange address length = .ok ()) : engine.Inside address := by
  have hstop := checkRange_eq_ok_iff.mp h
  unfold Inside
  omega

variable (engine)

/-- Taking the bus puts no address on it. -/
theorem puts_withBus {action : BusAction α} (h : action.Puts allowed) :
    (engine.withBus action).Puts allowed :=
  orderly_withBus (BusCall.puts_of_none rfl) h

/-! ## Control sequences put no address on the bus -/

/-- Reading the identification puts no address on the bus. -/
theorem puts_readId : engine.readId.Puts allowed :=
  engine.puts_withBus <| (BusAction.puts_transfer (BusCall.puts_of_none rfl) _).bind fun _ =>
    BusAction.orderly_pure _

/-- Putting to sleep and waking put no address on the bus. -/
theorem puts_sleep (enter : Bool) : (engine.sleep enter).Puts allowed :=
  engine.puts_withBus <| BusAction.orderly_width_bind fun _ _ => BusAction.puts_instruct

/-- A reset puts no address on the bus. -/
theorem puts_reset : engine.reset.Puts allowed :=
  engine.puts_withBus <| BusAction.orderly_width_bind fun _ _ =>
    BusAction.puts_instruct.bind fun _ => BusAction.puts_instruct.bind fun _ =>
      BusAction.orderly_setWidth trivial

/-- Ending a mapping puts no address on the bus. -/
theorem puts_exitMapped : engine.exitMapped.Puts allowed := by
  refine orderly_holdingBus (BusAction.Orderly.bind ?_ fun _ => BusAction.orderly_setMapped false)
  exact BusAction.orderly_lift ⟨rfl, BusCall.puts_of_none rfl, fun _ => ⟨rfl, trivial⟩⟩

/-- Identifying a device puts no address on the bus. -/
theorem puts_identify : engine.identify.Puts allowed := by
  refine engine.puts_readId.bind fun id => ?_
  split
  · exact Action.orderly_pure _
  · exact Action.orderly_throw _

/-- Waking and resetting a device put no address on the bus. -/
theorem puts_recover : engine.recover.Puts allowed :=
  engine.puts_withBus <|
    (BusAction.orderly_forM fun _ _ => BusAction.puts_instruct.attempt).bind fun _ =>
      (BusAction.orderly_forM fun _ _ => BusAction.puts_instruct).bind fun _ =>
        BusAction.orderly_setWidth trivial

/-- Reading a register puts no address on the bus. -/
theorem puts_readRegister (code : UInt8) (width : BusWidth) :
    (QuadEntry.readRegister code width).PutsHeld allowed :=
  (Action.orderly_call (BusCall.puts_of_none rfl)).bind fun _ => Action.orderly_pure _

/-- Writing a register puts no address on the bus. -/
theorem puts_writeRegister (code : UInt8) (width : BusWidth) (value : UInt8) :
    (QuadEntry.writeRegister code width value).PutsHeld allowed :=
  (Action.orderly_call (BusCall.puts_of_none rfl)).discard

/-- An instruction on the way into quad mode puts no address on the bus. -/
theorem puts_instruct (code : UInt8) : (QuadEntry.instruct code).PutsHeld allowed :=
  (Action.orderly_call (BusCall.puts_of_none rfl)).discard

/-- Bringing a Winbond chip into quad mode puts no address on the bus. -/
theorem puts_enterWinbond (device : Descriptor) :
    (QuadEntry.enterWinbond device).PutsHeld allowed := by
  unfold QuadEntry.enterWinbond
  split
  · exact Action.orderly_throw _
  · refine (puts_readRegister _ _).bind fun status => ?_
    have hswitch (value : UInt8) : Action.PutsHeld allowed (do
        QuadEntry.instruct WinbondOpcode.enterQuadProtocol.code
        QuadEntry.writeRegister WinbondOpcode.setReadParameters.code .quad value
        return BusWidth.quad) :=
      (puts_instruct _).bind fun _ => (puts_writeRegister _ _ value).bind fun _ =>
        Action.orderly_pure _
    dsimp only
    split
    · exact hswitch _
    · exact (puts_instruct _).bind fun _ => (puts_writeRegister _ _ _).bind fun _ => hswitch _

/-- Bringing a Micron chip into quad mode puts no address on the bus. -/
theorem puts_enterMicron (device : Descriptor) :
    (QuadEntry.enterMicron device).PutsHeld allowed := by
  refine (puts_readRegister _ _).bind fun enhanced => ?_
  dsimp only
  split
  · exact Action.orderly_pure _
  · refine (puts_readRegister _ _).bind fun config => ?_
    split
    · exact Action.orderly_throw _
    · exact (puts_instruct _).bind fun _ => (puts_writeRegister _ _ _).bind fun _ =>
        (puts_instruct _).bind fun _ => (puts_writeRegister _ _ _).bind fun _ =>
          Action.orderly_pure _

/-- Bringing a chip into quad mode puts no address on the bus. -/
theorem puts_enterQuad (identity : Identity) : (engine.enterQuad identity).Puts allowed := by
  refine engine.puts_withBus (BusAction.Orderly.bind (BusAction.orderly_lift ?_) fun width =>
    BusAction.orderly_setWidth trivial)
  cases identity.manufacturer.quadEntry with
  | winbond => exact puts_enterWinbond identity.device
  | micron => exact puts_enterMicron identity.device

/-- Bringing a device up puts no address on the bus. -/
theorem puts_bringUp : engine.bringUp.Puts allowed := by
  have hacquire : engine.acquireDevice.Puts allowed :=
    (engine.puts_identify.tryCatch fun _ => engine.puts_recover.bind fun _ =>
      engine.puts_identify).bind fun identity =>
        (engine.puts_enterQuad identity).bind fun _ => Action.orderly_pure identity
  refine Program.Orderly.bind hacquire fun result _ => ?_
  cases result <;> exact ⟨rfl, trivial⟩

/-- Shutting a device down puts no address on the bus. -/
theorem puts_shutDown : engine.shutDown.Puts allowed :=
  (Program.Orderly.discard (engine.puts_sleep false)).bind fun _ _ =>
    Program.Orderly.bind engine.puts_reset fun _ _ => ⟨rfl, trivial⟩

/-! ## Operations check their addresses -/

/-- An identified device has a first address. -/
theorem puts_enterMapped (hfirst : ∀ device, engine.requireDevice = .ok device → allowed 0) :
    engine.enterMapped.Puts allowed := by
  refine Action.orderly_ofExcept_bind fun device hdevice => engine.puts_withBus ?_
  refine BusAction.orderly_width_bind fun width _ => ?_
  exact (BusAction.orderly_call (BusCall.puts_map rfl (hfirst device hdevice))).discard.bind
    fun _ => BusAction.orderly_setMapped true

/-- A fetch puts only its own address on the bus. -/
theorem puts_fetch (device : Descriptor) {address : UInt32} (h : allowed address)
    (length : Nat) : (engine.fetch device address length).Puts allowed :=
  engine.puts_withBus <| BusAction.orderly_width_bind fun _ _ =>
    BusAction.orderly_exchange (BusCall.puts_start rfl h) (BusCall.puts_of_none rfl) _

/-- A read into a buffer puts only an address within the device on the bus. -/
theorem puts_readInto (address : UInt32) (buffer : Bytes) :
    (engine.readInto address buffer).Puts engine.Inside := by
  unfold readInto
  split
  · exact ⟨rfl, trivial⟩
  · split
    · exact ⟨rfl, trivial⟩
    · rename_i hbuffer
      split
      · exact ⟨rfl, trivial⟩
      · rename_i hrange
        have hinside := inside_of_checkRange (mt List.length_eq_zero_iff.mp hbuffer) hrange
        refine Program.Orderly.bind (engine.puts_fetch _ hinside _) fun result _ => ?_
        cases result <;> exact ⟨rfl, trivial⟩

/-- A read into zeros puts only an address within the device on the bus. -/
theorem puts_readZeroed (address : UInt32) (length : Nat) :
    (engine.readZeroed address length).Puts engine.Inside := by
  refine Action.Orderly.bind (Program.Orderly.bind (engine.puts_readInto ..) fun _ _ =>
    ⟨rfl, trivial⟩) fun ended => ?_
  exact (Action.orderly_ofExcept ended.1).bind fun _ => Action.orderly_pure ended.2

/-- A read puts only an address within the device on the bus. -/
theorem puts_read (address : UInt32) (length : Nat) :
    (engine.read address length).Puts engine.Inside :=
  (Action.orderly_ofExcept _).discard.bind fun _ => (Action.orderly_ofExcept _).bind fun _ =>
    engine.puts_readZeroed address length

/-- A read in parts puts only addresses within the device on the bus. -/
theorem puts_readReporting (address : UInt32) (length : Nat) :
    (engine.readReporting address length).Puts engine.Inside := by
  refine (Action.orderly_ofExcept _).discard.bind fun _ => (Action.orderly_ofExcept _).bind
    fun _ => (Action.orderly_report 0).bind fun _ => Action.Orderly.bind ?_ fun parts =>
      (Action.orderly_report length).bind fun _ => Action.orderly_pure parts.flatten
  exact Action.orderly_mapM fun span _ => (engine.puts_readZeroed ..).bind fun bytes =>
    (Action.orderly_report _).bind fun _ => Action.orderly_pure bytes

/-- A read from a sector puts only an address within the device on the bus. -/
theorem puts_readSector (sector : UInt32) (length : Nat) :
    (engine.readSector sector length).Puts engine.Inside :=
  (Action.orderly_ofExcept _).bind fun address => engine.puts_read address length

/-- Enabling a write puts no address on the bus. -/
theorem puts_enableWrite : enableWrite.Puts allowed :=
  BusAction.orderly_width_bind fun _ _ => BusAction.puts_instruct

/-- Waiting for a chip that is busy puts no address on the bus. -/
theorem puts_waitWhileBusy (patience : Nat) : (waitWhileBusy patience).Puts allowed :=
  BusAction.orderly_width_bind fun _ _ =>
    (BusAction.puts_transfer (BusCall.puts_of_none rfl) patience).discard

/-- A page program puts the address it is given on the bus, wherever it is. -/
theorem puts_pageProgram {address : UInt32}
    (h : ∀ device, engine.requireDevice = .ok device → allowed address) (bytes : Bytes) :
    (engine.pageProgram address bytes).Puts allowed := by
  unfold pageProgram
  cases hdevice : engine.requireDevice with
  | error fault => exact Action.orderly_throw fault
  | ok device =>
      refine engine.puts_withBus (BusAction.orderly_width_bind fun width _ => ?_)
      refine puts_enableWrite.bind fun _ => ?_
      exact (BusAction.puts_transfer (BusCall.puts_start rfl (h device hdevice)) _).discard.bind
        fun _ => puts_waitWhileBusy _

/-- Every piece of data that was checked as a whole begins within the device. -/
theorem puts_writeReporting (address : UInt32) (bytes : Bytes) :
    (engine.writeReporting address bytes).Puts engine.Inside := by
  refine (Action.orderly_ofExcept _).discard.bind fun _ => ?_
  split
  · exact Action.orderly_pure ()
  · refine Action.orderly_ofExcept_bind fun _ hrange => (Action.orderly_report 0).bind fun _ => ?_
    refine Action.orderly_forM fun piece hpiece => Action.Orderly.bind ?_ fun _ =>
      Action.orderly_report _
    have hlast := (Page.within_of_mem_cut piece hpiece).last
    have hsome := List.length_pos_iff.mpr (Page.bytes_ne_nil_of_mem_cut piece hpiece)
    have hstop := checkRange_eq_ok_iff.mp hrange
    have hplace := toNat_ofNat_le piece.address
    exact engine.puts_pageProgram (fun _ _ => show _ < engine.capacity by omega) piece.bytes

/-- A write puts only addresses within the device on the bus. -/
theorem puts_write (address : UInt32) (bytes : Bytes) :
    (engine.write address bytes).Puts engine.Inside :=
  (engine.puts_writeReporting address bytes).silenced

/-- A write to a sector puts only addresses within the device on the bus. -/
theorem puts_writeSector (sector : UInt32) (bytes : Bytes) :
    (engine.writeSector sector bytes).Puts engine.Inside :=
  (Action.orderly_ofExcept _).bind fun address => engine.puts_write address bytes

/-- An erase puts only an address within the device on the bus, if any. -/
theorem puts_erase (address : UInt32) (kind : EraseKind) :
    (engine.erase address kind).Puts engine.Inside := by
  refine (Action.orderly_ofExcept _).discard.bind fun _ => ?_
  cases kind with
  | unit area =>
      refine Action.orderly_ofExcept_bind fun _ hrange => engine.puts_withBus ?_
      refine BusAction.orderly_width_bind fun width _ => puts_enableWrite.bind fun _ => ?_
      exact (BusAction.orderly_call (BusCall.puts_command rfl
        (inside_of_checkRange Nat.one_ne_zero hrange))).discard.bind fun _ => puts_waitWhileBusy _
  | chip =>
      refine engine.puts_withBus <|
        BusAction.orderly_width_bind fun width _ => puts_enableWrite.bind fun _ => ?_
      exact (BusAction.orderly_call (BusCall.puts_of_none rfl)).discard.bind fun _ =>
        puts_waitWhileBusy _

/-- A plan that is carried out puts only addresses within the device on the bus. -/
theorem puts_erasePlanned (plan : ErasePlan) (total : Nat) :
    (engine.erasePlanned plan total).Puts engine.Inside := by
  induction plan generalizing total with
  | nil => exact Action.orderly_pure ()
  | cons planned rest ih =>
      exact (engine.puts_erase ..).bind fun _ => (Action.orderly_report _).bind fun _ => ih _

/-- An erase of a range puts only addresses within the device on the bus. -/
theorem puts_eraseRangeReporting (address : UInt32) (length : Nat) :
    (engine.eraseRangeReporting address length).Puts engine.Inside := by
  refine (Action.orderly_ofExcept _).discard.bind fun _ => ?_
  split
  · exact Action.orderly_pure ()
  · exact (Action.orderly_ofExcept _).bind fun _ => (Action.orderly_report 0).bind fun _ =>
      engine.puts_erasePlanned ..

/-- An erase of a sector puts only an address within the device on the bus. -/
theorem puts_eraseSector (sector : UInt32) : (engine.eraseSector sector).Puts engine.Inside :=
  (Action.orderly_ofExcept _).bind fun address => engine.puts_erase address (.unit .sector)

end Engine

/-- The address is the one that a page program was asked for. -/
def Operation.Programs (operation : Operation) (address : UInt32) : Prop :=
  ∃ bytes, operation = .pageProgram address bytes

namespace Engine

variable {engine : Engine}

/-- A device of the catalog has a first address. -/
theorem Catalogued.inside_zero (h : engine.Catalogued) {device : Descriptor}
    (hdevice : engine.requireDevice = .ok device) : engine.Inside 0 := by
  unfold requireDevice device? at hdevice
  unfold Inside capacity device?
  cases hidentity : engine.identity with
  | none => simp [hidentity] at hdevice
  | some identity =>
      obtain ⟨id, hknows⟩ := h identity hidentity
      have hcapacity := hknows.capacity_eq
      have hsize := (Memory.blank id.capacityCode).size_pos
      simpa [hcapacity] using hsize

/-- Whatever the surroundings answer, an operation puts only addresses within the device on the bus,
unless it is a page program for another one. -/
theorem puts_perform (h : engine.Catalogued) (operation : Operation) :
    (engine.perform operation).Puts fun address =>
      engine.Inside address ∨ operation.Programs address := by
  have hchecked {program : Program Outcome} (hinside : program.Puts engine.Inside) :
      program.Puts fun address => engine.Inside address ∨ operation.Programs address :=
    hinside.mono (fun _ hputs address haddress => .inl (hputs address haddress)) fun _ h => h
  cases operation with
  | readId => exact engine.puts_readId.map
  | sleep enter => exact (engine.puts_sleep enter).map
  | reset => exact engine.puts_reset.map
  | enterMapped =>
      exact (engine.puts_enterMapped fun _ hdevice => .inl (h.inside_zero hdevice)).map
  | exitMapped => exact engine.puts_exitMapped.map
  | read address length => exact hchecked (engine.puts_read address length).map
  | readInto address buffer =>
      exact hchecked ((engine.puts_readInto address buffer).bind fun _ _ => ⟨rfl, trivial⟩)
  | readReporting address length =>
      exact hchecked (engine.puts_readReporting address length).map
  | readMetered address length =>
      exact hchecked (engine.puts_readReporting address length).silenced.map
  | readSector sector length => exact hchecked (engine.puts_readSector sector length).map
  | write address bytes | writeMetered address bytes =>
      exact hchecked (engine.puts_write address bytes).map
  | writeReporting address bytes => exact hchecked (engine.puts_writeReporting address bytes).map
  | writeSector sector bytes => exact hchecked (engine.puts_writeSector sector bytes).map
  | pageProgram address bytes =>
      exact (engine.puts_pageProgram (fun _ _ => .inr ⟨bytes, rfl⟩) bytes).map
  | erase address kind => exact hchecked (engine.puts_erase address kind).map
  | eraseChip => exact hchecked (engine.puts_erase 0 .chip).map
  | eraseRange address length =>
      exact hchecked (engine.puts_eraseRangeReporting address length).silenced.map
  | eraseRangeReporting address length =>
      exact hchecked (engine.puts_eraseRangeReporting address length).map
  | eraseRangeMetered address length =>
      refine hchecked (Action.Orderly.map ((Action.orderly_ofExcept _).discard.bind fun _ =>
        (Action.orderly_ofExcept _).bind fun _ => ?_))
      exact (engine.puts_eraseRangeReporting address length).silenced
  | eraseSector sector => exact hchecked (engine.puts_eraseSector sector).map

end Engine

/-! ## Operations outside the device are denied -/

/-- The fault for bytes outside the device, the last of which would be at that address. It carries
the largest address if that is beyond it. -/
abbrev Fault.outside (last : Nat) : Fault :=
  .addressOutOfRange (UInt32.ofNat (min last lastAddress))

/-- Addresses too large for a word are reported as the last one there is. -/
theorem Fault.outside_of_le {last : Nat} (h : lastAddress ≤ last) :
    outside last = .addressOutOfRange (UInt32.ofNat lastAddress) := by
  unfold outside
  rw [Nat.min_eq_right h]

namespace Operation

/-- The stretch of bytes that an operation names, given the size of a sector: where it begins, and
how many bytes it has. -/
def extent? (sectorSize : Nat) : Operation → Option (Nat × Nat)
  | readSector sector length => some (sector.toNat * sectorSize, length)
  | writeSector sector bytes => some (sector.toNat * sectorSize, bytes.length)
  | eraseSector sector => some (sector.toNat * sectorSize, 1)
  | operation => operation.range?.map fun range => (range.1.toNat, range.2)

/-- The sector that an operation names instead of an address, and the operation at an address. -/
def sector? : Operation → Option (UInt32 × (UInt32 → Operation))
  | readSector sector length => some (sector, (read · length))
  | writeSector sector bytes => some (sector, (write · bytes))
  | eraseSector sector => some (sector, (erase · (.unit .sector)))
  | _ => none

/-- An operation names a stretch of bytes by its address or by a sector. -/
theorem extent?_cases {operation : Operation} {sectorSize start length : Nat}
    (h : operation.extent? sectorSize = some (start, length)) :
    (∃ address, operation.range? = some (address, length) ∧ start = address.toNat) ∨
    ∃ sector inner, operation.sector? = some (sector, inner) ∧
      start = sector.toNat * sectorSize ∧
      ∀ address, (inner address).range? = some (address, length) ∧
        (inner address).buffer? = operation.buffer? := by
  cases operation with
  | readSector | writeSector | eraseSector =>
      cases h
      exact .inr ⟨_, _, rfl, rfl, fun _ => ⟨rfl, rfl⟩⟩
  | _ =>
      simp only [extent?, Option.map_eq_some_iff, Prod.exists, Prod.mk.injEq] at h
      obtain ⟨address, count, hrange, rfl, rfl⟩ := h
      exact .inl ⟨address, hrange, rfl⟩

end Operation

namespace Engine

variable {engine : Engine} {device : Descriptor} {length : Nat}

/-- The engine's sectors are those of the identified device. -/
theorem sectorSize_of_requireDevice (hdevice : engine.requireDevice = .ok device) :
    engine.sectorSize = device.sectorSize.toNat := by
  unfold requireDevice at hdevice
  unfold sectorSize
  cases hfound : engine.device? with
  | none => simp [hfound] at hdevice
  | some found =>
      rw [hfound] at hdevice
      rw [Except.ok.inj hdevice]

/-- A range that ends beyond the device is rejected with its last address. -/
theorem checkRange_beyond {address : UInt32} (h : engine.capacity < address.toNat + length) :
    engine.checkRange address length = .error (.outside (address.toNat + length - 1)) :=
  if_neg (Nat.not_le.mpr h)

/-- A sector has an address, or its number is too large for one. -/
theorem sectorAddress_cases (hdevice : engine.requireDevice = .ok device) (sector : UInt32) :
    (∃ address, engine.sectorAddress sector = .ok address ∧
      address.toNat = sector.toNat * engine.sectorSize) ∨
    (lastAddress < sector.toNat * engine.sectorSize ∧
      engine.sectorAddress sector = .error (.addressOutOfRange (UInt32.ofNat lastAddress))) := by
  rw [sectorSize_of_requireDevice hdevice]
  by_cases hfits : sector.toNat * device.sectorSize.toNat ≤ lastAddress
  · refine .inl ⟨_, sectorAddress_of_le hdevice hfits, UInt32.toNat_ofNat_of_lt' ?_⟩
    exact Nat.lt_of_le_of_lt hfits (by decide)
  · refine .inr ⟨Nat.lt_of_not_le hfits, ?_⟩
    unfold sectorAddress
    rw [hdevice]
    exact if_neg hfits

/-- A read of bytes that end beyond the device is denied, be there any bytes or not. -/
theorem readSector_beyond {sector : UInt32} (hdevice : engine.requireDevice = .ok device)
    (hbeyond : engine.capacity < sector.toNat * engine.sectorSize + length) :
    engine.readSector sector length =
      throw (.outside (sector.toNat * engine.sectorSize + length - 1)) := by
  unfold readSector
  obtain ⟨address, haddress, hstart⟩ | ⟨hlast, herror⟩ := sectorAddress_cases hdevice sector
  · rw [haddress]
    show engine.read address length = _
    unfold Engine.read
    rw [requireDevice_bind hdevice, checkRange_beyond (hstart ▸ hbeyond), hstart]
    rfl
  · rw [herror, Fault.outside_of_le (by omega)]
    rfl

/-- An operation on a sector is one at the sector's address. -/
theorem perform_sector {operation : Operation} {sector : UInt32} {inner : UInt32 → Operation}
    (h : operation.sector? = some (sector, inner)) :
    engine.perform operation =
      match engine.sectorAddress sector with
      | .ok address => engine.perform (inner address)
      | .error fault => pure ⟨.error fault, operation.buffer?⟩ := by
  cases operation with
  | readSector | writeSector | eraseSector =>
      cases h
      simp only [perform, readSector, writeSector, eraseSector]
      cases engine.sectorAddress sector <;> rfl
  | _ => cases h

/-- An operation on a range that ends beyond the device is denied with its last address. -/
theorem perform_range_denied {operation : Operation} {address : UInt32}
    (hdevice : engine.requireDevice = .ok device)
    (hrange : operation.range? = some (address, length)) (hlength : length ≠ 0)
    (hbeyond : engine.capacity < address.toNat + length) :
    engine.perform operation =
      pure ⟨.error (.outside (address.toNat + length - 1)), operation.buffer?⟩ := by
  have hranges := engine.ranges_perform hdevice hrange hlength
  unfold Ranges at hranges
  rwa [checkRange_beyond hbeyond] at hranges

/-- An operation on a stretch of bytes that ends beyond the device is denied at once. -/
theorem perform_denied {operation : Operation} {start : Nat}
    (hdevice : engine.requireDevice = .ok device)
    (hextent : operation.extent? engine.sectorSize = some (start, length))
    (hlength : length ≠ 0) (hbeyond : engine.capacity < start + length) :
    engine.perform operation =
      pure ⟨.error (.outside (start + length - 1)), operation.buffer?⟩ := by
  obtain ⟨address, hrange, rfl⟩ | ⟨sector, inner, hsector, rfl, hinner⟩ :=
    Operation.extent?_cases hextent
  · exact perform_range_denied hdevice hrange hlength hbeyond
  · rw [perform_sector hsector]
    obtain ⟨address, haddress, hstart⟩ | ⟨hlast, herror⟩ := sectorAddress_cases hdevice sector
    · obtain ⟨hrange, hbuffer⟩ := hinner address
      rw [haddress, ← hbuffer, ← hstart]
      exact perform_range_denied hdevice hrange hlength (hstart ▸ hbeyond)
    · rw [herror, Fault.outside_of_le (by omega)]

end Engine

end NorFlash
