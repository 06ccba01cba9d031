import NorFlash.Bus.Command
import NorFlash.Bytes.Hex
import NorFlash.Catalog
import NorFlash.Chip.Memory
import NorFlash.Jedec.Id
import NorFlash.Register

/-!
# Chip state

An emulated serial NOR flash chip: its memory, registers and latches, the bus width it listens on,
and what a test bench adds to it: injected failures, the way deferred operations complete, and a
log.
-/

namespace NorFlash

/-- Whose register set a chip has. -/
inductive Vendor where
  | winbond
  | micron
  | other
  deriving DecidableEq

namespace Vendor

/-- The register set of a manufacturer's chips. -/
def ofManufacturer (id : UInt8) : Vendor :=
  if id = Catalog.winbondId then winbond
  else if id = Catalog.micronId then micron
  else other

/-- The vendor as shown to a user. -/
def name : Vendor → String
  | winbond => "Winbond"
  | micron => "Micron"
  | other => "Other"

end Vendor

/-- A change of the memory, as the chip logs it. -/
inductive MemoryEvent where
  | erase (base size : Nat)
  /-- A page program: the address and length sent, whether every byte fell on an erased one, and
  whether some byte could not be stored for want of an erase. -/
  | program (address : UInt32) (length : Nat) (ontoErased needsErase : Bool)
  deriving DecidableEq

/-- How the chip's controller reports the end of a deferred operation. -/
inductive CompletionMode where
  | immediate
  | delayed (milliseconds : Nat)
  | never
  deriving DecidableEq

/-- Failures to inject: so many operations succeed, then so many fail. -/
structure FailurePlan where
  spared : Nat
  failures : Nat
  deriving DecidableEq

namespace FailurePlan

/-- Nothing fails. -/
def none : FailurePlan :=
  ⟨0, 0⟩

/-- Whether the next operation fails, and the plan for those after it. -/
def next (plan : FailurePlan) : Bool × FailurePlan :=
  if plan.failures = 0 then (false, plan)
  else if plan.spared = 0 then (true, { plan with failures := plan.failures - 1 })
  else (false, { plan with spared := plan.spared - 1 })

end FailurePlan

/-- The latches a chip sets and clears by instructions. -/
structure Latches where
  writeEnable : Bool
  /-- Lets the next status register write reach the volatile copy only. -/
  volatileWriteEnable : Bool
  /-- The last instruction heard enabled a reset. -/
  resetEnable : Bool
  deriving DecidableEq

namespace Latches

/-- Every latch clear. -/
def clear : Latches :=
  ⟨false, false, false⟩

end Latches

/-- The registers of a chip of any vendor. -/
structure Registers where
  status2 : Status2
  /-- The non-volatile copy, which a reset restores. -/
  storedStatus2 : Status2
  readParameters : ReadParameters
  volatileConfig : VolatileConfig
  enhancedConfig : EnhancedConfig
  deriving DecidableEq

namespace Registers

/-- The registers after a reset, given the non-volatile status register. -/
def afterReset (storedStatus2 : Status2) : Registers :=
  ⟨storedStatus2, storedStatus2, ⟨0⟩, ⟨0xFB⟩, ⟨0xFF⟩⟩

end Registers

/-- An emulated chip. -/
structure Chip where
  vendor : Vendor
  id : JedecId
  memory : Memory
  asleep : Bool
  /-- The chip listens on four lines. -/
  quad : Bool
  latches : Latches
  registers : Registers
  /-- Reads of the mapped window reach the memory. -/
  mapped : Bool
  /-- The chip ignores instructions sent on another width than it listens on. -/
  strict : Bool
  completion : CompletionMode
  plan : FailurePlan
  aborts : Nat
  /-- The instructions received, the ignored ones included. -/
  opcodes : Array UInt8
  events : Array MemoryEvent
  deriving DecidableEq

namespace Chip

/-- A chip with erased memory that answers with the given identification. -/
def fresh (id : JedecId) : Chip where
  vendor := .ofManufacturer id.manufacturer
  id := id
  memory := .blank id.capacityCode
  asleep := false
  quad := false
  latches := .clear
  registers := .afterReset ⟨0⟩
  mapped := false
  strict := true
  completion := .immediate
  plan := .none
  aborts := 0
  opcodes := #[]
  events := #[]

/-- The width the chip listens on. -/
def width (chip : Chip) : BusWidth :=
  if chip.quad then .quad else .single

/-- The chip acts on instructions sent on the given width. -/
def listens (chip : Chip) (width : BusWidth) : Bool :=
  !chip.strict || width == chip.width

/-- Status register 1. Operations take no time, so the chip is never busy. -/
def status1 (chip : Chip) : Status1 :=
  .idle chip.latches.writeEnable

/-- The cycles the chip expects between address and data of a quad read. A Winbond chip in quad
protocol takes them from its read parameters, and a Micron chip from its configuration, where 0 and
15 stand for ten. Otherwise they are a mode byte on four lines and four dummy cycles. -/
def readDummyCycles (chip : Chip) : UInt8 :=
  match chip.vendor with
  | .winbond => if chip.quad then chip.registers.readParameters.dummyCycles else 6
  | .micron =>
      let cycles := chip.registers.volatileConfig.dummyCycles
      if cycles = 0 ∨ cycles = 15 then 10 else cycles
  | .other => 6

/-- A reset: single-line protocol, no write enabled, and volatile registers at their defaults. -/
def reset (chip : Chip) : Chip :=
  { chip with
    quad := false
    latches := { chip.latches with writeEnable := false, volatileWriteEnable := false }
    registers := .afterReset chip.registers.storedStatus2 }

/-- Whether the chip accepts a quad read: quad enable on a Winbond chip, and exactly the cycles it
expects. The two cycle counts are added as bytes, which overflows if a byte does not count their
sum. -/
def checkRead (chip : Chip) (command : Command) : Except BusFault Unit :=
  if chip.vendor = .winbond ∧ chip.registers.status2.quadEnabled = false then
    .error .quadDisabled
  else if UInt8.size ≤ command.latency then
    .error .cycleOverflow
  else if command.modeCycles + command.dummyCycles = chip.readDummyCycles then
    .ok ()
  else
    .error (.cycleMismatch command.modeCycles command.dummyCycles chip.readDummyCycles)

/-- The chip with the first `spared` operations succeeding and the `failures` after them failing. -/
def failing (chip : Chip) (spared failures : Nat) : Chip :=
  { chip with plan := ⟨spared, failures⟩ }

/-- Sets the quad enable bit, in the non-volatile copy too. -/
def withQuadEnable (chip : Chip) (enabled : Bool) : Chip :=
  let status2 := chip.registers.storedStatus2.withQuadEnable enabled
  { chip with registers := { chip.registers with status2, storedStatus2 := status2 } }

/-- Replaces memory, whatever was there. -/
def overwrite (chip : Chip) (address : UInt32) (bytes : Bytes) : Chip :=
  { chip with memory := chip.memory.overwrite address.toNat bytes }

/-- Reads through the mapped window; `none` while the chip is not mapped. -/
def readMapped (chip : Chip) (address : UInt32) (length : Nat) : Option Bytes :=
  if chip.mapped then some (chip.memory.read address.toNat length) else none

/-- Forgets the instructions and events logged. -/
def clearLog (chip : Chip) : Chip :=
  { chip with opcodes := #[], events := #[] }

/-- The chip as shown to a user. -/
def text (chip : Chip) : String :=
  let id := ", ".intercalate (chip.id.toBytes.map fun (byte : UInt8) => Hex.upper 2 byte.toNat)
  "SimFlash(" ++ chip.vendor.name ++ ", ID [" ++ id ++ "], " ++ toString chip.memory.size ++
    " bytes)"

end Chip

end NorFlash
