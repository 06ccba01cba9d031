import NorFlash.Bytes.Basic
import NorFlash.Bus.Width

/-!
# Bus commands

A command is one exchange on the bus: an instruction, then optionally an address, a mode byte, dummy
cycles and a data phase. `BusCall` lists what a controller can be asked to do with one, and `Reply`
is its answer.
-/

namespace NorFlash

/-- The data phase of a command: absent, so many bytes from the device, or bytes to the device. -/
inductive DataPhase where
  | absent
  | read (length : Nat)
  | write (bytes : Bytes)
  deriving DecidableEq

namespace DataPhase

/-- The number of bytes moved. -/
def length : DataPhase → Nat
  | absent => 0
  | read length => length
  | write bytes => bytes.length

/-- What a read phase receives from a device that answers with `response` and then drives zeros. A
phase of any other kind receives nothing. -/
def receive (response : Bytes) : DataPhase → Option Bytes
  | read length => some (Bytes.resized response length)
  | _ => none

/-- What a read phase receives from data lines that nothing drives: they are pulled high. -/
def float : DataPhase → Option Bytes
  | read length => some (List.replicate length 0xFF)
  | _ => none

end DataPhase

/-- One exchange on the bus. Addresses are sent as 24 bits. -/
structure Command where
  instruction : UInt8
  width : BusWidth
  address : Option (UInt32 × BusWidth)
  /-- The mode byte sent after the address. -/
  mode : Option (UInt8 × BusWidth)
  dummyCycles : UInt8
  data : DataPhase
  dataWidth : BusWidth
  deriving DecidableEq

namespace Command

/-- A command with only an instruction phase. -/
def instruct (instruction : UInt8) (width : BusWidth) : Command :=
  ⟨instruction, width, none, none, 0, .absent, width⟩

/-- The command with an address phase. -/
def atAddress (command : Command) (address : UInt32) (width : BusWidth) : Command :=
  { command with address := some (address, width) }

/-- The command with a mode byte after the address. -/
def withMode (command : Command) (byte : UInt8) (width : BusWidth) : Command :=
  { command with mode := some (byte, width) }

/-- The command with dummy cycles before the data. -/
def withDummy (command : Command) (cycles : UInt8) : Command :=
  { command with dummyCycles := cycles }

/-- The command with a data phase from the device. -/
def reading (command : Command) (length : Nat) (width : BusWidth) : Command :=
  { command with data := .read length, dataWidth := width }

/-- The command with a data phase to the device. -/
def writing (command : Command) (bytes : Bytes) (width : BusWidth) : Command :=
  { command with data := .write bytes, dataWidth := width }

/-- The clock cycles the mode byte takes. -/
def modeCycles (command : Command) : UInt8 :=
  match command.mode with
  | some (_, width) => width.cyclesPerByte
  | none => 0

/-- The clock cycles between address and data, counted without a bound. -/
def latency (command : Command) : Nat :=
  command.modeCycles.toNat + command.dummyCycles.toNat

end Command

/-- Automatic status polling: `instruction` is repeated until the status byte, masked, equals
`expected`. -/
structure StatusPoll where
  instruction : UInt8
  width : BusWidth
  mask : UInt8
  expected : UInt8
  /-- Bus clock cycles between two polls. -/
  interval : UInt16
  deriving DecidableEq

/-- Why a controller could not carry out a call. -/
inductive BusFault where
  /-- A failure that a test has injected. -/
  | injected
  /-- The device is asleep or listens on another width. -/
  | notResponding
  /-- A quad read of a device whose quad enable bit is clear. -/
  | quadDisabled
  /-- A quad read whose mode and dummy cycles do not add up to what the device expects. -/
  | cycleMismatch (modeCycles dummyCycles expected : UInt8)
  /-- A quad read whose mode and dummy cycles add up to more than a byte counts. No controller
  answers so: the addition overflows, and that ends the program that makes the call. -/
  | cycleOverflow
  /-- Any other cause, in the controller's own words. -/
  | other (text : String)
  deriving DecidableEq

namespace BusFault

/-- The wording shown to a user. -/
def message : BusFault → String
  | injected => "simulated transport failure"
  | notResponding => "device not responding to memory-mapped reads"
  | quadDisabled => "quad read issued with QE clear"
  | cycleMismatch modeCycles dummyCycles expected =>
      "read with " ++ toString modeCycles.toNat ++ " mode and " ++ toString dummyCycles.toNat ++
        " dummy cycles, device expects " ++ toString expected.toNat ++ " in total"
  | cycleOverflow => "attempt to add with overflow"
  | other text => text

end BusFault

/-- A request to the controller that drives the bus. -/
inductive BusCall where
  /-- Carry out a command to its end. -/
  | command (command : Command)
  /-- Begin a command whose end is reported by the completion event. -/
  | start (command : Command)
  /-- Begin polling; a match is reported by the completion event. -/
  | poll (poll : StatusPoll)
  /-- Map the device, so that reads of the mapped window issue the command. -/
  | map (command : Command)
  /-- Stop whatever is in progress, and end the mapping. -/
  | abort
  deriving DecidableEq

namespace BusCall

/-- A call whose end is reported by the completion event. -/
def isDeferred : BusCall → Bool
  | start _ | poll _ => true
  | _ => false

end BusCall

/-- The controller's answer: a fault, or the bytes a read phase received. No bytes means that the
reader's buffer is as it was. -/
abbrev Reply := Except BusFault (Option Bytes)

end NorFlash
