import NorFlash.Bus.Command
import NorFlash.Bytes.Hex

/-!
# Bus traces

A trace lists the calls made to a controller, one line each. The line gives the kind of call by a
letter, the phases of its command in bus order, and a mark if the controller refused it.
-/

namespace NorFlash

/-- One line of a bus trace. -/
inductive TraceEntry where
  /-- A completion event was attached to the controller. -/
  | attached
  /-- A call, and whether the controller refused it. -/
  | call (request : BusCall) (refused : Bool)
  deriving DecidableEq

namespace Trace

/-- A phase width, by its number of lines. -/
def widthText (width : BusWidth) : String :=
  toString width.lines.toNat

/-- A phase with a number, in hexadecimal without padding; a dash if the phase is absent. -/
def phaseText : Option (Nat × BusWidth) → String
  | some (value, width) => Hex.lower 1 value ++ "@" ++ widthText width
  | none => "-"

/-- The longest data written out in full. -/
def longestShown : Nat := 16

/-- The data phase: `n` for none, `r` with a length, `w` with the bytes or, for long data, with
their length and digest. -/
def dataText : DataPhase → String
  | .absent => "n"
  | .read length => "r" ++ toString length
  | .write bytes =>
      if bytes.length ≤ longestShown then "w" ++ Hex.ofBytes bytes
      else "w" ++ toString bytes.length ++ "#" ++ Hex.lower 16 (Bytes.digest bytes).toNat

/-- The phases of a command in bus order, after a letter for the kind of call. -/
def commandText (letter : String) (command : Command) : String :=
  let instruction := Hex.lower 2 command.instruction.toNat ++ "@" ++ widthText command.width
  let address := phaseText (command.address.map fun (address, width) => (address.toNat, width))
  let mode := phaseText (command.mode.map fun (byte, width) => (byte.toNat, width))
  let data := dataText command.data ++ "@" ++ widthText command.dataWidth
  " ".intercalate
    [letter, instruction, address, mode, toString command.dummyCycles.toNat, data]

/-- A status poll: instruction, mask, expected value and interval. -/
def pollText (poll : StatusPoll) : String :=
  " ".intercalate
    ["P", Hex.lower 2 poll.instruction.toNat ++ "@" ++ widthText poll.width,
      Hex.lower 2 poll.mask.toNat, Hex.lower 2 poll.expected.toNat, toString poll.interval.toNat]

/-- A call without its outcome. -/
def callText : BusCall → String
  | .command command => commandText "C" command
  | .start command => commandText "S" command
  | .poll poll => pollText poll
  | .map command => commandText "M" command
  | .abort => "A"

end Trace

/-- The line of a trace. -/
def TraceEntry.text : TraceEntry → String
  | .attached => "B"
  | .call request refused =>
      if refused then Trace.callText request ++ " !" else Trace.callText request

end NorFlash
