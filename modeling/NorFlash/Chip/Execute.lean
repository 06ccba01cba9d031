import NorFlash.Chip.Instruction

/-!
# Chip behaviour

How a chip answers the calls of its controller. A command is heard if it comes on the width the chip
listens on while the chip is awake; of the others only the release from power-down has an effect,
and their reads float to all ones. `Chip.obey` is the effect of one heard instruction,
`Chip.execute` that of any command, and `Chip.answer` that of any call.
-/

namespace NorFlash

/-- A chip's answer to a call: the reply, and whether a deferred operation will be reported
complete. -/
structure Answer where
  reply : Reply
  completes : Bool

namespace Chip

/-- Uses up the write enable latch, as every erase and program does. -/
def consumeWriteEnable (chip : Chip) : Chip :=
  { chip with latches := { chip.latches with writeEnable := false } }

/-- Erases the aligned unit of `addressable unitBits` bytes around an address, or the whole memory
if that is smaller. Nothing happens without write enable. -/
def erase (chip : Chip) (unitBits : Nat) (address : UInt32) : Chip :=
  if chip.latches.writeEnable then
    let size := min (addressable unitBits) chip.memory.size
    let base := chip.memory.index address.toNat / size * size
    { chip.consumeWriteEnable with
      memory := chip.memory.eraseUnit unitBits address.toNat
      events := chip.events.push (.erase base size) }
  else
    chip

/-- Programs the page at an address. Nothing happens without write enable. -/
def program (chip : Chip) (address : UInt32) (bytes : Bytes) : Chip :=
  if chip.latches.writeEnable then
    let course := chip.memory.program address.toNat bytes
    { chip.consumeWriteEnable with
      memory := course.memory
      events :=
        chip.events.push (.program address bytes.length course.ontoErased course.needsErase) }
  else
    chip

/-- The first byte a command writes, which is all that a register write looks at. -/
def firstWritten? (command : Command) : Option UInt8 :=
  match command.data with
  | .write (value :: _) => some value
  | _ => none

/-- Writes status register 2: both copies under write enable, the volatile one alone under volatile
write enable. Either way both latches are used up. -/
def writeStatus2 (chip : Chip) (value : Option UInt8) : Chip :=
  let registers := match value with
    | none => chip.registers
    | some value =>
        if chip.latches.writeEnable then
          { chip.registers with status2 := ⟨value⟩, storedStatus2 := ⟨value⟩ }
        else if chip.latches.volatileWriteEnable then
          { chip.registers with status2 := ⟨value⟩ }
        else
          chip.registers
  { chip with
    registers
    latches := { chip.latches with writeEnable := false, volatileWriteEnable := false } }

/-- Writes the volatile configuration, under write enable. -/
def writeVolatileConfig (chip : Chip) (value : Option UInt8) : Chip :=
  let next := chip.consumeWriteEnable
  match value with
  | some value =>
      if chip.latches.writeEnable then
        { next with registers := { next.registers with volatileConfig := ⟨value⟩ } }
      else
        next
  | none => next

/-- Writes the enhanced volatile configuration, under write enable. The chip listens on the width it
selects from then on. -/
def writeEnhancedConfig (chip : Chip) (value : Option UInt8) : Chip :=
  let next := chip.consumeWriteEnable
  match value with
  | some value =>
      if chip.latches.writeEnable then
        { next with
          registers := { next.registers with enhancedConfig := ⟨value⟩ }
          quad := EnhancedConfig.quadProtocol ⟨value⟩ }
      else
        next
  | none => next

/-- The bytes a quad read delivers. -/
def readQuad (chip : Chip) (command : Command) (address : UInt32) : Reply :=
  match chip.checkRead command with
  | .error fault => .error fault
  | .ok () =>
      match command.data with
      | .read length => .ok (some (chip.memory.read address.toNat length))
      | _ => .ok none

/-- The reply to an instruction that answers with nothing. -/
def silent : Reply :=
  .ok none

/-- The effect of an instruction the chip hears. `resetEnabled` tells whether the instruction heard
before it enabled a reset; that latch itself is clear by now. -/
def obey (chip : Chip) (instruction : Instruction) (resetEnabled : Bool) (command : Command) :
    Reply × Chip :=
  let address := match command.address with
    | some (address, _) => address
    | none => 0
  let answerWith (bytes : Bytes) : Reply × Chip := (.ok (command.data.receive bytes), chip)
  match instruction with
  | .readId => answerWith chip.id.toBytes
  | .readStatus1 => answerWith [chip.status1.value]
  | .enableWrite => (silent, { chip with latches := { chip.latches with writeEnable := true } })
  | .disableWrite => (silent, { chip with latches := { chip.latches with writeEnable := false } })
  | .sleep => (silent, { chip with asleep := true })
  | .wake => (silent, chip)
  | .enableReset => (silent, { chip with latches := { chip.latches with resetEnable := true } })
  | .reset => (silent, if resetEnabled then chip.reset else chip)
  | .program =>
      match command.data with
      | .write bytes => (silent, chip.program address bytes)
      | _ => (silent, chip)
  | .erase unit => (silent, chip.erase unit.bits address)
  | .eraseChip => (silent, chip.erase chip.memory.bits 0)
  | .readQuad => (chip.readQuad command address, chip)
  | .enableVolatileWrite =>
      (silent, { chip with latches := { chip.latches with volatileWriteEnable := true } })
  | .readStatus2 => answerWith [chip.registers.status2.value]
  | .writeStatus2 => (silent, chip.writeStatus2 (firstWritten? command))
  | .enterQuadProtocol =>
      (silent, if chip.registers.status2.quadEnabled then { chip with quad := true } else chip)
  | .setReadParameters =>
      match firstWritten? command with
      | some value =>
          (silent,
            if chip.quad then
              { chip with registers := { chip.registers with readParameters := ⟨value⟩ } }
            else
              chip)
      | none => (silent, chip)
  | .readVolatileConfig => answerWith [chip.registers.volatileConfig.value]
  | .writeVolatileConfig => (silent, chip.writeVolatileConfig (firstWritten? command))
  | .readEnhancedConfig => answerWith [chip.registers.enhancedConfig.value]
  | .writeEnhancedConfig => (silent, chip.writeEnhancedConfig (firstWritten? command))

/-- The effect of a command the chip hears. A byte it does not know only ends a pending reset
enable. -/
def hear (chip : Chip) (command : Command) : Reply × Chip :=
  let resetEnabled := chip.latches.resetEnable
  let chip := { chip with latches := { chip.latches with resetEnable := false } }
  match Instruction.decode? chip.vendor command.instruction with
  | some instruction => chip.obey instruction resetEnabled command
  | none => (silent, chip)

/-- Logs an instruction received. -/
def log (chip : Chip) (instruction : UInt8) : Chip :=
  { chip with opcodes := chip.opcodes.push instruction }

/-- The effect of a command that reaches the chip. -/
def receive (chip : Chip) (command : Command) : Reply × Chip :=
  if !chip.listens command.width then
    (.ok command.data.float, chip)
  else if chip.asleep then
    (.ok command.data.float,
      if command.instruction = Opcode.releasePowerDown.code then { chip with asleep := false }
      else chip)
  else
    chip.hear command

/-- The chip once it is known whether the next operation fails. -/
def drawFailure (chip : Chip) : Bool × Chip :=
  (chip.plan.next.1, { chip with plan := chip.plan.next.2 })

/-- Carries out a command, unless a failure is due. -/
def execute (chip : Chip) (command : Command) : Reply × Chip :=
  match chip.drawFailure with
  | (true, chip) => (.error .injected, chip)
  | (false, chip) => (chip.log command.instruction).receive command

/-- The status byte a poll sees: all ones unless the chip hears a status read. -/
def polledStatus (chip : Chip) (poll : StatusPoll) : UInt8 :=
  if chip.listens poll.width && !chip.asleep && poll.instruction == Opcode.readStatus1.code then
    chip.status1.value
  else
    0xFF

/-- Polls the status. A status that does not match now never will. -/
def poll (chip : Chip) (poll : StatusPoll) : Answer × Chip :=
  match chip.drawFailure with
  | (true, chip) => (⟨.error .injected, false⟩, chip)
  | (false, chip) =>
      (⟨silent, chip.polledStatus poll &&& poll.mask == poll.expected⟩, chip.log poll.instruction)

/-- Maps the chip, if it would accept the reads that the mapped window issues. -/
def map (chip : Chip) (command : Command) : Reply × Chip :=
  match chip.drawFailure with
  | (true, chip) => (.error .injected, chip)
  | (false, chip) =>
      if chip.asleep || !chip.listens command.width then
        (.error .notResponding, chip)
      else
        match chip.checkRead command with
        | .error fault => (.error fault, chip)
        | .ok () => (silent, { chip with mapped := true })

/-- Answers a call. A command that is started is complete as soon as the chip has carried it out. -/
def answer (chip : Chip) : BusCall → Answer × Chip
  | .command command =>
      let (reply, chip) := chip.execute command
      (⟨reply, false⟩, chip)
  | .start command =>
      let (reply, chip) := chip.execute command
      (⟨reply, reply.isOk⟩, chip)
  | .poll poll => chip.poll poll
  | .map command =>
      let (reply, chip) := chip.map command
      (⟨reply, false⟩, chip)
  | .abort => (⟨silent, false⟩, { chip with mapped := false, aborts := chip.aborts + 1 })

end Chip

end NorFlash
