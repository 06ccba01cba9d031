import NorFlash.Bench.Basic
import NorFlash.BlockDevice

/-!
# Bench sessions

A session is an engine or a block device on a bench, taken through steps: operations, changes of the
chip, and questions. `Session.take` is one step, and `Session.hold` is a step during which others
get their turn.
-/

namespace NorFlash

/-- What is on the bench. -/
inductive Subject where
  | engine (engine : Engine)
  | device (device : BlockDevice)

/-- A request to what is on the bench. -/
inductive Request where
  | engine (request : EngineRequest)
  | device (request : BlockRequest)

namespace Subject

/-- The engine, or the one below the block device. -/
def flash : Subject → Engine
  | .engine flash => flash
  | .device blocks => blocks.engine

/-- The program of a request; `none` if the subject does not take it. A block device passes on the
operations of the engine below, but does not let anyone else change that engine. -/
def serve? : Subject → Request → Option (Program (Outcome × Subject))
  | .engine flash, .engine request => some do
      let (outcome, flash) ← flash.serve request
      return (outcome, .engine flash)
  | .device blocks, .engine (.operation operation) => some do
      let (outcome, blocks) ← blocks.serve (.operation (.engine operation))
      return (outcome, .device blocks)
  | .device blocks, .device request => some do
      let (outcome, blocks) ← blocks.serve request
      return (outcome, .device blocks)
  | _, _ => none

end Subject

namespace Request

/-- The request reports progress to its caller. -/
def reports : Request → Bool
  | .engine (.operation operation) => operation.reports
  | _ => false

end Request

/-- One step of a session. -/
inductive Step where
  | request (request : Request)
  /-- Put a new engine on the bench. -/
  | newEngine
  /-- Put a new block device on the bench. -/
  | newDevice
  /-- Make the engine a block device. -/
  | wrap
  /-- Take the engine out of the block device. -/
  | unwrap
  /-- Replace the engine's timeouts. -/
  | setTimeouts (timeouts : Timeouts)
  /-- Report the newest operation complete. -/
  | signal
  | timeouts
  | info
  | isOpen
  | geometry
  /-- Let operations fail: so many succeed first. -/
  | failing (spared failures : Nat)
  | setStrict (strict : Bool)
  | setAsleep (asleep : Bool)
  | setQuadEnable (enabled : Bool)
  | setCompletion (mode : CompletionMode)
  | chipSize
  | chipText
  | peek (address : UInt32) (length : Nat)
  | poke (address : UInt32) (bytes : Bytes)
  | readMapped (address : UInt32) (length : Nat)
  /-- Make a call to the chip itself, with a buffer for what it sends. -/
  | callChip (request : BusCall) (buffer : Option Bytes)
  | abortChip
  | setEcho (echo : Echo)
  /-- Bring the chip into quad mode behind the engine's back. -/
  | enterQuad (entry : QuadEntry) (dummyCycles : UInt8)
  /-- A step that no session takes. -/
  | unknown

/-- What a step answers. -/
inductive StepAnswer where
  /-- An operation's outcome, and the progress it reported if it does report. -/
  | outcome (outcome : Outcome) (reports : Option (List Nat))
  | width (result : Except Fault BusWidth)
  | nothing
  | flag (value : Bool)
  | number (value : Nat)
  | numbers (values : List Nat)
  | text (text : String)
  | bytes (bytes : Bytes)
  | unmapped
  | info (engine : Engine)
  /-- The step does not fit what is on the bench. -/
  | misfit

/-- The step ends the program: a call to the chip overflowed. -/
def StepAnswer.crashes : StepAnswer → Bool
  | .outcome ⟨.error (.bus .cycleOverflow), _⟩ _ => true
  | .width (.error (.bus .cycleOverflow)) => true
  | _ => false

/-- A bench with something on it. -/
structure Session where
  bench : Bench
  subject : Subject
  /-- The timeouts of new engines. -/
  timeouts : Timeouts

namespace Session

/-- A session with a fresh chip, and a new engine that is wrapped in a block device or not. -/
def start (id : JedecId) (timeouts : Timeouts) (asDevice : Bool) : Session where
  bench := (Bench.ofChip (Chip.fresh id)).attach
  subject :=
    if asDevice then .device (.closed (.fresh timeouts)) else .engine (.fresh timeouts)
  timeouts := timeouts

/-- The session with a changed chip. -/
def onChip (session : Session) (change : Chip → Chip) : Session :=
  { session with bench := { session.bench with chip := change session.bench.chip } }

/-- The session with a new subject on the bench. -/
def replaceBy (session : Session) (subject : Subject) : Session :=
  { session with bench := session.bench.attach, subject }

/-- The progress that a request shows its caller. -/
def shownReports (request : Request) (bench : Bench) : Option (List Nat) :=
  if request.reports then some bench.reports.toList else none

/-- The bench before an operation, which has reported nothing yet. -/
def quietBench (session : Session) : Bench :=
  { session.bench with reports := #[] }

/-- Carries out a request. -/
def takeRequest (session : Session) (request : Request) : StepAnswer × Session :=
  match session.subject.serve? request with
  | none => (.misfit, session)
  | some program =>
      let ((outcome, subject), bench) := program.run Bench.environment session.quietBench
      (.outcome outcome (shownReports request bench), { session with bench, subject })

/-- The device that a bare quad entry sequence is run for: only its dummy cycles matter. -/
def bareDevice (dummyCycles : UInt8) : Descriptor :=
  ⟨0, "bare", 4096, false, dummyCycles, none⟩

/-- The outcome of a call to the chip, given the caller's buffer. -/
def chipOutcome (reply : Reply) (buffer : Option Bytes) : Outcome where
  result := match reply with
    | .ok _ => .ok .nothing
    | .error cause => .error (.bus cause)
  buffer := match reply with
    | .ok (some received) => buffer.map fun _ => received
    | _ => buffer

/-- Takes one step. -/
def take (session : Session) : Step → StepAnswer × Session
  | .request request => session.takeRequest request
  | .newEngine => (.nothing, session.replaceBy (.engine (.fresh session.timeouts)))
  | .newDevice => (.nothing, session.replaceBy (.device (.closed (.fresh session.timeouts))))
  | .wrap =>
      match session.subject with
      | .engine engine => (.nothing, { session with subject := .device (.closed engine) })
      | .device _ => (.misfit, session)
  | .unwrap =>
      match session.subject with
      | .device device => (.nothing, { session with subject := .engine device.engine })
      | .engine _ => (.misfit, session)
  | .setTimeouts timeouts =>
      match session.subject with
      | .engine engine => (.nothing, { session with subject := .engine { engine with timeouts } })
      | .device _ => (.misfit, session)
  | .signal =>
      (.nothing,
        { session with bench := { session.bench with event := session.bench.event.signal } })
  | .timeouts =>
      let timeouts := session.subject.flash.timeouts
      (.numbers [timeouts.command, timeouts.erase, timeouts.chipErase], session)
  | .info => (.info session.subject.flash, session)
  | .isOpen =>
      match session.subject with
      | .device device => (.flag device.isOpen, session)
      | .engine _ => (.misfit, session)
  | .geometry =>
      match session.subject with
      | .device device => (.numbers [device.blockSize, device.blockCount], session)
      | .engine _ => (.misfit, session)
  | .failing spared failures =>
      (.nothing, session.onChip fun chip => chip.failing spared failures)
  | .setStrict strict => (.nothing, session.onChip fun chip => { chip with strict })
  | .setAsleep asleep => (.nothing, session.onChip fun chip => { chip with asleep })
  | .setQuadEnable enabled => (.nothing, session.onChip fun chip => chip.withQuadEnable enabled)
  | .setCompletion mode => (.nothing, session.onChip fun chip => { chip with completion := mode })
  | .chipSize => (.number session.bench.chip.memory.size, session)
  | .chipText => (.text session.bench.chip.text, session)
  | .peek address length =>
      (.bytes (session.bench.chip.memory.read address.toNat length), session)
  | .poke address bytes => (.nothing, session.onChip fun chip => chip.overwrite address bytes)
  | .readMapped address length =>
      match session.bench.chip.readMapped address length with
      | some bytes => (.bytes bytes, session)
      | none => (.unmapped, session)
  | .callChip request buffer =>
      let (reply, bench) := session.bench.callChip request
      (.outcome (chipOutcome reply buffer) none, { session with bench })
  | .abortChip => (.nothing, { session with bench := (session.bench.callChip .abort).2 })
  | .setEcho echo => (.nothing, { session with bench := { session.bench with echo } })
  | .enterQuad entry dummyCycles =>
      let program := (entry.enter (bareDevice dummyCycles)).run
      let (result, bench) := program.run Bench.environment session.bench
      (.width result, { session with bench })
  | .unknown => (.misfit, session)

/-- Takes steps one after the other. -/
def takeAll (session : Session) : List Step → List StepAnswer × Session
  | [] => ([], session)
  | step :: rest =>
      let (answer, session) := session.take step
      let (answers, session) := session.takeAll rest
      (answer :: answers, session)

/-- Carries out a program that is held up at its first call to the controller while steps are taken.
A program that makes no call is done before them. -/
def holdProgram {α : Type} (session : Session) (program : Program α) (inner : List Step) :
    (α × List StepAnswer) × Session :=
  let (rest, held) := program.runToCall Bench.environment session.quietBench
  let (answers, session) := { session with bench := held }.takeAll inner
  let resumed := { session.bench with reports := held.reports }
  let (value, bench) := rest.run Bench.environment resumed
  ((value, answers), { session with bench })

/-- Takes a step that is held up at its first call to the controller while other steps are taken. A
step that makes no call is done before them. -/
def hold (session : Session) (outer : Step) (inner : List Step) :
    (StepAnswer × List StepAnswer) × Session :=
  match outer with
  | .request request =>
      match session.subject.serve? request with
      | none =>
          let (answers, session) := session.takeAll inner
          ((.misfit, answers), session)
      | some program =>
          let (((outcome, subject), answers), session) := session.holdProgram program inner
          ((.outcome outcome (shownReports request session.bench), answers),
            { session with subject })
  | .enterQuad entry dummyCycles =>
      let program := (entry.enter (bareDevice dummyCycles)).run
      let ((result, answers), session) := session.holdProgram program inner
      ((.width result, answers), session)
  | outer =>
      let (answer, session) := session.take outer
      let (answers, session) := session.takeAll inner
      ((answer, answers), session)

/-- A step, or a step held up for others. -/
inductive Turn where
  | step (step : Step)
  | hold (outer : Step) (inner : List Step)

/-- What a turn answers. -/
inductive TurnAnswer where
  | step (answer : StepAnswer)
  | hold (outer : StepAnswer) (inner : List StepAnswer)

/-- A step of the turn ends the program. -/
def TurnAnswer.crashes : TurnAnswer → Bool
  | .step answer => answer.crashes
  | .hold outer inner => outer.crashes || inner.any StepAnswer.crashes

/-- What can be seen of the bench after a turn: the chip's log since the turn before, its mode, and
the trace. -/
structure View where
  opcodes : Bytes
  events : List MemoryEvent
  asleep : Bool
  quad : Bool
  quadEnabled : Bool
  readDummyCycles : UInt8
  aborts : Nat
  token : Token
  trace : List TraceEntry

/-- The view of the session. -/
def view (session : Session) : View where
  opcodes := session.bench.chip.opcodes.toList
  events := session.bench.chip.events.toList
  asleep := session.bench.chip.asleep
  quad := session.bench.chip.quad
  quadEnabled := session.bench.chip.registers.status2.quadEnabled
  readDummyCycles := session.bench.chip.readDummyCycles
  aborts := session.bench.chip.aborts
  token := session.bench.event.token
  trace := session.bench.trace.toList

/-- The session with its logs emptied. -/
def clearLogs (session : Session) : Session :=
  { session with
    bench := { session.bench with chip := session.bench.chip.clearLog, trace := #[] } }

/-- Takes a turn. -/
def takeTurn (session : Session) : Turn → TurnAnswer × Session
  | .step step =>
      let (answer, session) := session.take step
      (.step answer, session)
  | .hold outer inner =>
      let ((outer, inner), session) := session.hold outer inner
      (.hold outer inner, session)

/-- Takes turns one after the other, and looks at the bench after each. -/
def play (session : Session) : List Turn → List (TurnAnswer × View)
  | [] => []
  | turn :: rest =>
      let (answer, session) := session.takeTurn turn
      (answer, session.view) :: session.clearLogs.play rest

/-- What a session answers to its turns: nothing at all if one of them ends the program. -/
def answers? (session : Session) (turns : List Turn) : Option (List (TurnAnswer × View)) :=
  let played := session.play turns
  if played.any fun (answer, _) => answer.crashes then none else some played

end Session

end NorFlash
