import NorFlash.Bus.Trace
import NorFlash.Chip.Execute
import NorFlash.Engine.Program
import NorFlash.Event

/-!
# Test bench

A bench connects an engine to an emulated chip. It holds what the engine's programs find around
them: the chip, the completion event, the bus in its lock, and a recorder between engine and chip
that keeps a trace. `Bench.environment` answers the requests of a program.

No clock runs on a bench. A completion that is on its way arrives during a wait if its delay is
below the wait's patience, and a bus that is held stays held while another caller waits for it.
-/

namespace NorFlash

/-- What the recorder itself reports on the completion event after each deferred call that began. -/
inductive Echo where
  | quiet
  /-- The newest operation is complete. -/
  | signal
  /-- The operation with the newest token is complete. -/
  | current
  /-- The operation that was newest at the deferred call before this one is complete. -/
  | stale
  deriving DecidableEq

/-- A completion that will be reported after a delay. -/
structure Delivery where
  token : Token
  milliseconds : Nat
  deriving DecidableEq

/-- The surroundings of an engine. -/
structure Bench where
  chip : Chip
  event : Event
  /-- Completions that have not arrived yet. -/
  deliveries : List Delivery
  /-- The bus, while nobody holds it. -/
  bus : Option BusState
  trace : Array TraceEntry
  /-- The progress reported by the operation that is running. -/
  reports : Array Nat
  echo : Echo
  /-- The newest token at the last deferred call that began. -/
  lastBegun : Option Token

namespace Bench

/-- The bench with a new completion event and a free bus, as a new engine finds it. Completions on
their way were for an earlier event, so nobody will see them. -/
def attach (bench : Bench) : Bench :=
  { bench with
    event := .fresh
    deliveries := []
    bus := some .fresh
    trace := bench.trace.push .attached }

/-- A bench with a chip and no engine yet. -/
def ofChip (chip : Chip) : Bench where
  chip := chip
  event := .fresh
  deliveries := []
  bus := some .fresh
  trace := #[]
  reports := #[]
  echo := .quiet
  lastBegun := none

/-- Reports the newest operation complete, in the chip's way. -/
def complete (bench : Bench) : Bench :=
  match bench.chip.completion with
  | .immediate => { bench with event := bench.event.signalFor bench.event.token }
  | .delayed milliseconds =>
      { bench with deliveries := ⟨bench.event.token, milliseconds⟩ :: bench.deliveries }
  | .never => bench

/-- A call made to the chip itself, which the recorder does not see. -/
def callChip (bench : Bench) (request : BusCall) : Reply × Bench :=
  let (answer, chip) := bench.chip.answer request
  let bench := { bench with chip }
  (answer.reply, if answer.completes then bench.complete else bench)

/-- What the recorder does once a deferred call has begun. -/
def noteBegun (bench : Bench) : Bench :=
  let token := bench.event.token
  let event := match bench.echo, bench.lastBegun with
    | .quiet, _ => bench.event
    | .signal, _ => bench.event.signal
    | .current, _ => bench.event.signalFor token
    | .stale, some earlier => bench.event.signalFor earlier
    | .stale, none => bench.event
  { bench with event, lastBegun := some token }

/-- A call made through the recorder. -/
def call (bench : Bench) (request : BusCall) : Reply × Bench :=
  let (reply, bench) := bench.callChip request
  let bench := { bench with trace := bench.trace.push (.call request !reply.isOk) }
  (reply, if request.isDeferred && reply.isOk then bench.noteBegun else bench)

/-- The delivery arrives during a wait for the newest operation. -/
def arrives (bench : Bench) (patience : Nat) (delivery : Delivery) : Bool :=
  delivery.token == bench.event.token && delivery.milliseconds < patience

/-- Waits for the newest operation. -/
def await (bench : Bench) (patience : Nat) : Bool × Bench :=
  if bench.event.done then
    (true, { bench with event := bench.event.wait.2 })
  else if bench.deliveries.any (bench.arrives patience) then
    (true,
      { bench with
        deliveries := bench.deliveries.filter fun delivery => !bench.arrives patience delivery })
  else
    (false, bench)

/-- Issues a new operation. Completions on their way for earlier ones no longer count, since they
carry earlier tokens. -/
def arm (bench : Bench) : Bench :=
  { bench with event := bench.event.arm }

/-- How a bench answers the requests of a program. -/
def environment : Environment Bench where
  acquire _ bench := (bench.bus, { bench with bus := none })
  release bus bench := { bench with bus := some bus }
  arm := arm
  await patience bench := bench.await patience
  call request bench := bench.call request
  report count bench := { bench with reports := bench.reports.push count }

end Bench

end NorFlash
