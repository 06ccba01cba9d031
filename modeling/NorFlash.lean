import NorFlash.Bus.Trace
import NorFlash.Catalog
import NorFlash.Erase.Plan
import NorFlash.Jedec.Id
import NorFlash.Opcode
import NorFlash.Register
import NorFlash.Bench.Basic
import NorFlash.Bench.Handover
import NorFlash.Bench.Session
import NorFlash.Proofs.Chip.Mode
import NorFlash.Proofs.Chip.Sound
import NorFlash.Proofs.Engine.Ending
import NorFlash.Proofs.Bench.Run
import NorFlash.Proofs.Bench.Transfer
import NorFlash.Proofs.Engine.Repertoire
import NorFlash.Proofs.Bench.Command
import NorFlash.Proofs.Catalog
import NorFlash.Proofs.Register
import NorFlash.Proofs.Engine.Identification
import NorFlash.Proofs.Engine.QuadEntry
import NorFlash.Proofs.Engine.Recovery
import NorFlash.Proofs.Bench.Invariants
import NorFlash.Proofs.Bench.Reports
import NorFlash.Proofs.Engine.Spans
import NorFlash.Proofs.Engine.Reading
import NorFlash.Proofs.Engine.BringUp
import NorFlash.Proofs.Engine.Availability
import NorFlash.Proofs.Engine.Service
import NorFlash.Proofs.Engine.Stranding
import NorFlash.Proofs.Session.Step
import NorFlash.Proofs.Session.Tracking
import NorFlash.Proofs.Block.Writing
import NorFlash.Proofs.Block.Array
import NorFlash.Proofs.Session.Blocks
import NorFlash.Proofs.Engine.Storing
import NorFlash.Proofs.Erase.Cover
import NorFlash.Proofs.Erase.Layout
import NorFlash.Proofs.Erase.Optimality
import NorFlash.Proofs.Engine.Erasing
import NorFlash.Proofs.Engine.Posture
import NorFlash.Proofs.Session.Posture
import NorFlash.Proofs.Engine.Dialogue
import NorFlash.Proofs.Engine.Exchanges
import NorFlash.Proofs.Engine.Settlement
import NorFlash.Proofs.Engine.Settling
import NorFlash.Proofs.Bench.Latch
import NorFlash.Proofs.Engine.Deferral
import NorFlash.Proofs.Engine.Disturbance
import NorFlash.Proofs.Session.Strays
import NorFlash.Proofs.Chip.Calm
import NorFlash.Proofs.Bench.Shadow
import NorFlash.Proofs.Engine.Quota
import NorFlash.Proofs.Engine.AllOrNothing
import NorFlash.Proofs.Chip.Stored
import NorFlash.Proofs.Engine.Imprint
import NorFlash.Proofs.Engine.Latching
import NorFlash.Proofs.Session.Stored
import NorFlash.Proofs.Engine.Custody
import NorFlash.Proofs.Engine.Checks
import NorFlash.Proofs.Page
import NorFlash.Proofs.Block.Checks
import NorFlash.Proofs.Engine.Mapping
import NorFlash.Proofs.Session.Closing
import NorFlash.Proofs.Bench.Crew
import NorFlash.Proofs.Engine.Turns
import NorFlash.Proofs.Engine.Cutting
import NorFlash.Proofs.Chip.Overlay
import NorFlash.Proofs.Chip.Carried
import NorFlash.Proofs.Engine.Together
import NorFlash.Proofs.Event
import NorFlash.Proofs.Lock
import NorFlash.Proofs.Session.Addresses
import NorFlash.Proofs.Engine.Busy
import NorFlash.Proofs.Chip.Discipline
import NorFlash.Proofs.Engine.Logged
import NorFlash.Proofs.Engine.QuadSettings
import NorFlash.Proofs.Block.Routes
import NorFlash.Proofs.Block.Avoidance
import NorFlash.Proofs.Engine.Edits
import NorFlash.Proofs.Block.Retry
import NorFlash.Proofs.Engine.Interruption
import NorFlash.Proofs.Engine.Progress
import NorFlash.Proofs.Engine.Dividing
import NorFlash.Proofs.Engine.Sources
import NorFlash.Proofs.Engine.Variants
import NorFlash.Proofs.Engine.Sectors
import NorFlash.Proofs.Chip.Timing
import NorFlash.Proofs.Session.Window
import NorFlash.Proofs.Block.Words
import NorFlash.Proofs.Chip.Course
import NorFlash.Proofs.Chip.Resetting
import NorFlash.Proofs.Chip.Accesses
