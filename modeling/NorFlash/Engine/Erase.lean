import NorFlash.Engine.Basic
import NorFlash.Erase.Plan

/-!
# Erasing

Erasing one unit, the whole chip, or the units that cover a range.
-/

namespace NorFlash

namespace Engine

/-- Erases the unit around an address, or the whole chip, for which the address does not matter. The
erase is complete when the action ends. -/
def erase (engine : Engine) (address : UInt32) (kind : EraseKind) : Action Unit := do
  discard <| MonadExcept.ofExcept engine.requireDevice
  unless kind = .chip do
    MonadExcept.ofExcept (engine.checkRange address 1)
  engine.withBus do
    let width ← BusAction.width
    enableWrite
    let command := Command.instruct kind.opcode width
    match kind with
    | .unit _ =>
        discard <| BusAction.call (.command (command.atAddress address width))
        waitWhileBusy engine.timeouts.erase
    | .chip =>
        discard <| BusAction.call (.command command)
        waitWhileBusy engine.timeouts.chipErase

/-- Erases the whole chip. -/
def eraseChip (engine : Engine) : Action Unit :=
  engine.erase 0 .chip

/-- The plan for erasing a range. -/
def erasePlan (address : UInt32) (length : Nat) : ErasePlan :=
  ErasePlan.ofRange EraseUnit.all address.toNat length

/-- Makes the erases of a plan, and reports the bytes erased after each, `total` bytes being erased
before. -/
def erasePlanned (engine : Engine) : ErasePlan → (total : Nat) → Action Unit
  | [], _ => return ()
  | planned :: rest, total => do
      engine.erase planned.base (.unit planned.unit)
      Action.report (total + planned.unit.size)
      engine.erasePlanned rest (total + planned.unit.size)

/-- Erases the units that cover a range, and reports progress after each. What shares a unit with
the range is lost too. -/
def eraseRangeReporting (engine : Engine) (address : UInt32) (length : Nat) : Action Unit := do
  discard <| MonadExcept.ofExcept engine.requireDevice
  if length = 0 then
    return ()
  else
    MonadExcept.ofExcept (engine.checkRange address length)
    Action.report 0
    engine.erasePlanned (erasePlan address length) 0

/-- As `eraseRangeReporting`, without reports. -/
def eraseRange (engine : Engine) (address : UInt32) (length : Nat) : Action Unit :=
  (engine.eraseRangeReporting address length).silenced

/-- As `eraseRangeReporting`, with the reports shown on a meter instead of given to the caller. The
meter ends at the total of the plan, so the range is checked first, even if it is empty. -/
def eraseRangeMetered (engine : Engine) (address : UInt32) (length : Nat) : Action Unit := do
  discard <| MonadExcept.ofExcept engine.requireDevice
  MonadExcept.ofExcept (engine.checkRange address length)
  (engine.eraseRangeReporting address length).silenced

/-- Erases a sector. -/
def eraseSector (engine : Engine) (sector : UInt32) : Action Unit := do
  let address ← MonadExcept.ofExcept (engine.sectorAddress sector)
  engine.erase address (.unit .sector)

end Engine

end NorFlash
