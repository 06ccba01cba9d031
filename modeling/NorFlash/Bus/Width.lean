/-!
# Bus widths

Each phase of a command travels on one data line or on four.
-/

namespace NorFlash

/-- The data lines one phase of a command uses. -/
inductive BusWidth where
  | single
  | quad
  deriving DecidableEq

namespace BusWidth

/-- The number of data lines driven. -/
def lines : BusWidth → UInt8
  | single => 1
  | quad => 4

/-- The clock cycles that shift one byte. -/
def cyclesPerByte (width : BusWidth) : UInt8 :=
  8 / width.lines

/-- The width with the given number of lines. -/
def ofLines? : Nat → Option BusWidth
  | 1 => some single
  | 4 => some quad
  | _ => none

end BusWidth

end NorFlash
