import NorFlash.Chip.Region
import NorFlash.Page

/-!
# Chip memory

The memory array of a chip. Addresses wrap around at its end. Erasing sets every bit of a unit,
programming clears bits within one page, and `overwrite` ignores both rules, for preparing a chip.

`Memory.byteAt` is the view of the array; `byteAt_set`, `byteAt_eraseUnit` and `byteAt_blank` say
what each operation does to it.
-/

namespace NorFlash

/-- A memory array of `addressable bits` bytes: at least a sector, and at most what 24 address bits
reach. -/
structure Memory where
  bits : Nat
  cells : Region
  sector_le : 12 ≤ bits
  bits_le : bits ≤ 24
  deriving DecidableEq

namespace Memory

/-- The number of bytes. -/
def size (memory : Memory) : Nat :=
  addressable memory.bits

/-- No memory is empty. -/
theorem size_pos (memory : Memory) : 0 < memory.size :=
  addressable_pos memory.bits

/-- An erased array for a capacity code: two to that power bytes, within the limits of an array. -/
def blank (capacityCode : UInt8) : Memory where
  bits := max 12 (min 24 capacityCode.toNat)
  cells := .uniform Bytes.erased
  sector_le := Nat.le_max_left ..
  bits_le := by omega

/-- The cell an address selects. -/
def index (memory : Memory) (address : Nat) : Nat :=
  address % memory.size

/-- Addresses wrap around, so that each finds a place in the memory. -/
theorem index_lt (memory : Memory) (address : Nat) : memory.index address < memory.size :=
  Nat.mod_lt address memory.size_pos

/-- Wrapping around is done once and for all. -/
theorem index_mod (memory : Memory) (address : Nat) :
    memory.index address % addressable memory.bits = memory.index address :=
  Nat.mod_mod ..

/-- The byte at an address. -/
def byteAt (memory : Memory) (address : Nat) : UInt8 :=
  memory.cells.byteAt memory.bits (memory.index address)

/-- The array with one byte replaced. -/
def set (memory : Memory) (address : Nat) (value : UInt8) : Memory :=
  { memory with cells := memory.cells.set memory.bits (memory.index address) value }

/-- The bytes from an address on. -/
def read (memory : Memory) (address length : Nat) : Bytes :=
  (List.range length).map fun offset => memory.byteAt (address + offset)

/-- The array with bytes replaced from an address on, whatever was there. -/
def overwrite (memory : Memory) (address : Nat) (bytes : Bytes) : Memory :=
  bytes.zipIdx.foldl (fun memory (byte, offset) => memory.set (address + offset) byte) memory

/-- The array with the aligned unit of `addressable unitBits` bytes around an address erased. -/
def eraseUnit (memory : Memory) (unitBits address : Nat) : Memory :=
  { memory with
    cells := memory.cells.fillUnit unitBits Bytes.erased memory.bits (memory.index address) }

/-- The first cell of the page that holds an address. -/
def pageBase (memory : Memory) (address : Nat) : Nat :=
  memory.index address / pageSize * pageSize

/-- The cell for the byte `offset` places into a program of the page at `address`. Places beyond the
end of the page continue at its start. -/
def programCell (memory : Memory) (address offset : Nat) : Nat :=
  memory.pageBase address + (address + offset) % pageSize

/-- The course of a page program: the array, whether every byte so far fell on an erased one, and
whether some byte could not be stored for want of an erase. -/
structure Programming where
  memory : Memory
  ontoErased : Bool
  needsErase : Bool

/-- Programs one byte: the bits clear in it are cleared in the cell. -/
def programByte (address : Nat) (course : Programming) (placed : UInt8 × Nat) : Programming :=
  let cell := course.memory.programCell address placed.2
  let old := course.memory.byteAt cell
  let stored := old &&& placed.1
  { memory := course.memory.set cell stored
    ontoErased := course.ontoErased && old == Bytes.erased
    needsErase := course.needsErase || stored != placed.1 }

/-- Programs bytes into the page that holds an address. -/
def program (memory : Memory) (address : Nat) (bytes : Bytes) : Programming :=
  bytes.zipIdx.foldl (programByte address) ⟨memory, true, false⟩

/-- Setting a byte does not resize a memory. -/
theorem size_set (memory : Memory) (address : Nat) (value : UInt8) :
    (memory.set address value).size = memory.size :=
  rfl

/-- Erasing a unit does not resize a memory. -/
theorem size_eraseUnit (memory : Memory) (unitBits address : Nat) :
    (memory.eraseUnit unitBits address).size = memory.size :=
  rfl

/-- Every byte of a blank memory is erased. -/
theorem byteAt_blank (capacityCode : UInt8) (address : Nat) :
    (blank capacityCode).byteAt address = Bytes.erased :=
  Region.byteAt_uniform ..

/-- A write shows at its address and nowhere else. -/
theorem byteAt_set (memory : Memory) (address other : Nat) (value : UInt8) :
    (memory.set address value).byteAt other =
      if memory.index other = memory.index address then value else memory.byteAt other := by
  have h := Region.byteAt_set memory.bits memory.cells (memory.index address)
    (memory.index other) value
  rwa [index_mod, index_mod] at h

/-- An erase shows in its unit and nowhere else. -/
theorem byteAt_eraseUnit (memory : Memory) (unitBits address other : Nat) :
    (memory.eraseUnit unitBits address).byteAt other =
      if memory.index other / addressable unitBits =
          memory.index address / addressable unitBits then
        Bytes.erased
      else
        memory.byteAt other := by
  have h := Region.byteAt_fillUnit unitBits Bytes.erased memory.bits memory.cells
    (memory.index address) (memory.index other)
  rwa [index_mod, index_mod] at h

/-- A program stays inside the array. -/
theorem programCell_lt (memory : Memory) (address offset : Nat) :
    memory.programCell address offset < memory.size := by
  have hindex := memory.index_lt address
  have hoffset := Nat.mod_lt (address + offset) (show 0 < pageSize by decide)
  have hpages : pageSize ∣ memory.size :=
    addressable_dvd (Nat.le_trans (show 8 ≤ 12 by decide) memory.sector_le)
  have hend := block_end_le hpages hindex
  unfold programCell pageBase
  omega

end Memory

end NorFlash
