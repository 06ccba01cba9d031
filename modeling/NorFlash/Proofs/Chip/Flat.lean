import Mathlib.Data.UInt
import NorFlash.Proofs.Chip.Discipline

/-!
# The memory as a flat array

The accesses of a chip to its memory, stated again on a flat array of cells. Indices and masks are
words here, and an access to a cell that the array does not have fails. `Memory.perform?_flat` says
that no access to the array of a memory fails, and that each does to the array what it does to the
memory. `Memory.Bounded` says of the indices themselves that they are below the size, and
`Memory.flat_blank` that the array of a new memory is the one that the capacity code asks for.
-/

namespace NorFlash

/-- An access to the memory. -/
inductive MemoryAccess where
  | read (address : UInt32) (length : Nat)
  | overwrite (address : UInt32) (bytes : Bytes)
  | program (address : UInt32) (bytes : Bytes)
  | erase (kind : EraseKind) (address : UInt32)

/-- The base-two logarithm of the size of what an erase clears, if the memory is that large. -/
def EraseKind.bitsIn (memory : Memory) : EraseKind → Nat
  | .unit area => area.bits
  | .chip => memory.bits

/-- Makes an access: the bytes read, if any, and the memory afterwards. -/
def Memory.perform (memory : Memory) : MemoryAccess → Option Bytes × Memory
  | .read address length => (some (memory.read address.toNat length), memory)
  | .overwrite address bytes => (none, memory.overwrite address.toNat bytes)
  | .program address bytes => (none, (memory.program address.toNat bytes).memory)
  | .erase kind address => (none, memory.eraseUnit (kind.bitsIn memory) address.toNat)

/-- A memory as an array of cells, to be accessed by index. -/
abbrev FlatMemory := Array UInt8

namespace FlatMemory

/-- The largest array that a chip is given. -/
def mostCells : Nat := 16 * 1024 * 1024

/-- How many cells a chip with a capacity code is given: two to that power where a word can say so,
within limits. -/
def count (capacityCode : UInt8) : Nat :=
  let asked := if capacityCode.toNat < 64 then 1 <<< capacityCode.toNat else mostCells
  min (max asked 4096) mostCells

/-- An erased array. -/
def blank (capacityCode : UInt8) : FlatMemory :=
  Array.replicate (count capacityCode) Bytes.erased

variable (flat : FlatMemory)

/-- The number of cells as a word. -/
def sizeWord : UInt64 :=
  UInt64.ofNat flat.size

/-- The cell that an address selects. -/
def index (address : UInt32) : UInt64 :=
  address.toUInt64 % flat.sizeWord

/-- The first cell of the aligned unit around an address. The size is a power of two. -/
def unitBase (size : UInt64) (address : UInt32) : UInt64 :=
  flat.index address &&& ~~~(size - 1)

/-- The contents of a cell; `none` beyond the end. -/
def load? (cell : UInt64) : Option UInt8 :=
  flat[cell.toNat]?

/-- The array with one cell replaced; `none` beyond the end. -/
def store? (cell : UInt64) (value : UInt8) : Option FlatMemory :=
  if h : cell.toNat < flat.size then some (flat.set cell.toNat value) else none

/-- As `Memory.read`. -/
def read? (address : UInt32) (length : Nat) : Option Bytes :=
  (List.range length).mapM fun offset =>
    flat.load? (flat.index (address + UInt32.ofNat offset))

/-- As `Memory.overwrite`. -/
def overwrite? (address : UInt32) (bytes : Bytes) : Option FlatMemory :=
  bytes.zipIdx.foldlM (fun flat placed =>
    store? flat (flat.index (address + UInt32.ofNat placed.2)) placed.1) flat

/-- The cell for the byte `offset` places into a program of the page that begins at a cell. -/
def programCell (page : UInt64) (address : UInt32) (offset : Nat) : UInt64 :=
  page + ((address.toUInt64 + UInt64.ofNat offset) &&& 0xFF)

/-- As `Memory.programByte`. -/
def programByte? (page : UInt64) (address : UInt32) (placed : UInt8 × Nat) : Option FlatMemory := do
  let old ← flat.load? (programCell page address placed.2)
  flat.store? (programCell page address placed.2) (old &&& placed.1)

/-- As `Memory.program`. -/
def program? (address : UInt32) (bytes : Bytes) : Option FlatMemory :=
  let page := flat.unitBase 256 address
  bytes.zipIdx.foldlM (fun flat placed => programByte? flat page address placed) flat

/-- How many cells an erase clears. -/
def unitSize (kind : EraseKind) : UInt64 :=
  let asked := match kind with
    | .unit area => UInt64.ofNat area.size
    | .chip => flat.sizeWord
  min asked flat.sizeWord

/-- As `Memory.eraseUnit`. The unit is cleared as a slice, which has to end inside the array and not
before it begins. -/
def erase? (kind : EraseKind) (address : UInt32) : Option FlatMemory :=
  let base := flat.unitBase (flat.unitSize kind) address
  let stop := base + flat.unitSize kind
  if base ≤ stop ∧ stop.toNat ≤ flat.size then
    some (flat.mapIdx fun cell byte =>
      if base.toNat ≤ cell ∧ cell < stop.toNat then Bytes.erased else byte)
  else
    none

/-- Makes an access: the bytes read, if any, and the array afterwards. -/
def perform? : MemoryAccess → Option (Option Bytes × FlatMemory)
  | .read address length => (flat.read? address length).map fun bytes => (some bytes, flat)
  | .overwrite address bytes => (flat.overwrite? address bytes).map fun flat => (none, flat)
  | .program address bytes => (flat.program? address bytes).map fun flat => (none, flat)
  | .erase kind address => (flat.erase? kind address).map fun flat => (none, flat)

/-- The array after accesses; `none` if one fails. -/
def performAll? (accesses : List MemoryAccess) : Option FlatMemory :=
  accesses.foldlM (fun flat access => (perform? flat access).map Prod.snd) flat

end FlatMemory

/-! ## Words -/

/-- What a mask keeps of a word, and what it clears, make up the word. -/
theorem toNat_and_not_add (word mask : UInt64) :
    (word &&& ~~~mask).toNat + (word &&& mask).toNat = word.toNat := by
  have hdisjoint :
      word.toBitVec &&& ~~~mask.toBitVec &&& (word.toBitVec &&& mask.toBitVec) = 0 := by
    ext bit
    cases hmask : mask.toBitVec[bit] <;> simp [hmask]
  have hjoined : word.toBitVec &&& ~~~mask.toBitVec ||| word.toBitVec &&& mask.toBitVec =
      word.toBitVec := by
    ext bit
    cases hmask : mask.toBitVec[bit] <;> simp [hmask]
  have hsum := BitVec.toNat_add_of_and_eq_zero hdisjoint
  rw [BitVec.add_eq_or_of_and_eq_zero _ _ hdisjoint, hjoined] at hsum
  exact hsum.symm

/-- The size of a memory fits an address word. -/
theorem toNat_ofNat_addressable {bits : Nat} (h : bits < 64) :
    (UInt64.ofNat (addressable bits)).toNat = addressable bits := by
  rw [UInt64.toNat_ofNat']
  exact Nat.mod_eq_of_lt (Nat.pow_lt_pow_right (by decide) h)

/-- Clearing the low bits of a word rounds it down. -/
theorem toNat_and_not_low {bits : Nat} (word : UInt64) (h : bits < 64) :
    (word &&& ~~~(UInt64.ofNat (addressable bits) - 1)).toNat =
      word.toNat / addressable bits * addressable bits := by
  have hsize := toNat_ofNat_addressable h
  have hmask : (UInt64.ofNat (addressable bits) - 1).toNat = 2 ^ bits - 1 := by
    have hone : (1 : UInt64) ≤ UInt64.ofNat (addressable bits) := by
      rw [UInt64.le_iff_toNat_le, hsize]
      exact addressable_pos bits
    rw [UInt64.toNat_sub_of_le _ _ hone, hsize]
    rfl
  have hlow : (word &&& (UInt64.ofNat (addressable bits) - 1)).toNat =
      word.toNat % addressable bits := by
    rw [UInt64.toNat_and, hmask]
    exact Nat.and_two_pow_sub_one_eq_mod ..
  have hparts := toNat_and_not_add word (UInt64.ofNat (addressable bits) - 1)
  have hdiv := Nat.div_add_mod' word.toNat (addressable bits)
  omega

/-! ## Accesses -/

namespace Memory

variable (memory : Memory) (address : UInt32)

/-- The cells of a memory. -/
def flat : FlatMemory :=
  Array.ofFn fun place : Fin memory.size => memory.byteAt place

/-- There are as many cells as bytes. -/
theorem size_flat : memory.flat.size = memory.size :=
  Array.size_ofFn

/-- No memory is larger than 24 bits address. -/
theorem size_le : memory.size ≤ addressable 24 :=
  addressable_le memory.bits_le

/-- The size word counts the cells. -/
theorem toNat_sizeWord : memory.flat.sizeWord.toNat = memory.size := by
  rw [FlatMemory.sizeWord, size_flat]
  exact toNat_ofNat_addressable (Nat.lt_of_le_of_lt memory.bits_le (by decide))

/-- An address finds its cell by word arithmetic as on unbounded numbers. -/
theorem toNat_index : (memory.flat.index address).toNat = memory.index address.toNat := by
  rw [FlatMemory.index, UInt64.toNat_mod, toNat_sizeWord, UInt32.toNat_toUInt64]
  rfl

/-- An address that wraps around at the largest one selects the same cell, since that is where the
memory begins anew. -/
theorem toNat_index_add (offset : Nat) :
    (memory.flat.index (address + UInt32.ofNat offset)).toNat =
      memory.index (address.toNat + offset) := by
  have hdvd : memory.size ∣ 2 ^ 32 :=
    addressable_dvd (Nat.le_trans memory.bits_le (show 24 ≤ 32 by decide))
  rw [toNat_index, UInt32.toNat_add, UInt32.toNat_ofNat', index, index, Nat.add_mod_mod,
    Nat.mod_mod_of_dvd _ hdvd]

/-- A unit begins by word arithmetic where it does on unbounded numbers. -/
theorem toNat_unitBase {bits : Nat} (h : bits < 64) :
    (memory.flat.unitBase (UInt64.ofNat (addressable bits)) address).toNat =
      memory.index address.toNat / addressable bits * addressable bits := by
  rw [FlatMemory.unitBase, toNat_and_not_low _ h, toNat_index]

/-- Wrapping an address around does not change what it finds. -/
theorem byteAt_index (place : Nat) : memory.byteAt (memory.index place) = memory.byteAt place := by
  rw [byteAt, byteAt, index, index, Nat.mod_mod]

/-- Wrapping an address around does not change what is set. -/
theorem set_index (place : Nat) (value : UInt8) :
    memory.set (memory.index place) value = memory.set place value := by
  rw [set, set, index, index, Nat.mod_mod]

/-- A load within the memory succeeds, with the byte stored there. -/
theorem load?_flat {cell : UInt64} (h : cell.toNat < memory.size) :
    memory.flat.load? cell = some (memory.byteAt cell.toNat) := by
  simp [FlatMemory.load?, flat, h]

/-- A store within the memory succeeds, and sets the byte. -/
theorem store?_flat {cell : UInt64} (value : UInt8) (h : cell.toNat < memory.size) :
    memory.flat.store? cell value = some (memory.set cell.toNat value).flat := by
  have hsize := memory.size_flat
  rw [FlatMemory.store?, dif_pos (hsize ▸ h)]
  refine congrArg some (Array.ext (by simp [flat, size_set]) fun place hplace _ => ?_)
  have hwithin : place < memory.size := by simpa [hsize] using hplace
  simp only [flat, Array.getElem_set, Array.getElem_ofFn, byteAt_set,
    index, Nat.mod_eq_of_lt h, Nat.mod_eq_of_lt hwithin, eq_comm]

/-- A read succeeds from any address on, and delivers what is stored. -/
theorem read?_flat (length : Nat) :
    memory.flat.read? address length = some (memory.read address.toNat length) := by
  have hload : (fun offset => memory.flat.load?
      (memory.flat.index (address + UInt32.ofNat offset))) =
      fun offset => pure (memory.byteAt (address.toNat + offset)) := by
    funext offset
    have hindex := memory.toNat_index_add address offset
    rw [load?_flat _ (hindex ▸ index_lt ..), hindex, byteAt_index]
    rfl
  rw [FlatMemory.read?, hload, List.mapM_pure]
  rfl

/-- An overwrite succeeds from any address on, and stores its data. -/
theorem overwrite?_flat (bytes : Bytes) :
    memory.flat.overwrite? address bytes = some (memory.overwrite address.toNat bytes).flat := by
  suffices h : ∀ (sent : List (UInt8 × Nat)) (memory : Memory),
      sent.foldlM (fun flat placed =>
        FlatMemory.store? flat (flat.index (address + UInt32.ofNat placed.2)) placed.1)
          memory.flat =
        some (sent.foldl (fun memory placed =>
          memory.set (address.toNat + placed.2) placed.1) memory).flat from h _ memory
  intro sent
  induction sent with
  | nil => exact fun _ => rfl
  | cons placed rest ih =>
      intro memory
      have hindex := memory.toNat_index_add address placed.2
      rw [List.foldlM_cons, store?_flat _ _ (hindex ▸ index_lt ..), hindex, set_index]
      exact ih _

/-- The first cell of the page that a program goes to. -/
theorem toNat_page : (memory.flat.unitBase 256 address).toNat = memory.pageBase address.toNat := by
  have hsize : (256 : UInt64) = UInt64.ofNat (addressable 8) := by decide
  have hpage : addressable 8 = pageSize := by decide
  rw [hsize, toNat_unitBase _ _ (by decide), hpage]
  rfl

section Page

variable {page : UInt64} (hpage : page.toNat = memory.pageBase address.toNat)

include hpage

/-- A byte finds its cell by word arithmetic as on unbounded numbers. -/
theorem toNat_programCell (offset : Nat) :
    (FlatMemory.programCell page address offset).toNat =
      memory.programCell address.toNat offset := by
  have hoffset : ((address.toUInt64 + UInt64.ofNat offset) &&& 0xFF).toNat =
      (address.toNat + offset) % pageSize := by
    have hdvd : pageSize ∣ 2 ^ 64 := by decide
    rw [UInt64.toNat_and, UInt64.toNat_add, UInt64.toNat_ofNat', UInt32.toNat_toUInt64,
      Nat.add_mod_mod]
    exact (Nat.and_two_pow_sub_one_eq_mod _ 8).trans (Nat.mod_mod_of_dvd _ hdvd)
  have hcell := memory.programCell_lt address.toNat offset
  have hsize := memory.size_le
  have hlimit : addressable 24 < 2 ^ 64 := by decide
  rw [FlatMemory.programCell, UInt64.toNat_add, hpage, hoffset]
  rw [programCell] at hcell ⊢
  exact Nat.mod_eq_of_lt (by omega)

/-- Programming a byte succeeds, and does to the cells what it does to the memory. -/
theorem programByte?_flat {course : Programming} (hcourse : course.memory = memory)
    (placed : UInt8 × Nat) :
    memory.flat.programByte? page address placed =
      some (programByte address.toNat course placed).memory.flat := by
  subst hcourse
  have hcell := toNat_programCell _ address hpage placed.2
  have hwithin := hcell ▸ course.memory.programCell_lt address.toNat placed.2
  rw [FlatMemory.programByte?, load?_flat _ hwithin, Option.bind_eq_bind, Option.bind_some,
    store?_flat _ _ hwithin, hcell]
  rfl

end Page

/-- A page program succeeds, and does to the cells what it does to the memory. -/
theorem program?_flat (bytes : Bytes) :
    memory.flat.program? address bytes = some (memory.program address.toNat bytes).memory.flat := by
  have hpage := memory.toNat_page address
  unfold FlatMemory.program?
  generalize memory.flat.unitBase 256 address = page at hpage
  -- The page stays where it is while its cells change.
  suffices h : ∀ (sent : List (UInt8 × Nat)) (course : Programming),
      page.toNat = course.memory.pageBase address.toNat →
      sent.foldlM (fun flat placed => FlatMemory.programByte? flat page address placed)
          course.memory.flat =
        some (sent.foldl (programByte address.toNat) course).memory.flat from
    h _ ⟨memory, true, false⟩ hpage
  intro sent
  induction sent with
  | nil => exact fun _ _ => rfl
  | cons placed rest ih =>
      intro course hpage
      rw [List.foldlM_cons, programByte?_flat _ address hpage rfl]
      exact ih (programByte address.toNat course placed) hpage

/-! ## Units -/

/-- So many cells from a base on are an aligned unit of the memory, and a place is in it. -/
structure UnitInside (place base size : Nat) : Prop where
  aligned : size ∣ base
  inside : base + size ≤ memory.size
  le_index : base ≤ memory.index place
  index_lt : memory.index place < base + size

/-- The unit around a place lies within the memory. -/
theorem unitInside {bits : Nat} (h : bits ≤ memory.bits) (place : Nat) :
    memory.UnitInside place (memory.index place / addressable bits * addressable bits)
      (addressable bits) := by
  have hend := block_end_le (addressable_dvd h) (memory.index_lt place)
  exact ⟨Nat.dvd_mul_left .., hend, Nat.div_mul_le_self ..,
    Nat.lt_div_mul_add (addressable_pos bits)⟩

/-- An erase reaches as far as its unit, or as the memory if that is smaller. -/
theorem reach_eq (kind : EraseKind) :
    kind.reach memory = addressable (min (kind.bitsIn memory) memory.bits) := by
  cases kind with
  | unit area => exact addressable_min ..
  | chip => exact congrArg addressable (Nat.min_self _).symm

/-- The size of an erase by word arithmetic is how far it reaches. -/
theorem toNat_unitSize (kind : EraseKind) :
    (memory.flat.unitSize kind).toNat = kind.reach memory := by
  unfold FlatMemory.unitSize
  rw [UInt64.toNat_min, toNat_sizeWord]
  cases kind with
  | unit area =>
      have harea : area.bits < 64 := by cases area <;> decide
      exact congrArg (min · memory.size) (toNat_ofNat_addressable harea)
  | chip =>
      rw [toNat_sizeWord]
      exact Nat.min_self _

/-- An erase begins by word arithmetic where it does on unbounded numbers. -/
theorem toNat_eraseBase (kind : EraseKind) :
    (memory.flat.unitBase (memory.flat.unitSize kind) address).toNat =
      memory.index address.toNat / kind.reach memory * kind.reach memory := by
  have hbits : min (kind.bitsIn memory) memory.bits < 64 := by
    have hlimit := memory.bits_le
    omega
  have hsize : memory.flat.unitSize kind =
      UInt64.ofNat (addressable (min (kind.bitsIn memory) memory.bits)) := by
    rw [← UInt64.toNat_inj, toNat_unitSize, reach_eq, toNat_ofNat_addressable hbits]
  rw [hsize, toNat_unitBase _ _ hbits, reach_eq]

/-- The unit that an erase clears, of a memory that may be smaller than it asks for. -/
theorem unitInside_erase (kind : EraseKind) :
    memory.UnitInside address.toNat
      (memory.flat.unitBase (memory.flat.unitSize kind) address).toNat (kind.reach memory) := by
  rw [toNat_eraseBase, reach_eq]
  exact memory.unitInside (Nat.min_le_right ..) address.toNat

/-- An erase sets the bytes of its unit, and leaves the others alone. -/
theorem unitErased_erase (kind : EraseKind) (place : Nat) :
    UnitErased (kind.reach memory) place memory
      (memory.eraseUnit (kind.bitsIn memory) place) := by
  have hreach : kind.reach memory = min (addressable (kind.bitsIn memory)) memory.size := by
    rw [reach_eq]
    exact (addressable_min ..).symm
  exact hreach ▸ memory.unitErased_eraseUnit (kind.bitsIn memory) place

/-- An erase succeeds, and does to the cells what it does to the memory. -/
theorem erase?_flat (kind : EraseKind) :
    memory.flat.erase? kind address =
      some (memory.eraseUnit (kind.bitsIn memory) address.toNat).flat := by
  have hbase := memory.toNat_eraseBase address kind
  have hsize := memory.toNat_unitSize kind
  have hreach : 0 < kind.reach memory := by
    rw [reach_eq]
    exact addressable_pos _
  have hend := (memory.unitInside_erase address kind).inside
  have herased := memory.unitErased_erase kind address.toNat
  unfold FlatMemory.erase?
  generalize memory.flat.unitBase (memory.flat.unitSize kind) address = base at hbase hend ⊢
  generalize memory.flat.unitSize kind = size at hsize ⊢
  have hstop : (base + size).toNat = base.toNat + size.toNat := by
    have hlimit := memory.size_le
    have hword : addressable 24 < 2 ^ 64 := by decide
    rw [UInt64.toNat_add]
    exact Nat.mod_eq_of_lt (by omega)
  have hslice : base ≤ base + size ∧ (base + size).toNat ≤ memory.flat.size := by
    rw [UInt64.le_iff_toNat_le, size_flat]
    omega
  rw [if_pos hslice]
  refine congrArg some (Array.ext (by simp [size_flat, size_eraseUnit]) fun place hplace _ => ?_)
  have hwithin : memory.index place = place :=
    Nat.mod_eq_of_lt (by simpa [size_flat] using hplace)
  have hunit := div_eq_div_iff_between hreach place (memory.index address.toNat)
  simp only [flat, Array.getElem_mapIdx, Array.getElem_ofFn]
  rw [hstop, hsize, hbase]
  split
  · rename_i hinside
    exact (herased.inside place (hwithin.symm ▸ hunit.mpr hinside)).symm
  · rename_i houtside
    exact (herased.elsewhere place (hwithin.symm ▸ mt hunit.mp houtside)).symm

/-- No access to the array of a memory fails, and each does to it what it does to the memory. -/
theorem perform?_flat (access : MemoryAccess) :
    memory.flat.perform? access =
      some ((memory.perform access).1, (memory.perform access).2.flat) := by
  cases access with
  | read address length => exact congrArg (Option.map _) (memory.read?_flat address length)
  | overwrite address bytes => exact congrArg (Option.map _) (memory.overwrite?_flat address bytes)
  | program address bytes => exact congrArg (Option.map _) (memory.program?_flat address bytes)
  | erase kind address => exact congrArg (Option.map _) (memory.erase?_flat address kind)

/-- No access resizes a memory. -/
theorem bits_perform (access : MemoryAccess) :
    (memory.perform access).2.bits = memory.bits := by
  cases access with
  | read | erase => rfl
  | overwrite address bytes => exact memory.bits_overwrite ..
  | program address bytes => exact memory.bits_program ..

/-- No index into the array of a memory is beyond its end, whatever the access. -/
structure Bounded : Prop where
  size : ∃ bits, 12 ≤ bits ∧ bits ≤ 24 ∧ memory.flat.size = addressable bits
  index : ∀ address, (memory.flat.index address).toNat < memory.flat.size
  programCell : ∀ address offset,
    (FlatMemory.programCell (memory.flat.unitBase 256 address) address offset).toNat <
      memory.flat.size
  perform : ∀ access, (memory.flat.perform? access).isSome
  unitSize : ∀ kind, (memory.flat.unitSize kind).toNat = kind.reach memory
  unit : ∀ kind address, memory.UnitInside address.toNat
    (memory.flat.unitBase (memory.flat.unitSize kind) address).toNat (kind.reach memory)

/-- The cells of a memory are as many as some bits address, from a sector up to 24 bits. -/
theorem bounded : memory.Bounded where
  size := ⟨memory.bits, memory.sector_le, memory.bits_le, memory.size_flat⟩
  index address := by
    rw [toNat_index, size_flat]
    exact index_lt ..
  programCell address offset := by
    rw [toNat_programCell _ _ (memory.toNat_page address), size_flat]
    exact programCell_lt ..
  perform access := by
    rw [perform?_flat]
    rfl
  unitSize := memory.toNat_unitSize
  unit kind address := memory.unitInside_erase address kind

/-- The cells of a blank memory are blank. -/
theorem flat_blank (capacityCode : UInt8) :
    (blank capacityCode).flat = FlatMemory.blank capacityCode := by
  have hcount : FlatMemory.count capacityCode = (blank capacityCode).size := by
    have hsector : addressable 12 = 4096 := by decide
    have hmost : addressable 24 = FlatMemory.mostCells := by decide
    have hasked : (if capacityCode.toNat < 64 then 1 <<< capacityCode.toNat
        else FlatMemory.mostCells) =
          addressable (if capacityCode.toNat < 64 then capacityCode.toNat else 24) := by
      split
      · exact Nat.one_shiftLeft _
      · exact hmost.symm
    simp only [FlatMemory.count]
    rw [hasked, ← hsector, ← hmost, addressable_max, addressable_min]
    refine congrArg addressable ?_
    simp only [blank]
    split <;> omega
  refine Array.ext (by rw [size_flat, FlatMemory.blank, Array.size_replicate, hcount])
    fun place _ _ => ?_
  simp [flat, FlatMemory.blank, byteAt_blank]

end Memory

end NorFlash
