import NorFlash.Proofs.Block.Service

/-!
# A block device as an array of blocks

`BlockArray` holds what a caller can know of each block: the data of the last write that succeeded,
or nothing after one that failed. `ends_serve_describes` says that every blockwise request keeps the
array true of the memory, and changes no byte outside the blocks it is to write.
-/

namespace NorFlash

/-- What is known of the data of each block. -/
def BlockArray :=
  Nat → Option Bytes

namespace BlockArray

/-- All that a memory stores is known. -/
def ofMemory (memory : Memory) : BlockArray :=
  fun block => some (memory.read (block * sectorBytes) sectorBytes)

/-- The array after a request with an outcome. A write that failed may have left anything in its
blocks. -/
def serve (array : BlockArray) : BlockRequest → Outcome → BlockArray
  | .operation (.writeBlocks block count bytes), outcome => fun other =>
      if block.toNat ≤ other ∧ other < block.toNat + count then
        if outcome.result.isOk then
          some ((bytes.drop ((other - block.toNat) * sectorBytes)).take sectorBytes)
        else none
      else array other
  | _, _ => array

/-- What is known of a block within the memory is what is stored there. -/
def Describes (array : BlockArray) (memory : Memory) : Prop :=
  ∀ block data, (block + 1) * sectorBytes ≤ memory.size → array block = some data →
    memory.read (block * sectorBytes) sectorBytes = data

variable {array : BlockArray} {bench after : Bench} {device : BlockDevice} {id : JedecId}
  {memory : Memory} {request : BlockRequest}

/-- The array of what a memory stores is true of that memory. -/
theorem describes_ofMemory (memory : Memory) : (ofMemory memory).Describes memory :=
  fun _ _ _ hdata => Option.some.inj hdata

/-- What is read from several blocks is made up of what is known of each. -/
theorem Describes.slice_eq (h : array.Describes memory) {block count offset : Nat} {data : Bytes}
    (hsize : (block + count) * sectorBytes ≤ memory.size) (hoffset : offset < count)
    (hdata : array (block + offset) = some data) :
    ((memory.read (block * sectorBytes) (count * sectorBytes)).drop
      (offset * sectorBytes)).take sectorBytes = data := by
  have hpart : offset * sectorBytes + sectorBytes ≤ count * sectorBytes := by
    rw [← Nat.succ_mul]
    exact Nat.mul_le_mul_right _ hoffset
  rw [← Memory.read_part memory hpart, ← Nat.add_mul]
  refine h (block + offset) data (Nat.le_trans (Nat.mul_le_mul_right _ ?_) hsize) hdata
  omega

/-- Blocks before and after a range of blocks lie before and after its bytes. -/
theorem outside_of_not_covered {block count other : Nat}
    (h : ¬(block ≤ other ∧ other < block + count)) :
    other * sectorBytes + sectorBytes ≤ block * sectorBytes ∨
      (block + count) * sectorBytes ≤ other * sectorBytes := by
  rw [← Nat.succ_mul]
  by_cases hbefore : other < block
  · exact .inl (Nat.mul_le_mul_right _ hbefore)
  · exact .inr (Nat.mul_le_mul_right _ (by omega))

/-- A write that changes no other block keeps what is known of the others. -/
theorem Describes.outside (h : array.Describes memory) {changed : Memory} {block count other : Nat}
    {data : Bytes}
    (hwithin : Memory.Within (block * sectorBytes) ((block + count) * sectorBytes) memory changed)
    (hother : ¬(block ≤ other ∧ other < block + count))
    (hsize : (other + 1) * sectorBytes ≤ changed.size) (hdata : array other = some data) :
    changed.read (other * sectorBytes) sectorBytes = data := by
  rw [hwithin.size] at hsize
  rw [hwithin.read_eq (Nat.succ_mul other sectorBytes ▸ hsize) (outside_of_not_covered hother)]
  exact h other data hsize hdata

section Write

variable {block : UInt32} {count other : Nat} {bytes : Bytes} {outcome : Outcome}

/-- Nothing is known of the blocks that a failed write was to change. -/
theorem serve_failed (hother : block.toNat ≤ other ∧ other < block.toNat + count)
    (hresult : outcome.result.isOk = false) :
    array.serve (.operation (.writeBlocks block count bytes)) outcome other = none :=
  (if_pos hother).trans (if_neg (by rw [hresult]; exact Bool.false_ne_true))

/-- A block that was written holds its part of the data. -/
theorem serve_written (hother : block.toNat ≤ other ∧ other < block.toNat + count)
    (hresult : outcome.result.isOk = true) :
    array.serve (.operation (.writeBlocks block count bytes)) outcome other =
      some ((bytes.drop ((other - block.toNat) * sectorBytes)).take sectorBytes) :=
  (if_pos hother).trans (if_pos hresult)

/-- A write leaves the other blocks as they are known. -/
theorem serve_elsewhere (hother : ¬(block.toNat ≤ other ∧ other < block.toNat + count)) :
    array.serve (.operation (.writeBlocks block count bytes)) outcome other = array other :=
  if_neg hother

/-- A write that failed leaves nothing known of its blocks. -/
theorem Describes.failed (h : array.Describes bench.chip.memory)
    (hresult : outcome.result.isOk = false)
    (hwithin : Memory.Within (block.toNat * sectorBytes) ((block.toNat + count) * sectorBytes)
      bench.chip.memory after.chip.memory) :
    (array.serve (.operation (.writeBlocks block count bytes)) outcome).Describes
      after.chip.memory := by
  intro other data hsize hdata
  by_cases hother : block.toNat ≤ other ∧ other < block.toNat + count
  · rw [serve_failed hother hresult] at hdata
    exact absurd hdata (by simp)
  · rw [serve_elsewhere hother] at hdata
    exact h.outside hwithin hother hsize hdata

/-- A write that succeeded is known. -/
theorem Describes.written {width : BusWidth} (h : array.Describes bench.chip.memory)
    (hresult : outcome.result.isOk = true)
    (hstores : BlockDevice.Stores width block.toNat count bytes bench after) :
    (array.serve (.operation (.writeBlocks block count bytes)) outcome).Describes
      after.chip.memory := by
  intro other data hsize hdata
  by_cases hother : block.toNat ≤ other ∧ other < block.toNat + count
  · rw [serve_written hother hresult] at hdata
    have hwithin := hstores.within
    rw [← hstores.altered.memory.size] at hwithin
    have hread := (describes_ofMemory after.chip.memory).slice_eq hwithin
      (show other - block.toNat < count by omega) rfl
    rw [hstores.read_eq, Option.some.inj hdata, Nat.add_sub_cancel' hother.1] at hread
    exact hread.symm
  · rw [serve_elsewhere hother] at hdata
    exact h.outside hstores.altered.memory hother hsize hdata

end Write

/-- A block write keeps the array true of the memory, and changes no other block. -/
theorem ends_writeBlocks_describes (haware : device.engine.Aware id bench)
    (h : array.Describes bench.chip.memory) (block : UInt32) (count : Nat) (bytes : Bytes) :
    (device.perform (.writeBlocks block count bytes)).Ends Bench.environment
      (fun outcome after =>
        (array.serve (.operation (.writeBlocks block count bytes)) outcome).Describes
          after.chip.memory ∧
        Memory.Within (block.toNat * sectorBytes) ((block.toNat + count) * sectorBytes)
          bench.chip.memory after.chip.memory) bench := by
  refine (Program.ends_map ..).mpr
    (Program.Ends.mono (BlockDevice.ends_writeBlocks_aware haware block count bytes) ?_)
  rintro (fault | route) after hafter
  · exact ⟨h.failed rfl hafter, hafter⟩
  · obtain ⟨width, hstores⟩ := hafter
    exact ⟨h.written rfl hstores, hstores.altered.memory⟩

/-- A request that is not a block write leaves the array alone. -/
theorem serve_of_not_write (array : BlockArray)
    (hwrite : ¬∃ block count bytes, request = .operation (.writeBlocks block count bytes))
    (outcome : Outcome) : array.serve request outcome = array := by
  cases request with
  | bringUp | shutDown => rfl
  | operation operation =>
      cases operation with
      | writeBlocks block count bytes => exact absurd ⟨block, count, bytes, rfl⟩ hwrite
      | _ => rfl

/-- However a request ends, it leaves the blocks it is not to write as they are known. -/
theorem serve_of_not_targets {block : Nat} (h : ¬request.Targets (block * sectorBytes))
    (outcome : Outcome) : array.serve request outcome block = array block := by
  by_cases hwrite : ∃ block count bytes, request = .operation (.writeBlocks block count bytes)
  · obtain ⟨first, count, bytes, rfl⟩ := hwrite
    refine serve_elsewhere fun hcovered => h ⟨Nat.mul_le_mul_right _ hcovered.1, ?_⟩
    exact Nat.mul_lt_mul_of_pos_right hcovered.2 sectorBytes_pos
  · rw [serve_of_not_write array hwrite]

/-- A blockwise request keeps the array true of the memory, and changes nothing but its blocks. -/
theorem ends_serve_describes (hblockwise : request.Blockwise)
    (haware : device.engine.Aware id bench) (h : array.Describes bench.chip.memory) :
    (device.serve request).Ends Bench.environment
      (fun ended after => (array.serve request ended.1).Describes after.chip.memory ∧
        ∀ address < bench.chip.memory.size, ¬request.Targets address →
          after.chip.memory.byteAt address = bench.chip.memory.byteAt address) bench := by
  by_cases hwrite : ∃ block count bytes, request = .operation (.writeBlocks block count bytes)
  · obtain ⟨block, count, bytes, rfl⟩ := hwrite
    refine BlockDevice.ends_serve_operation.mpr
      ((ends_writeBlocks_describes haware h block count bytes).mono ?_)
    exact fun outcome after hafter => ⟨hafter.1, hafter.2.byteAt⟩
  · refine (BlockDevice.ends_serve_memory hblockwise
      (fun block count bytes hsame => hwrite ⟨block, count, bytes, hsame⟩) haware).mono ?_
    intro ended after hafter
    rw [hafter, serve_of_not_write array hwrite]
    exact ⟨h, fun _ _ _ => rfl⟩

end BlockArray

end NorFlash
