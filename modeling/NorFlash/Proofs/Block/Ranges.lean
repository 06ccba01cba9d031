import NorFlash.Proofs.Block.Checks
import NorFlash.Proofs.Engine.Addresses

/-!
# Ranges of blocks that are denied

A read of blocks and a write of blocks are denied for the same ranges, by checks of their own: the
write compares blocks, and the read leaves it to its engine to compare addresses. The faults tell
the difference. A read is told the last address of the range, and a write the one after it.
-/

namespace NorFlash

namespace BlockDevice

open Engine

variable {device : BlockDevice} {found : Descriptor} {block : UInt32} {count : Nat}
  {bytes : Bytes}

/-- So many blocks as lengths can count have a length. -/
theorem blocksLength_eq_ok (hsize : device.blockSize ≠ 0)
    (hlength : count * device.blockSize < lengthLimit) :
    device.blocksLength count = .ok (count * device.blockSize) := by
  unfold blocksLength
  rw [if_neg hsize, if_pos hlength]

/-! ## More bytes than can be counted -/

/-- More blocks than lengths can count are rejected with their number. -/
theorem blocksLength_eq_error (hsize : device.blockSize ≠ 0)
    (hlength : lengthLimit ≤ count * device.blockSize) :
    device.blocksLength count = .error (.wrongLength 0 count) := by
  unfold blocksLength
  rw [if_neg hsize, if_neg (Nat.not_lt.mpr hlength)]

/-- A read of more bytes than lengths can count is rejected with the number of blocks. -/
theorem readBlocks_uncountable (hsize : device.blockSize ≠ 0)
    (hlength : lengthLimit ≤ count * device.blockSize) :
    device.readBlocks block count = throw (.wrongLength 0 count) := by
  unfold readBlocks
  rw [blocksLength_eq_error hsize hlength]
  rfl

/-- A write of more bytes than lengths can count is rejected with the number of blocks. -/
theorem writeBlocks_uncountable (hsize : device.blockSize ≠ 0)
    (hlength : lengthLimit ≤ count * device.blockSize) :
    device.writeBlocks block count bytes = throw (.wrongLength 0 count) := by
  unfold writeBlocks
  rw [blocksLength_eq_error hsize hlength]
  rfl

/-! ## Blocks beyond the device -/

/-- A device has the whole blocks of its capacity. -/
theorem blockCount_eq_div (device : BlockDevice) :
    device.blockCount = device.engine.capacity / device.blockSize := by
  unfold blockCount blockSize sectorCount sectorSize capacity
  cases device.engine.device? <;> rfl

/-- A range that ends after the last block ends beyond the capacity. -/
theorem beyond_of_blockCount_lt (hsize : device.blockSize ≠ 0)
    (hstop : device.blockCount < block.toNat + count) :
    device.engine.capacity < block.toNat * device.blockSize + count * device.blockSize := by
  rw [blockCount_eq_div, Nat.div_lt_iff_lt_mul (Nat.pos_of_ne_zero hsize)] at hstop
  rwa [← Nat.add_mul]

/-- A block read that ends beyond the capacity is rejected with its last address. -/
theorem readBlocks_beyond (hfound : device.engine.requireDevice = .ok found)
    (hsize : device.blockSize ≠ 0) (hlength : count * device.blockSize < lengthLimit)
    (hbeyond : device.engine.capacity <
      block.toNat * device.blockSize + count * device.blockSize) :
    device.readBlocks block count =
      throw (.outside (block.toNat * device.blockSize + count * device.blockSize - 1)) := by
  unfold readBlocks
  rw [blocksLength_eq_ok hsize hlength]
  exact readSector_beyond hfound hbeyond

/-- Blocks that end beyond the device do not pass the check. -/
theorem checkBlocks_beyond (hbeyond : device.engine.capacity <
      block.toNat * device.blockSize + count * device.blockSize) :
    device.checkBlocks block count =
      .error (.outside ((block.toNat + count) * device.blockSize)) := by
  have hstop : ¬block.toNat + count ≤ device.blockCount := by
    intro hle
    have hcapacity := stop_le_of_checkBlocks (checkBlocks_eq_ok_iff.mpr hle)
    omega
  exact if_neg hstop

/-- A block write that ends beyond the capacity is rejected with the address after its last. -/
theorem writeBlocks_beyond (hsize : device.blockSize ≠ 0)
    (hlength : count * device.blockSize < lengthLimit)
    (hbytes : bytes.length = count * device.blockSize)
    (hbeyond : device.engine.capacity <
      block.toNat * device.blockSize + count * device.blockSize) :
    device.writeBlocks block count bytes =
      throw (.outside ((block.toNat + count) * device.blockSize)) := by
  unfold writeBlocks
  rw [blocksLength_eq_ok hsize hlength, checkBlocks_beyond hbeyond]
  exact if_neg (fun hne => hne hbytes)

end BlockDevice

end NorFlash
