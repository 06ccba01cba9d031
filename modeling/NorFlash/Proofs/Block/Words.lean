import NorFlash.Proofs.Block.Ranges
import NorFlash.Proofs.Block.Routes
import NorFlash.Proofs.Engine.Words

/-!
# Blocks in word arithmetic

Reads and writes of blocks, stated again in an arithmetic of words. They are those of the block
device whatever the arithmetic makes of a result that does not fit its word: `readBlocks_eq` and
`writeBlocks_eq`. `blocks_judged_alike` puts together which ranges a read and a write of blocks
accept. It is the same ranges, up to the largest block numbers and counts.
-/

namespace NorFlash

namespace BlockDevice

variable {device : BlockDevice} {block : UInt32} {count : Nat} {bytes : Bytes}

/-- The blocks of a device in the catalog are sectors. -/
theorem blockSize_of_catalogued (h : device.engine.Catalogued) (hsize : device.blockSize ≠ 0) :
    device.blockSize = sectorBytes := by
  unfold blockSize Engine.sectorSize Engine.device? at *
  cases hidentity : device.engine.identity with
  | none => simp [hidentity] at hsize
  | some identity =>
      obtain ⟨id, hknows⟩ := h identity hidentity
      exact congrArg UInt32.toNat hknows.sectorSize_eq

/-- Blocks of the device end at an address of it. -/
theorem stop_le_addressable (h : device.engine.Catalogued) (hsize : device.blockSize ≠ 0)
    (hblocks : device.checkBlocks block count = .ok ()) :
    (block.toNat + count) * sectorBytes ≤ addressable 24 := by
  have hstop := stop_le_of_checkBlocks hblocks
  rw [← Nat.add_mul, blockSize_of_catalogued h hsize] at hstop
  exact Nat.le_trans hstop h.capacity_le

/-- The first of them has an address, and a page begins there. -/
theorem start_eq (h : device.engine.Catalogued) (hsize : device.blockSize ≠ 0)
    (hblocks : device.checkBlocks block count = .ok ()) :
    (UInt32.ofNat (block.toNat * device.blockSize)).toNat = block.toNat * device.blockSize ∧
      pageSize ∣ block.toNat * device.blockSize := by
  have hstop := stop_le_addressable h hsize hblocks
  have hpage : pageSize ∣ sectorBytes := by decide
  rw [blockSize_of_catalogued h hsize]
  rw [Nat.add_mul] at hstop
  exact ⟨Catalog.toNat_ofNat_of_le (Nat.le_trans (Nat.le_add_right ..) hstop),
    Nat.dvd_mul_left_of_dvd hpage _⟩

section Pages

variable {address page : Nat} {new old : Bytes} {change : PageChange}

/-- The pages that change, which are the same wherever the data is stored, and their numbers. -/
theorem filter_pageChanges_of_dvd (hpage : pageSize ∣ address) :
    ((pageChanges address new old).filter fun change => !change.isUnchanged) =
      ((pageChanges 0 new old).zipIdx.filter fun change => !change.1.isUnchanged).map
        fun change => ⟨⟨address + change.1.new.address, change.1.new.bytes⟩, change.1.old⟩ := by
  have hshifted : pageChanges address new old = (pageChanges 0 new old).map fun change =>
      ⟨⟨address + change.new.address, change.new.bytes⟩, change.old⟩ := by
    have hnew := Page.cut_add hpage 0 new
    have hold := Page.cut_add hpage 0 old
    rw [Nat.add_zero] at hnew hold
    rw [pageChanges, hnew, hold, List.zipWith_map, pageChanges, List.map_zipWith]
  rw [hshifted]
  conv_lhs => rw [← List.zipIdx_map_fst 0 (pageChanges 0 new old), List.map_map, List.filter_map]
  rfl

/-- The pieces of whole pages stand where their numbers say. -/
theorem new_of_mem_zipIdx (hbytes : pageSize ∣ new.length)
    (h : (change, page) ∈ (pageChanges 0 new old).zipIdx) :
    page * pageSize < new.length ∧ change.new =
      ⟨page * pageSize, (new.drop (page * pageSize)).take pageSize⟩ := by
  obtain ⟨hlength, hchange⟩ := List.mem_zipIdx' h
  have hpage : page < (Page.cut 0 new).length := by
    rw [pageChanges, List.length_zipWith] at hlength
    omega
  obtain ⟨hinside, hpiece⟩ := Page.getElem_cut_zero hbytes hpage
  refine ⟨hinside, ?_⟩
  rw [hchange]
  simp only [pageChanges, List.getElem_zipWith, hpiece]

end Pages

end BlockDevice

namespace WordArithmetic

variable (words : WordArithmetic) (device : BlockDevice)

/-! ## The operations -/

/-- As `BlockDevice.checkBlocks`. -/
def checkBlocks (block : UInt32) (count : Nat) : Except Fault Unit :=
  let stop := words.add 64 block.toNat count
  if device.blockCount < stop then
    .error (.addressOutOfRange
      (UInt32.ofNat (words.cast 32 (min (words.mul 64 stop device.blockSize) lastAddress))))
  else
    .ok ()

/-- As `BlockDevice.readBlocks`. -/
def readBlocks (block : UInt32) (count : Nat) : Action Bytes := do
  let length ← MonadExcept.ofExcept (device.blocksLength count)
  words.readSector device.engine block length

/-- As `BlockDevice.eraseBlocks`. -/
def eraseBlocks (block : UInt32) (count : Nat) : Action Unit :=
  let stop := words.add 32 block.toNat (words.cast 32 count)
  (List.range' block.toNat (stop - block.toNat)).forM fun sector =>
    words.eraseSector device.engine (UInt32.ofNat sector)

/-- Writes one page of data that is to be stored at an address. -/
def writePage (address : UInt32) (bytes : Bytes) (page : Nat) : Action Unit :=
  let start := words.mul 64 page pageSize
  let stop := min (words.add 64 start pageSize) bytes.length
  words.write device.engine (UInt32.ofNat (words.add 32 address.toNat (words.cast 32 start)))
    ((bytes.take stop).drop start)

/-- As `BlockDevice.storeBlocks`, at an address. The pages are told by their numbers. -/
def storeBlocks (address block : UInt32) (count : Nat) (bytes : Bytes) : Action WriteRoute := do
  let stored ← words.read device.engine address bytes.length
  let changes := (BlockDevice.pageChanges 0 bytes stored).zipIdx.filter fun change =>
    !change.1.isUnchanged
  if changes.any fun change => change.1.needsErase then
    words.eraseBlocks device block count
    words.write device.engine address bytes
    return .rewritten
  else
    changes.forM fun change => words.writePage device address bytes change.2
    return .filled changes.length

/-- As `BlockDevice.writeBlocks`. -/
def writeBlocks (block : UInt32) (count : Nat) (bytes : Bytes) : Action WriteRoute := do
  let length ← MonadExcept.ofExcept (device.blocksLength count)
  if bytes.length ≠ length then
    throw (.wrongLength length bytes.length)
  else
    MonadExcept.ofExcept (words.checkBlocks device block count)
    if count = 0 then
      return .filled 0
    else
      let address := UInt32.ofNat (words.mul 32 block.toNat (words.cast 32 device.blockSize))
      if bytes.all (· == Bytes.erased) then
        words.eraseBlocks device block count
        return .erased
      else
        words.storeBlocks device address block count bytes

/-! ## They are those of the block device -/

/-- The most bytes that data can have. -/
def longestData : Nat :=
  addressable 63 - 1

section Catalogued

variable {device} {block : UInt32} {count : Nat} {bytes : Bytes}
  (h : device.engine.Catalogued)

include h

/-- The end of the blocks is a word even if they are not within the device. -/
theorem checkBlocks_eq (hsize : device.blockSize ≠ 0)
    (hlength : count * device.blockSize ≤ longestData) :
    words.checkBlocks device block count = device.checkBlocks block count := by
  have hsector := BlockDevice.blockSize_of_catalogued h hsize
  rw [hsector] at hlength
  have hblock : block.toNat < addressable 32 := block.toNat_lt
  have hfirst : addressable 32 * sectorBytes + longestData < addressable 64 := by decide
  have hsum := Nat.le_mul_of_pos_right (block.toNat + count) sectorBytes_pos
  have hblocks := Nat.mul_le_mul_right sectorBytes (Nat.le_of_lt hblock)
  have hproduct : (block.toNat + count) * sectorBytes < addressable 64 := by
    rw [Nat.add_mul]
    omega
  have hlast : lastAddress < addressable 32 := by decide
  unfold checkBlocks BlockDevice.checkBlocks
  dsimp only
  rw [words.add_eq (Nat.lt_of_le_of_lt hsum hproduct), hsector, words.mul_eq hproduct,
    words.cast_eq (Nat.lt_of_le_of_lt (Nat.min_le_right ..) hlast)]
  by_cases hwithin : block.toNat + count ≤ device.blockCount
  · rw [if_neg (Nat.not_lt.mpr hwithin), if_pos hwithin]
  · rw [if_pos (Nat.lt_of_not_le hwithin), if_neg hwithin]

/-- In words, a block read is the one on unbounded numbers. -/
theorem readBlocks_eq (block : UInt32) (count : Nat) :
    words.readBlocks device block count = device.readBlocks block count := by
  unfold readBlocks BlockDevice.readBlocks
  simp only [words.readSector_eq h]

section Within

variable (hsize : device.blockSize ≠ 0) (hblocks : device.checkBlocks block count = .ok ())

include hsize hblocks

/-- In words, erasing blocks is the same as on unbounded numbers. -/
theorem eraseBlocks_eq :
    words.eraseBlocks device block count = device.eraseBlocks block count := by
  have hstop := BlockDevice.stop_le_addressable h hsize hblocks
  have hsum := Nat.le_mul_of_pos_right (block.toNat + count) sectorBytes_pos
  have hword : addressable 24 < addressable 32 := by decide
  unfold eraseBlocks BlockDevice.eraseBlocks
  dsimp only
  rw [words.cast_eq (by omega), words.add_eq (by omega), Nat.add_sub_cancel_left,
    List.range'_eq_map_range]
  simp only [words.eraseSector_eq h]
  exact List.forM_map

/-- In words, each page is written where it is on unbounded numbers. -/
theorem writePage_eq (hbytes : bytes.length = count * device.blockSize) {page : Nat}
    (hpage : page * pageSize < bytes.length) :
    words.writePage device (UInt32.ofNat (block.toNat * device.blockSize)) bytes page =
      device.engine.write (UInt32.ofNat (block.toNat * device.blockSize + page * pageSize))
        ((bytes.drop (page * pageSize)).take pageSize) := by
  have hstop := BlockDevice.stop_le_addressable h hsize hblocks
  rw [Nat.add_mul, ← BlockDevice.blockSize_of_catalogued h hsize, ← hbytes] at hstop
  have hword : addressable 24 < addressable 32 := by decide
  have hlong : addressable 24 + pageSize < addressable 64 := by decide
  have hslice : (bytes.take (min (page * pageSize + pageSize) bytes.length)).drop
      (page * pageSize) = (bytes.drop (page * pageSize)).take pageSize := by
    rw [← List.take_eq_take_min, List.drop_take, Nat.add_sub_cancel_left]
  have hstart : words.mul 64 page pageSize = page * pageSize := words.mul_eq (by omega)
  have hend : words.add 64 (page * pageSize) pageSize = page * pageSize + pageSize :=
    words.add_eq (by omega)
  unfold writePage
  dsimp only
  rw [hstart, hend, words.cast_eq (by omega), (BlockDevice.start_eq h hsize hblocks).1,
    words.add_eq (by omega), words.write_eq h, hslice]

/-- In words, storing data in blocks is the same as on unbounded numbers. -/
theorem storeBlocks_eq (hbytes : bytes.length = count * device.blockSize) :
    words.storeBlocks device (UInt32.ofNat (block.toNat * device.blockSize)) block count bytes =
      device.storeBlocks block count bytes := by
  obtain ⟨haddress, hpage⟩ := BlockDevice.start_eq h hsize hblocks
  have hsector : pageSize ∣ sectorBytes := by decide
  have hwhole : pageSize ∣ bytes.length := by
    rw [hbytes, BlockDevice.blockSize_of_catalogued h hsize]
    exact Nat.dvd_mul_left_of_dvd hsector count
  unfold storeBlocks BlockDevice.storeBlocks
  simp only [words.read_eq h, words.write_eq h, words.eraseBlocks_eq h hsize hblocks]
  refine bind_congr fun stored => ?_
  rw [haddress, BlockDevice.filter_pageChanges_of_dvd hpage, List.any_map, List.length_map]
  refine ite_congr rfl (fun _ => rfl) fun _ => congrArg (· >>= _) ?_
  refine Eq.trans (Action.forM_congr fun change hchange => ?_) List.forM_map.symm
  obtain ⟨hinside, hnew⟩ :=
    BlockDevice.new_of_mem_zipIdx hwhole (List.mem_filter.mp hchange).1
  rw [hnew]
  exact words.writePage_eq h hsize hblocks hbytes hinside

end Within

/-- In words, a block write of data that a slice can hold is the one on unbounded numbers. -/
theorem writeBlocks_eq (block : UInt32) (count : Nat) (hbytes : bytes.length ≤ longestData) :
    words.writeBlocks device block count bytes = device.writeBlocks block count bytes := by
  unfold writeBlocks BlockDevice.writeBlocks
  refine Action.ofExcept_bind_congr fun length hlength => ?_
  obtain ⟨hsize, rfl⟩ := BlockDevice.of_blocksLength hlength
  by_cases hexact : bytes.length = count * device.blockSize
  · rw [if_neg (not_not_intro hexact), if_neg (not_not_intro hexact),
      words.checkBlocks_eq h hsize (hexact ▸ hbytes)]
    refine Action.ofExcept_bind_congr fun _ hblocks => ?_
    have hsector := BlockDevice.blockSize_of_catalogued h hsize
    have hstop := BlockDevice.stop_le_addressable h hsize hblocks
    have hword : addressable 24 < addressable 32 := by decide
    have hcast : words.cast 32 device.blockSize = device.blockSize :=
      words.cast_eq (by rw [hsector]; decide)
    have hproduct : words.mul 32 block.toNat device.blockSize = block.toNat * device.blockSize := by
      rw [Nat.add_mul] at hstop
      exact words.mul_eq (by rw [hsector]; omega)
    dsimp only
    rw [hcast, hproduct, words.eraseBlocks_eq h hsize hblocks,
      words.storeBlocks_eq h hsize hblocks hexact]
  · rw [if_pos hexact, if_pos hexact]

end Catalogued

end WordArithmetic

namespace BlockDevice

open Engine

variable {device : BlockDevice} {identity : Identity} {id : JedecId} {width : BusWidth}
  {bench : Bench} {block : UInt32} {count : Nat} {bytes : Bytes}

/-! ## The ranges that are accepted -/

/-- Blocks of the device pass the checks of a read. -/
theorem readBlocks_eq (h : device.engine.Serving id identity width bench)
    (hstop : (block.toNat + count) * sectorBytes ≤ bench.chip.memory.size) :
    device.readBlocks block count =
      device.engine.read (UInt32.ofNat (block.toNat * sectorBytes)) (count * sectorBytes) := by
  have hsize := h.size_le
  have hlimit : addressable 24 < lengthLimit := by decide
  have hsector := blockSize_eq h
  rw [Nat.add_mul] at hstop
  have hlength : device.blocksLength count = .ok (count * sectorBytes) := by
    rw [blocksLength_eq_ok (by rw [hsector]; decide) (by rw [hsector]; omega), hsector]
  unfold readBlocks readSector
  rw [hlength, h.sectorAddress_eq rfl (by omega)]
  rfl

/-- If there are any blocks to read, the chip has to accept reads. -/
theorem ends_readBlocks_judged (h : device.engine.Serving id identity width bench)
    (hresponsive : bench.chip.Responsive) (hrange : block.toNat + count ≤ device.blockCount) :
    (device.readBlocks block count).Ends Bench.environment
      (fun _ _ => count = 0 ∨ Accepts identity bench)
      (fun fault after => count ≠ 0 ∧ Refused identity width bench fault after) bench := by
  have hstop := checkBlocks_ok h (checkBlocks_eq_ok_iff.mpr hrange)
  have hcapacity := h.size_eq
  rw [readBlocks_eq h hstop]
  rw [Nat.add_mul] at hstop
  have haddress : (UInt32.ofNat (block.toNat * sectorBytes)).toNat = block.toNat * sectorBytes :=
    h.toNat_ofNat (by omega)
  by_cases hcount : count = 0
  · have hfound := requireDevice_of_identity h.attuned.identity
    rw [hcount, Nat.zero_mul, read_zero hfound]
    · exact .inl rfl
    · rw [haddress, capacity_of_identity h.attuned.identity]
      omega
  · have hsome : count * sectorBytes ≠ 0 := Nat.mul_ne_zero hcount (Nat.ne_of_gt sectorBytes_pos)
    refine (ends_read_responsive h.attuned hresponsive hsome (by omega)).mono ?_ ?_
    · exact fun _ _ hafter => .inr hafter.2.1
    · rintro fault after ⟨⟨hunchanged, hlogs⟩, hcause⟩
      exact ⟨hcount, hcause, hunchanged, hlogs.events_eq⟩

/-- A read and a write of blocks accept the same ranges of an identified device. More bytes than
can be counted are a wrong length, and blocks beyond the last one are out of range. Within the
device, on a responsive bench, they succeed unless the chip refuses to be read. A read of no blocks
and a write of erased data succeed even then. Whatever becomes of sums, products and conversions
that do not fit their words, both are the same programs. -/
theorem blocks_judged_alike (hidentity : device.engine.identity = some identity)
    (hknows : Catalog.Knows id identity) (block : UInt32) (count : Nat) :
    (lengthLimit ≤ count * device.blockSize →
      device.readBlocks block count = throw (.wrongLength 0 count) ∧
        ∀ bytes, device.writeBlocks block count bytes = throw (.wrongLength 0 count)) ∧
    (count * device.blockSize < lengthLimit → device.blockCount < block.toNat + count →
      device.readBlocks block count =
          throw (.outside ((block.toNat + count) * device.blockSize - 1)) ∧
        ∀ bytes : Bytes, bytes.length = count * device.blockSize →
          device.writeBlocks block count bytes =
            throw (.outside ((block.toNat + count) * device.blockSize))) ∧
    (block.toNat + count ≤ device.blockCount → ∀ width bench,
      device.engine.Serving id identity width bench → bench.chip.Responsive →
        (device.readBlocks block count).Ends Bench.environment
          (fun _ _ => count = 0 ∨ Accepts identity bench)
          (fun fault after => count ≠ 0 ∧ Refused identity width bench fault after) bench ∧
        ∀ bytes : Bytes, bytes.length = count * device.blockSize →
          (device.writeBlocks block count bytes).Ends Bench.environment
            (fun _ _ => bytes.AllErased ∨ Accepts identity bench)
            (fun fault after => ¬bytes.AllErased ∧ Refused identity width bench fault after)
            bench) ∧
    ∀ words : WordArithmetic,
      words.readBlocks device block count = device.readBlocks block count ∧
        ∀ bytes : Bytes, bytes.length ≤ WordArithmetic.longestData →
          words.writeBlocks device block count bytes = device.writeBlocks block count bytes := by
  have hcatalogued : device.engine.Catalogued :=
    fun other hother => ⟨id, Option.some.inj (hidentity.symm.trans hother) ▸ hknows⟩
  have hfound := requireDevice_of_identity hidentity
  have hsize : device.blockSize ≠ 0 := by
    rw [blockSize_of_requireDevice hfound, hknows.sectorSize_eq]
    decide
  refine ⟨fun hlength => ?_, fun hlength hstop => ?_, fun hrange width bench h hresponsive => ?_,
    fun words => ?_⟩
  · exact ⟨readBlocks_uncountable hsize hlength, fun _ => writeBlocks_uncountable hsize hlength⟩
  · have hbeyond := beyond_of_blockCount_lt hsize hstop
    refine ⟨?_, fun bytes hbytes => writeBlocks_beyond hsize hlength hbytes hbeyond⟩
    rw [Nat.add_mul]
    exact readBlocks_beyond hfound hsize hlength hbeyond
  · refine ⟨ends_readBlocks_judged h hresponsive hrange, fun bytes hbytes => ?_⟩
    exact (ends_writeBlocks_routed h hresponsive hrange hbytes).mono
      (fun _ _ hafter => hafter.1) fun _ _ hafter => hafter
  · exact ⟨words.readBlocks_eq hcatalogued block count,
      fun _ hbytes => words.writeBlocks_eq hcatalogued block count hbytes⟩

/-- Around the last block of a chip in quad mode. -/
theorem blocks_judged_alike_around_end :
    let identity : Identity :=
      ⟨Catalog.winbond, ⟨0x4015, "W25Q16DV", 4096, false, 8, some .quad⟩⟩
    let device : BlockDevice := ⟨⟨.standard, some identity⟩, true⟩
    let chip := { Chip.fresh ⟨0xEF, 0x4015⟩ with
      quad := true, registers := { Registers.afterReset ⟨0x02⟩ with readParameters := ⟨0x30⟩ } }
    let bench := { Bench.ofChip chip with bus := some ⟨.quad, false⟩ }
    let zeros (count : Nat) : Bytes := List.replicate count 0
    ((device.readBlocks 511 1).run.run Bench.environment bench).1.isOk = true ∧
      ((device.writeBlocks 511 1 (zeros 0x1000)).run.run Bench.environment bench).1.isOk = true ∧
      device.readBlocks 511 2 = throw (.addressOutOfRange 0x200FFF) ∧
      device.writeBlocks 511 2 (zeros 0x2000) = throw (.addressOutOfRange 0x201000) ∧
      WordArithmetic.wrapping.writeBlocks device 511 2 (zeros 0x2000) =
        throw (.addressOutOfRange 0x201000) ∧
      device.readBlocks 0 (addressable 52) = throw (.wrongLength 0 (addressable 52)) := by
  intro identity device chip bench zeros
  have hknows : Catalog.Knows ⟨0xEF, 0x4015⟩ identity := rfl
  have hserving : device.engine.Serving ⟨0xEF, 0x4015⟩ identity .quad bench :=
    ⟨⟨rfl, ⟨_, rfl, rfl⟩, ⟨rfl, rfl⟩⟩, hknows, rfl⟩
  have haccepts : Accepts identity bench :=
    Chip.checkRead_of_expects ⟨fun _ => by decide, by decide⟩
  have hlength (count : Nat) : (zeros count).length = count := List.length_replicate
  -- Neither the data nor the runs are to be unfolded.
  clear_value zeros
  have hidentity : device.engine.identity = some identity := rfl
  obtain ⟨-, -, hwithin, -⟩ := blocks_judged_alike hidentity hknows 511 1
  obtain ⟨hread, hwrite⟩ := hwithin (by decide) .quad bench hserving ⟨rfl, rfl⟩
  have hdone := hread.isOk fun _ _ hafter => hafter.2.not_accepts haccepts
  have hstored := (hwrite _ (hlength _)).isOk fun _ _ hafter => hafter.2.not_accepts haccepts
  obtain ⟨-, hbeyond, -, hwords⟩ := blocks_judged_alike hidentity hknows 511 2
  obtain ⟨hdenied, hrefused⟩ := hbeyond (by decide) (by decide)
  have hrefused := hrefused (zeros 0x2000) (hlength _)
  have hshort : (zeros 0x2000).length ≤ WordArithmetic.longestData := by
    rw [hlength]
    decide
  obtain ⟨hlong, -⟩ := blocks_judged_alike hidentity hknows 0 (addressable 52)
  exact ⟨hdone, hstored, hdenied, hrefused,
    ((hwords .wrapping).2 _ hshort).trans hrefused, (hlong (by decide)).1⟩

/-- After a reset an open device still hears its engine, and refuses to be read. -/
theorem readBlocks_refused_after_reset :
    let opened := (closed (fresh .standard)).bringUp.run Bench.environment
      (Bench.ofChip (Chip.fresh ⟨0xEF, 0x4015⟩))
    let device := opened.1.2
    let restarted := (device.perform (.engine .reset)).run Bench.environment opened.2
    let bench := restarted.2
    device.isOpen = true ∧ restarted.1.result.isOk = true ∧ bench.bus = some ⟨.single, false⟩ ∧
      bench.chip.asleep = false ∧ bench.chip.listens .single = true ∧ bench.chip.Responsive ∧
      (0 : UInt32).toNat + 1 ≤ device.blockCount ∧
      ((device.readBlocks 0 1).run.run Bench.environment bench).1.isOk = false := by
  intro opened device restarted bench
  refine ⟨?_, ?_, ?_, ?_, ?_, ⟨?_, ?_⟩, ?_, ?_⟩ <;> decide +kernel

end BlockDevice

end NorFlash
