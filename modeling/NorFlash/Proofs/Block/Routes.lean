import NorFlash.Proofs.Block.Checks
import NorFlash.Proofs.Block.Writing
import NorFlash.Proofs.Chip.Discipline
import NorFlash.Proofs.Engine.Logged

/-!
# The route of a block write

A block write looks at its data and at what is stored, and takes one of three routes. `Routed` says
which one and what the chip logs of it: the conditions are about single bytes, where the program
compares pages. `writeBlocks_by_route` is what a block write does on a responsive bench. It stores
its data by the route it reports, with no more than that route needs, or the chip refuses to be read
and nothing is touched.
-/

namespace NorFlash

/-- Some byte that was programmed could not be stored for want of an erase. -/
def MemoryEvent.needsErase : MemoryEvent → Bool
  | erase .. => false
  | program _ _ _ needsErase => needsErase

/-- What is logged of a piece that is programmed onto erased bytes. -/
def PagePiece.freshEvent (piece : PagePiece) : MemoryEvent :=
  .program (UInt32.ofNat piece.address) piece.bytes.length true false

/-- All bytes are erased ones. -/
def Bytes.AllErased (bytes : Bytes) : Prop :=
  ∀ byte ∈ bytes, byte = Bytes.erased

instance (bytes : Bytes) : Decidable bytes.AllErased :=
  inferInstanceAs (Decidable (∀ byte ∈ bytes, byte = Bytes.erased))

namespace Memory

variable {memory : Memory} {address : Nat} {bytes : Bytes}

/-- Data can be stored at an address without an erase: what differs from it is erased. -/
def Fillable (memory : Memory) (address : Nat) (bytes : Bytes) : Prop :=
  ∀ offset (h : offset < bytes.length), memory.byteAt (address + offset) ≠ bytes[offset] →
    memory.byteAt (address + offset) = Bytes.erased

/-- The pages that differ from what is stored. -/
def differing (memory : Memory) (pages : List PagePiece) : List PagePiece :=
  pages.filter fun page => memory.read page.address page.bytes.length != page.bytes

/-- A read delivers at each offset the byte that is stored there. -/
theorem getElem_read {length offset : Nat} (h : offset < (memory.read address length).length) :
    (memory.read address length)[offset] = memory.byteAt (address + offset) := by
  simp [read]

/-- The front of a read is a shorter read. -/
theorem take_read (memory : Memory) (address length count : Nat) :
    (memory.read address length).take count = memory.read address (min count length) := by
  simp [read, ← List.map_take, List.take_range]

/-- The end of a read is a read from further on. -/
theorem drop_read (memory : Memory) (address length count : Nat) :
    (memory.read address length).drop count = memory.read (address + count) (length - count) := by
  rcases Nat.le_total count length with hle | hle
  · have hsplit := memory.read_add address count (length - count)
    rw [Nat.add_sub_cancel' hle] at hsplit
    rw [hsplit, List.drop_left' (length_read ..)]
  · rw [Nat.sub_eq_zero_of_le hle, List.drop_eq_nil_of_le (by rw [length_read]; exact hle)]
    rfl

/-- What is stored of data is stored of its pieces. -/
theorem read_of_mem_cut (h : memory.read address bytes.length = bytes) :
    ∀ piece ∈ Page.cut address bytes,
      memory.read piece.address piece.bytes.length = piece.bytes := by
  fun_induction Page.cut address bytes with
  | case1 => simp
  | case2 address bytes hbytes ih =>
      rintro piece (_ | ⟨_, hrest⟩)
      · rw [List.length_take, ← take_read, h]
      · refine ih ?_ piece hrest
        rw [List.length_drop, ← drop_read, h]

/-- Data can be filled in if both its parts can. -/
theorem fillable_append {first second : Bytes} :
    memory.Fillable address (first ++ second) ↔
      memory.Fillable address first ∧ memory.Fillable (address + first.length) second := by
  constructor
  · refine fun h => ⟨fun offset hoffset => ?_, fun offset hoffset => ?_⟩
    · have hbyte := h offset (by rw [List.length_append]; omega)
      rwa [List.getElem_append_left hoffset] at hbyte
    · have hbyte := h (first.length + offset) (by rw [List.length_append]; omega)
      rw [List.getElem_append_right (Nat.le_add_right ..)] at hbyte
      simpa [Nat.add_assoc] using hbyte
  · rintro ⟨hfirst, hsecond⟩ offset hoffset
    by_cases hbefore : offset < first.length
    · rw [List.getElem_append_left hbefore]
      exact hfirst offset hbefore
    · have hrest := hsecond (offset - first.length) (by rw [List.length_append] at hoffset; omega)
      rw [List.getElem_append_right (by omega)]
      rwa [Nat.add_assoc, Nat.add_sub_cancel' (by omega)] at hrest

/-- Data can be stored without an erase if each of its pages can. -/
theorem fillable_iff_cut :
    memory.Fillable address bytes ↔
      ∀ piece ∈ Page.cut address bytes, memory.Fillable piece.address piece.bytes := by
  fun_induction Page.cut address bytes with
  | case1 address =>
      refine ⟨fun _ piece hpiece => absurd hpiece (by simp), fun _ offset hoffset => ?_⟩
      exact absurd hoffset (Nat.not_lt_zero _)
  | case2 address bytes h ih =>
      have hsplit := @fillable_append memory address (bytes.take (Page.room address))
        (bytes.drop (Page.room address))
      rw [List.take_append_drop] at hsplit
      have hrest : memory.Fillable (address + (bytes.take (Page.room address)).length)
          (bytes.drop (Page.room address)) ↔ memory.Fillable (address + Page.room address)
            (bytes.drop (Page.room address)) := by
        rcases Nat.le_total (Page.room address) bytes.length with hle | hle
        · rw [List.length_take_of_le hle]
        · rw [List.drop_eq_nil_of_le hle]
          exact ⟨fun _ _ h => absurd h (Nat.not_lt_zero _),
            fun _ _ h => absurd h (Nat.not_lt_zero _)⟩
      rw [hsplit, hrest, ih, List.forall_mem_cons]

/-- No byte of the data differs from one that is not erased. -/
theorem fillable_iff_zip :
    memory.Fillable address bytes ↔
      ((bytes.zip (memory.read address bytes.length)).any
        fun (new, old) => new != old && old != Bytes.erased) = false := by
  rw [List.any_eq_false]
  have hlength : (bytes.zip (memory.read address bytes.length)).length = bytes.length := by
    simp [length_read]
  constructor
  · intro h pair hpair
    obtain ⟨offset, hoffset, rfl⟩ := List.mem_iff_getElem.mp hpair
    have hbyte := h offset (hlength ▸ hoffset)
    simp only [List.getElem_zip, getElem_read, Bool.and_eq_true, bne_iff_ne, not_and]
    exact fun hdiffers herased => herased (hbyte hdiffers.symm)
  · intro h offset hoffset
    have hbyte := h _ (List.getElem_mem (show offset < _ from hlength.symm ▸ hoffset))
    simp only [List.getElem_zip, getElem_read, Bool.and_eq_true, bne_iff_ne, not_and] at hbyte
    exact fun hdiffers => Decidable.not_not.mp (hbyte (Ne.symm hdiffers))

/-- Data that can be filled in is what programming it makes of what is stored. -/
theorem Fillable.mask_eq (h : memory.Fillable address bytes) :
    mask (memory.read address bytes.length) bytes = bytes :=
  mask_of_differs (length_read ..) (fillable_iff_zip.mp h)

/-- Data that can be filled in can be programmed page by page. -/
theorem Fillable.takes (h : memory.Fillable address bytes)
    (hsize : address + bytes.length ≤ memory.size) :
    ∀ piece ∈ Page.cut address bytes, memory.Takes piece := by
  intro piece hpiece
  have hwithin := Page.within_of_mem_cut piece hpiece
  exact ⟨hwithin.page, Nat.le_trans hwithin.last hsize,
    (fillable_iff_cut.mp h piece hpiece).mask_eq⟩

/-- Data that is stored already can be filled in. -/
theorem fillable_of_read_eq (h : memory.read address bytes.length = bytes) :
    memory.Fillable address bytes := by
  intro offset hoffset hdiffers
  have hbyte := getElem_read (show offset < (memory.read address bytes.length).length by
    rw [length_read]; exact hoffset)
  simp only [h] at hbyte
  exact absurd hbyte.symm hdiffers

/-- Anything can be stored where all is erased. -/
theorem fillable_of_erased
    (h : memory.read address bytes.length = List.replicate bytes.length Bytes.erased) :
    memory.Fillable address bytes := by
  intro offset hoffset _
  have hbyte := getElem_read (show offset < (memory.read address bytes.length).length by
    rw [length_read]; exact hoffset)
  simp only [h, List.getElem_replicate] at hbyte
  exact hbyte.symm

/-- Every piece of data falls on erased bytes where all of it does. -/
theorem storedEvent_of_erased
    (h : memory.read address bytes.length = List.replicate bytes.length Bytes.erased) :
    ∀ piece ∈ Page.cut address bytes, memory.storedEvent piece = piece.freshEvent := by
  intro piece hpiece
  have hwithin := Page.within_of_mem_cut piece hpiece
  obtain ⟨offset, hoffset⟩ := Nat.exists_eq_add_of_le hwithin.first
  have hlast := hwithin.last
  have hpart := @read_part memory address bytes.length offset piece.bytes.length (by omega)
  rw [h, ← hoffset] at hpart
  unfold storedEvent PagePiece.freshEvent
  rw [hpart]
  simp

end Memory

namespace BlockDevice

open Engine

/-- What is logged of an erase of so many blocks. -/
def eraseEvents (block count : Nat) : List MemoryEvent :=
  (List.range count).map fun offset => .erase ((block + offset) * sectorBytes) sectorBytes

/-- The pages of the blocks that differ from what is stored. -/
def changedPages (memory : Memory) (block : Nat) (bytes : Bytes) : List PagePiece :=
  memory.differing (Page.whole (block * sectorBytes) bytes)

/-- The route of a block write over a memory, and what the chip logs of it. -/
inductive Routed (memory : Memory) (block count : Nat) (bytes : Bytes) :
    WriteRoute → List MemoryEvent → Prop where
  | nothing (hcount : count = 0) : Routed memory block count bytes (.filled 0) []
  /-- Erased data takes an erase of each block, and no more. -/
  | erased (hcount : count ≠ 0) (hbytes : bytes.AllErased) :
      Routed memory block count bytes .erased (eraseEvents block count)
  /-- Only the pages that differ are programmed. -/
  | filled (hbytes : ¬bytes.AllErased) (hfillable : memory.Fillable (block * sectorBytes) bytes) :
      Routed memory block count bytes (.filled (changedPages memory block bytes).length)
        ((changedPages memory block bytes).map memory.storedEvent)
  /-- All blocks are erased before any page is programmed, and then all pages are, onto erased
  bytes. -/
  | rewritten (hbytes : ¬bytes.AllErased)
      (hfillable : ¬memory.Fillable (block * sectorBytes) bytes) :
      Routed memory block count bytes .rewritten (eraseEvents block count ++
        (Page.whole (block * sectorBytes) bytes).map PagePiece.freshEvent)

variable {memory : Memory} {bench : Bench} {device : BlockDevice} {identity : Identity}
  {id : JedecId} {width : BusWidth} {block : UInt32} {count : Nat} {bytes : Bytes}
  {route : WriteRoute} {logged : List MemoryEvent}

/-- Nothing a block write logs was in want of an erase. -/
theorem Routed.needsErase_eq {first : Nat} (h : Routed memory first count bytes route logged) :
    ∀ event ∈ logged, event.needsErase = false := by
  have herases : ∀ event ∈ eraseEvents first count, event.needsErase = false := by
    intro event hevent
    obtain ⟨offset, -, rfl⟩ := List.mem_map.mp hevent
    rfl
  cases h with
  | nothing => exact fun _ hevent => absurd hevent List.not_mem_nil
  | erased => exact herases
  | filled =>
      intro event hevent
      obtain ⟨page, -, rfl⟩ := List.mem_map.mp hevent
      rfl
  | rewritten =>
      intro event hevent
      rcases List.mem_append.mp hevent with herase | hprogram
      · exact herases event herase
      · obtain ⟨page, -, rfl⟩ := List.mem_map.mp hprogram
        rfl

/-- Whole blocks are cut into whole pages. -/
theorem cut_blocks (first : Nat) (hlength : bytes.length = count * sectorBytes) :
    Page.cut (first * sectorBytes) bytes = Page.whole (first * sectorBytes) bytes := by
  have hpage : pageSize ∣ sectorBytes := by decide
  exact Page.cut_of_dvd (Nat.dvd_mul_left_of_dvd hpage first)
    (hlength ▸ Nat.dvd_mul_left_of_dvd hpage count)

/-- What is stored already takes nothing. -/
theorem Routed.of_stored {first : Nat} (h : Routed memory first count bytes route logged)
    (hlength : bytes.length = count * sectorBytes) (hbytes : ¬bytes.AllErased)
    (hstored : memory.read (first * sectorBytes) bytes.length = bytes) :
    route = .filled 0 ∧ logged = [] := by
  cases h with
  | nothing => exact ⟨rfl, rfl⟩
  | erased _ herased => exact absurd herased hbytes
  | filled =>
      have hnone : changedPages memory first bytes = [] := by
        refine List.filter_eq_nil_iff.mpr fun page hpage => ?_
        rw [← cut_blocks first hlength] at hpage
        simp [Memory.read_of_mem_cut hstored page hpage]
      exact ⟨by rw [hnone]; rfl, by rw [hnone]; rfl⟩
  | rewritten _ hfillable => exact absurd (Memory.fillable_of_read_eq hstored) hfillable

/-! ## What the program looks at -/

/-- Cutting new data and a read of the old is cutting the new and reading each piece. -/
theorem pageChanges_read (memory : Memory) (address : Nat) (bytes : Bytes) :
    pageChanges address bytes (memory.read address bytes.length) =
      (Page.cut address bytes).map fun piece =>
        ⟨piece, memory.read piece.address piece.bytes.length⟩ := by
  fun_induction Page.cut address bytes with
  | case1 address => exact pageChanges_nil ..
  | case2 address bytes h ih =>
      have hold : memory.read address bytes.length ≠ [] := by
        rw [← List.length_pos_iff, Memory.length_read]
        exact List.length_pos_iff.mpr h
      rw [pageChanges_of_ne_nil address h hold, Memory.take_read, Memory.drop_read,
        ← List.length_drop, ih, List.map_cons, List.length_take]

/-- A page needs an erase unless its data can be stored without. -/
theorem needsErase_eq_false_iff (piece : PagePiece) :
    (PageChange.mk piece (memory.read piece.address piece.bytes.length)).needsErase = false ↔
      memory.Fillable piece.address piece.bytes :=
  Memory.fillable_iff_zip.symm

/-- The program decides page by page, leaving out the pages that do not change. -/
theorem needsNoErase_iff (memory : Memory) (address : Nat) (bytes : Bytes) :
    NeedsNoErase (pageChanges address bytes (memory.read address bytes.length)) ↔
      memory.Fillable address bytes := by
  rw [pageChanges_read, Memory.fillable_iff_cut, NeedsNoErase, List.any_eq_false]
  constructor
  · intro h piece hpiece
    by_cases hunchanged : piece.bytes = memory.read piece.address piece.bytes.length
    · exact Memory.fillable_of_read_eq hunchanged.symm
    · refine (needsErase_eq_false_iff piece).mp (Bool.eq_false_iff.mpr (h _ ?_))
      refine List.mem_filter.mpr ⟨List.mem_map_of_mem hpiece, ?_⟩
      simpa [PageChange.isUnchanged] using hunchanged
  · intro h change hchange
    obtain ⟨piece, hpiece, rfl⟩ := List.mem_map.mp (List.mem_filter.mp hchange).1
    exact Bool.eq_false_iff.mp ((needsErase_eq_false_iff piece).mpr (h piece hpiece))

/-- The pages that change are those that differ from what is stored. -/
theorem filter_pageChanges (memory : Memory) (address : Nat) (bytes : Bytes) :
    (pageChanges address bytes (memory.read address bytes.length)).filter
        (fun change => !change.isUnchanged) =
      (memory.differing (Page.cut address bytes)).map fun piece =>
        ⟨piece, memory.read piece.address piece.bytes.length⟩ := by
  rw [pageChanges_read, List.filter_map]
  refine congrArg _ (List.filter_congr fun piece _ => ?_)
  exact congrArg not BEq.comm

/-! ## Runs on a responsive bench -/

/-- On a responsive bench, erasing blocks logs just their erases. -/
theorem ends_eraseBlocks_logs (h : device.engine.Serving id identity width bench)
    (hresponsive : bench.chip.Responsive)
    (hsize : (block.toNat + count) * sectorBytes ≤ bench.chip.memory.size) :
    (device.eraseBlocks block count).Ends Bench.environment
      (fun _ after => bench.Logs (eraseEvents block.toNat count) after) (fun _ _ => False)
      bench := by
  unfold eraseBlocks
  induction count with
  | zero => exact .nothing hresponsive
  | succ count ih =>
      have hstop : (block.toNat + (count + 1)) * sectorBytes =
          (block.toNat + count) * sectorBytes + sectorBytes := by
        rw [← Nat.add_assoc, Nat.succ_mul]
      have hbefore : (block.toNat + count) * sectorBytes ≤ bench.chip.memory.size := by omega
      have hlast : (UInt32.ofNat (block.toNat + count)).toNat = block.toNat + count :=
        toNat_block h (by omega) hsize
      rw [List.range_succ, Action.ends_forM_concat]
      refine ((ends_eraseBlocks h hbefore).and_run (ih hbefore)).mono ?_
        fun _ _ hnever => hnever.2
      rintro _ middle ⟨⟨haltered, -⟩, hlogged⟩
      have hlogs : bench.Logs (eraseEvents block.toNat count) middle := hlogged
      have hmiddle := haltered.memory.size
      refine (ends_eraseSector_logs (h.altered haltered) hlogs.responsive (by rw [hlast])
        (by omega)).mono ?_ fun _ _ hnever => hnever
      intro _ after hafter
      unfold eraseEvents
      rw [List.range_succ, List.map_append]
      exact hlogs.trans hafter

/-- On a responsive bench, filling pages in logs a program of each page that differs. -/
theorem ends_fillPages_logs {engine : Engine} (h : engine.Serving id identity width bench)
    (hresponsive : bench.chip.Responsive) {address : Nat}
    (hsize : address + bytes.length ≤ bench.chip.memory.size)
    (hfillable : bench.chip.memory.Fillable address bytes) :
    (fillPages engine (pageChanges address bytes
      (bench.chip.memory.read address bytes.length))).Ends Bench.environment
      (fun _ after => bench.Logs ((bench.chip.memory.differing (Page.cut address bytes)).map
        bench.chip.memory.storedEvent) after) (fun _ _ => False) bench := by
  have hpages : fillPages engine (pageChanges address bytes
      (bench.chip.memory.read address bytes.length)) =
      (bench.chip.memory.differing (Page.cut address bytes)).forM fun piece =>
        engine.write (UInt32.ofNat piece.address) piece.bytes := by
    unfold fillPages
    rw [filter_pageChanges]
    exact List.forM_map ..
  have hcut : ∀ piece ∈ bench.chip.memory.differing (Page.cut address bytes),
      piece ∈ Page.cut address bytes := fun _ hpiece => (List.mem_filter.mp hpiece).1
  rw [hpages]
  refine ends_pieces_logs (fun bench piece hpiece => ends_write_stored ?_)
    ((Page.ordered_cut ..).filter _) h hresponsive
    fun piece hpiece => hfillable.takes hsize piece (hcut piece hpiece)
  exact Page.bytes_ne_nil_of_mem_cut piece (hcut piece hpiece)

/-- On a responsive bench, a rewrite logs the erases and a program of every page. -/
theorem ends_rewriteBlocks_logs (h : device.engine.Serving id identity width bench)
    (hresponsive : bench.chip.Responsive) (hlength : bytes.length = count * sectorBytes)
    (hsize : (block.toNat + count) * sectorBytes ≤ bench.chip.memory.size) :
    (do
      device.eraseBlocks block count
      device.engine.write (UInt32.ofNat (block.toNat * sectorBytes)) bytes).Ends Bench.environment
      (fun _ after => bench.Logs (eraseEvents block.toNat count ++
        (Page.cut (block.toNat * sectorBytes) bytes).map PagePiece.freshEvent) after)
      (fun _ _ => False) bench := by
  have hstop := blocks_stop block.toNat hlength
  have haddress : (UInt32.ofNat (block.toNat * sectorBytes)).toNat = block.toNat * sectorBytes :=
    h.toNat_ofNat (by omega)
  rw [Action.ends_bind]
  refine ((ends_eraseBlocks h hsize).and_run (ends_eraseBlocks_logs h hresponsive hsize)).mono ?_
    fun _ _ hnever => hnever.2
  rintro _ cleared ⟨⟨hcleared, herased⟩, hlogged⟩
  have hlogs : bench.Logs (eraseEvents block.toNat count) cleared := hlogged
  rw [← hlength] at herased
  have hsame := hcleared.memory.size
  have htakes := (Memory.fillable_of_erased herased).takes (by omega)
  rw [← haddress] at htakes
  refine (ends_write_logs (h.altered hcleared) hlogs.responsive (by omega) htakes).mono ?_
    fun _ _ hnever => hnever
  intro _ after hafter
  rw [haddress, List.map_congr_left (Memory.storedEvent_of_erased herased)] at hafter
  exact hlogs.trans hafter

/-- The chip was read, which made no difference, and refused that. -/
structure Refused (identity : Identity) (width : BusWidth) (bench : Bench) (fault : Fault)
    (after : Bench) : Prop where
  cause : ∃ cause, bench.chip.checkRead (readCommand identity.device .quad) = .error cause ∧
    fault = .bus cause
  unchanged : bench.Unchanged width after
  events : after.chip.events = bench.chip.events

/-- A read is refused only by a chip that does not accept reads. -/
theorem Refused.not_accepts {fault : Fault} {after : Bench}
    (h : Refused identity width bench fault after) : ¬Accepts identity bench := by
  intro haccepts
  obtain ⟨cause, hcause, -⟩ := h.cause
  exact absurd (haccepts.symm.trans hcause) (by simp)

/-- The blocks were written by the route reported. -/
structure Took (block count : Nat) (bytes : Bytes) (bench : Bench) (route : WriteRoute)
    (after : Bench) : Prop where
  responsive : after.chip.Responsive
  logged : ∃ logged, after.chip.events.toList = bench.chip.events.toList ++ logged ∧
    Routed bench.chip.memory block count bytes route logged

/-- On a responsive bench, data is stored by the route reported, unless the chip refuses to be
read. -/
theorem ends_storeBlocks_routed (h : device.engine.Serving id identity width bench)
    (hresponsive : bench.chip.Responsive) (hlength : bytes.length = count * sectorBytes)
    (hsize : (block.toNat + count) * sectorBytes ≤ bench.chip.memory.size)
    (hbytes : ¬bytes.AllErased) :
    (device.storeBlocks block count bytes).Ends Bench.environment
      (fun route after => Accepts identity bench ∧
        Took block.toNat count bytes bench route after)
      (fun fault after => Refused identity width bench fault after) bench := by
  have hstop := blocks_stop block.toNat hlength
  have haddress : (UInt32.ofNat (block.toNat * sectorBytes)).toNat = block.toNat * sectorBytes :=
    h.toNat_ofNat (by omega)
  have hsome : bytes.length ≠ 0 := by
    intro hzero
    rw [List.length_eq_zero_iff.mp hzero] at hbytes
    exact hbytes fun _ hbyte => absurd hbyte List.not_mem_nil
  have hcapacity := h.size_eq
  unfold storeBlocks
  rw [blockSize_eq h]
  dsimp only
  rw [Action.ends_bind]
  refine (ends_read_responsive h.attuned hresponsive hsome (by omega)).mono ?_ ?_
  · rintro stored middle ⟨⟨hunchanged, hread⟩, haccepts, rfl⟩
    have hmiddle := h.altered (altered_of_unchanged hunchanged : bench.Altered width 0 0 middle)
    have hsame := hunchanged.chip.memory
    rw [haddress, ← hsame]
    rw [← hsame] at hsize
    have hnext {route : WriteRoute} {logged : List MemoryEvent} {after : Bench}
        (hlogs : middle.Logs logged after)
        (hrouted : Routed bench.chip.memory block.toNat count bytes route logged) :
        Accepts identity bench ∧ Took block.toNat count bytes bench route after :=
      ⟨haccepts, hlogs.responsive, logged, (hread.trans hlogs).events, hrouted⟩
    split
    · rename_i herase
      have hfillable : ¬bench.chip.memory.Fillable (block.toNat * sectorBytes) bytes := by
        rw [← hsame, ← needsNoErase_iff]
        exact fun hkeeps => Bool.false_ne_true (hkeeps.symm.trans herase)
      have hrewrite := ends_rewriteBlocks_logs hmiddle hread.responsive hlength hsize
      rw [Action.ends_bind] at hrewrite ⊢
      refine hrewrite.mono ?_ fun _ _ hnever => hnever.elim
      intro _ cleared hcleared
      rw [Action.ends_bind]
      refine hcleared.mono (fun _ after hafter => ?_) fun _ _ hnever => hnever.elim
      rw [cut_blocks _ hlength] at hafter
      exact hnext hafter (.rewritten hbytes hfillable)
    · rename_i hkeeps
      have hfillable := (needsNoErase_iff middle.chip.memory (block.toNat * sectorBytes) bytes).mp
        (Bool.eq_false_iff.mpr hkeeps)
      rw [Action.ends_bind]
      refine (ends_fillPages_logs hmiddle hread.responsive (by omega) hfillable).mono ?_
        fun _ _ hnever => hnever.elim
      intro _ after hafter
      rw [cut_blocks _ hlength, hsame] at hafter
      rw [hsame] at hfillable
      have hrouted : Routed bench.chip.memory block.toNat count bytes _ _ :=
        .filled hbytes hfillable
      rw [filter_pageChanges, cut_blocks _ hlength, List.length_map, hsame]
      exact hnext hafter hrouted
  · rintro fault middle ⟨⟨hunchanged, hread⟩, hcause⟩
    exact ⟨hcause, hunchanged, hread.events_eq⟩

/-- That all bytes are erased is found out byte by byte. -/
theorem allErased_iff : bytes.AllErased ↔ (bytes.all fun byte => byte == Bytes.erased) = true := by
  rw [List.all_eq_true]
  exact forall₂_congr fun _ _ => beq_iff_eq.symm

/-- Blocks of the device and data of their length pass the checks. -/
theorem writeBlocks_eq (h : device.engine.Serving id identity width bench)
    (hrange : block.toNat + count ≤ device.blockCount)
    (hlength : bytes.length = count * device.blockSize) :
    device.writeBlocks block count bytes =
      if count = 0 then pure (.filled 0)
      else if bytes.AllErased then (do
        device.eraseBlocks block count
        return .erased)
      else device.storeBlocks block count bytes := by
  have hcheck := checkBlocks_eq_ok_iff.mpr hrange
  have hsize := checkBlocks_ok h hcheck
  have hlimit : addressable 24 < lengthLimit := by decide
  have hblocks : device.blocksLength count = .ok (count * device.blockSize) := by
    have hcount := Nat.mul_le_mul_right sectorBytes (Nat.le_add_left count block.toNat)
    have hbound := h.size_le
    unfold blocksLength
    rw [blockSize_eq h, if_neg (Nat.ne_of_gt sectorBytes_pos), if_pos (by omega)]
  unfold writeBlocks
  rw [hblocks]
  show (if _ then _ else _) = _
  rw [if_neg (not_not_intro hlength), hcheck]
  show (if _ then _ else _) = _
  simp only [← allErased_iff]

/-- On a responsive bench, a block write stores its data by the route it reports, unless it has to
read and the chip refuses that. -/
theorem ends_writeBlocks_routed (h : device.engine.Serving id identity width bench)
    (hresponsive : bench.chip.Responsive) (hrange : block.toNat + count ≤ device.blockCount)
    (hlength : bytes.length = count * device.blockSize) :
    (device.writeBlocks block count bytes).Ends Bench.environment
      (fun route after => (bytes.AllErased ∨ Accepts identity bench) ∧
        Took block.toNat count bytes bench route after)
      (fun fault after => ¬bytes.AllErased ∧ Refused identity width bench fault after) bench := by
  have hsize := checkBlocks_ok h (checkBlocks_eq_ok_iff.mpr hrange)
  rw [writeBlocks_eq h hrange hlength]
  rw [blockSize_eq h] at hlength
  split
  · rename_i hcount
    rw [hcount, Nat.zero_mul] at hlength
    have hempty : bytes.AllErased := by
      rw [List.length_eq_zero_iff.mp hlength]
      exact fun _ hbyte => absurd hbyte List.not_mem_nil
    exact ⟨.inl hempty, hresponsive, [], (List.append_nil _).symm, .nothing hcount⟩
  · rename_i hcount
    split
    · rename_i herased
      rw [Action.ends_bind]
      refine (ends_eraseBlocks_logs h hresponsive hsize).mono ?_ fun _ _ hnever => hnever.elim
      exact fun _ after hafter =>
        ⟨.inl herased, hafter.responsive, _, hafter.events, .erased hcount herased⟩
    · rename_i hbytes
      refine (ends_storeBlocks_routed h hresponsive hlength hsize hbytes).mono ?_ ?_
      · exact fun _ after hafter => ⟨.inr hafter.1, hafter.2⟩
      · exact fun _ after hafter => ⟨hbytes, hafter⟩

/-- A block write that is repeated finds its data stored. -/
theorem ends_writeBlocks_stored (h : device.engine.Serving id identity width bench)
    (hresponsive : bench.chip.Responsive) (hrange : block.toNat + count ≤ device.blockCount)
    (hlength : bytes.length = count * device.blockSize) (hbytes : ¬bytes.AllErased)
    (haccepts : Accepts identity bench)
    (hstored : bench.chip.memory.read (block.toNat * sectorBytes) bytes.length = bytes) :
    (device.writeBlocks block count bytes).Ends Bench.environment
      (fun route after => route = .filled 0 ∧ after.chip.events = bench.chip.events)
      (fun _ _ => False) bench := by
  refine (ends_writeBlocks_routed h hresponsive hrange hlength).mono ?_ ?_
  · rintro route after ⟨-, -, logged, hevents, hrouted⟩
    have hcounted := hlength
    rw [blockSize_eq h] at hcounted
    obtain ⟨hroute, rfl⟩ := hrouted.of_stored hcounted hbytes hstored
    rw [List.append_nil] at hevents
    exact ⟨hroute, Array.toList_inj.mp hevents⟩
  · exact fun _ _ hafter => hafter.2.not_accepts haccepts

/-- On a responsive bench that serves the device, a block write within the device stores its data
and changes nothing else, by the route that the data and the stored bytes call for: it reports the
route, and the chip logs what belongs to it and no program that wanted an erase. Repeated with data
that is not all erased, it finds all of it stored. The one thing in its way is that the chip refuses
to be read, which it has to be unless the data is all erased; then nothing is changed or logged. -/
theorem writeBlocks_by_route (h : device.engine.Serving id identity width bench)
    (hresponsive : bench.chip.Responsive) (hrange : block.toNat + count ≤ device.blockCount)
    (hlength : bytes.length = count * device.blockSize) :
    (device.writeBlocks block count bytes).Ends Bench.environment
      (fun route after => (bytes.AllErased ∨ Accepts identity bench) ∧
        Stores width block.toNat count bytes bench after ∧
        (∃ logged, after.chip.events.toList = bench.chip.events.toList ++ logged ∧
          Routed bench.chip.memory block.toNat count bytes route logged ∧
          ∀ event ∈ logged, event.needsErase = false) ∧
        (¬bytes.AllErased → (device.writeBlocks block count bytes).Ends Bench.environment
          (fun again last => again = .filled 0 ∧ last.chip.events = after.chip.events)
          (fun _ _ => False) after))
      (fun fault after => ¬bytes.AllErased ∧ Refused identity width bench fault after) bench := by
  have hcounted := hlength
  rw [blockSize_eq h] at hcounted
  refine ((ends_writeBlocks_routed h hresponsive hrange hlength).and_run
    (ends_writeBlocks h)).mono ?_ fun fault after hafter => hafter.1
  rintro route after ⟨⟨hserves, hafter, logged, hevents, hrouted⟩, hended⟩
  have hstores : Stores width block.toNat count bytes bench after := hended
  have haltered := hstores.altered
  refine ⟨hserves, hstores, ⟨logged, hevents, hrouted, hrouted.needsErase_eq⟩, fun hbytes => ?_⟩
  have haccepts : Accepts identity after := by
    unfold Accepts
    rw [Chip.checkRead_of_mode haltered.mode]
    exact hserves.resolve_left hbytes
  have hread := hstores.read_eq
  rw [← hcounted] at hread
  exact ends_writeBlocks_stored (h.altered haltered) hafter hrange hlength hbytes haccepts hread

/-- A block of zeros, written twice on a new chip in quad mode. -/
theorem writeBlocks_by_route_of_new_chip :
    let identity : Identity :=
      ⟨Catalog.winbond, ⟨0x4015, "W25Q16DV", 4096, false, 8, some .quad⟩⟩
    let device : BlockDevice := ⟨⟨.standard, some identity⟩, true⟩
    let chip := { Chip.fresh ⟨0xEF, 0x4015⟩ with
      quad := true, registers := { Registers.afterReset ⟨0x02⟩ with readParameters := ⟨0x30⟩ } }
    let bench := { Bench.ofChip chip with bus := some ⟨.quad, false⟩ }
    let bytes : Bytes := List.replicate 0x1000 0
    let ended := (device.writeBlocks 1 1 bytes).run.run Bench.environment bench
    (∃ pages, ended.1 = .ok (.filled pages)) ∧
      ended.2.chip.memory.read 0x1000 0x1000 = bytes ∧
      ((device.writeBlocks 1 1 bytes).run.run Bench.environment ended.2).1 = .ok (.filled 0) := by
  intro identity device chip bench bytes ended
  have hserving : device.engine.Serving ⟨0xEF, 0x4015⟩ identity .quad bench :=
    ⟨⟨rfl, ⟨_, rfl, rfl⟩, ⟨rfl, rfl⟩⟩, rfl, rfl⟩
  have haccepts : Accepts identity bench :=
    Chip.checkRead_of_expects ⟨fun _ => by decide, by decide⟩
  have hlength : bytes.length = 1 * device.blockSize := List.length_replicate
  have hbytes : ¬bytes.AllErased := fun h =>
    absurd (h 0 (List.mem_replicate.mpr ⟨by decide, rfl⟩)) (by decide)
  have hfillable : bench.chip.memory.Fillable (1 * sectorBytes) bytes :=
    fun _ _ _ => Memory.byteAt_blank ..
  have hrange : (1 : UInt32).toNat + 1 ≤ device.blockCount := by decide
  -- Neither the data nor the run is to be unfolded.
  clear_value bytes
  have h := writeBlocks_by_route hserving ⟨rfl, rfl⟩ hrange hlength
  change settle _ _ ended.1 ended.2 at h
  clear_value ended
  obtain ⟨fault | route, after⟩ := ended
  · obtain ⟨-, ⟨cause, hcause, -⟩, -⟩ := h
    exact absurd (haccepts.symm.trans hcause) (by simp)
  · obtain ⟨-, hstores, ⟨logged, -, hrouted, -⟩, hagain⟩ := h
    have hroute : ∃ pages, route = .filled pages := by
      cases hrouted with
      | filled => exact ⟨_, rfl⟩
      | nothing hcount => exact absurd hcount (by decide)
      | erased _ herased => exact absurd herased hbytes
      | rewritten _ hneeds => exact absurd hfillable hneeds
    obtain ⟨pages, rfl⟩ := hroute
    refine ⟨⟨pages, rfl⟩, hstores.read_eq, ?_⟩
    have hstored := hagain hbytes
    rw [Action.ends_iff] at hstored
    generalize (device.writeBlocks 1 1 bytes).run.run Bench.environment after = last
      at hstored ⊢
    obtain ⟨fault | again, last⟩ := last
    · exact hstored.elim
    · exact congrArg Except.ok hstored.1

/-- After a reset an open device still hears its engine, and refuses to be read. -/
theorem writeBlocks_refused_after_reset :
    let opened := (closed (fresh .standard)).bringUp.run Bench.environment
      (Bench.ofChip (Chip.fresh ⟨0xEF, 0x4015⟩))
    let device := opened.1.2
    let restarted := (device.perform (.engine .reset)).run Bench.environment opened.2
    let bench := restarted.2
    let bytes : Bytes := List.replicate 0x1000 0
    device.isOpen = true ∧ restarted.1.result.isOk = true ∧ bench.bus = some ⟨.single, false⟩ ∧
      bench.chip.asleep = false ∧ bench.chip.listens .single = true ∧ bench.chip.Responsive ∧
      (0 : UInt32).toNat + 1 ≤ device.blockCount ∧ bytes.length = 1 * device.blockSize ∧
      ((device.writeBlocks 0 1 bytes).run.run Bench.environment bench).1.isOk = false := by
  intro opened device restarted bench bytes
  refine ⟨?_, ?_, ?_, ?_, ?_, ⟨?_, ?_⟩, ?_, ?_, ?_⟩ <;> decide +kernel

end BlockDevice

end NorFlash
