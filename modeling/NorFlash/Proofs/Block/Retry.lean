import NorFlash.Proofs.Block.Routes
import NorFlash.Proofs.Block.Service
import NorFlash.Proofs.Chip.Overlay
import NorFlash.Proofs.Engine.Edits

/-!
# Block writes that are interrupted and repeated

A failure or a lost completion can stop a block write at any of its calls, before or after the chip
did what it was told. `Edit.Rewrites` lists the changes that a block write may ask for, and
`Edit.Fills` those of a write that needs no erase. What these keep is left behind wherever the write
stops: other blocks are as they were, and data that needed no erase is there in part
(`Memory.Filling`), so that it still needs none. `writeBlocks_retried` is what follows for the same
write made again.
-/

namespace NorFlash

/-- The log was continued, with no erase. -/
def ErasesNone (before after : Array MemoryEvent) : Prop :=
  ∃ logged, after.toList = before.toList ++ logged ∧ ∀ event ∈ logged, event.isErase = false

/-- Where nothing is logged, nothing is erased. -/
theorem ErasesNone.refl (events : Array MemoryEvent) : ErasesNone events events :=
  ⟨[], (List.append_nil _).symm, fun _ hevent => absurd hevent List.not_mem_nil⟩

/-- An event that is no erase adds none to the log. -/
theorem ErasesNone.push {before after : Array MemoryEvent} {event : MemoryEvent}
    (h : ErasesNone before after) (hevent : event.isErase = false) :
    ErasesNone before (after.push event) := by
  obtain ⟨logged, hlogged, hnone⟩ := h
  refine ⟨logged ++ [event], ?_, fun other hother => ?_⟩
  · rw [Array.toList_push, hlogged, List.append_assoc]
  · rcases List.mem_append.mp hother with hbefore | hlast
    · exact hnone other hbefore
    · rwa [List.mem_singleton.mp hlast]

/-- The address of a piece is not too large if the data ends within the longest memory. -/
theorem Page.toNat_of_mem_cut {start : Nat} {bytes : Bytes} {piece : PagePiece}
    (hpiece : piece ∈ cut start bytes) (hbound : start + bytes.length ≤ addressable 24) :
    (UInt32.ofNat piece.address).toNat = piece.address := by
  have hlast := (within_of_mem_cut piece hpiece).last
  exact Catalog.toNat_ofNat_of_le (by omega)

namespace Memory

variable {start : Nat} {bytes : Bytes} {before memory : Memory} {piece : PagePiece}

/-- Data is on its way into the memory: each of its bytes is there, or what was there before. -/
structure Filling (start : Nat) (bytes : Bytes) (before memory : Memory) : Prop extends
    Within start (start + bytes.length) before memory where
  stored : ∀ offset (h : offset < bytes.length),
    memory.byteAt (start + offset) = before.byteAt (start + offset) ∨
      memory.byteAt (start + offset) = bytes[offset]

/-- A memory is on the way to being filled before anything is stored. -/
theorem Filling.refl (start : Nat) (bytes : Bytes) (memory : Memory) :
    Filling start bytes memory memory :=
  ⟨.refl .., fun _ _ => .inl rfl⟩

/-- Data that needed no erase still needs none. -/
theorem Filling.fillable (h : Filling start bytes before memory)
    (hfillable : before.Fillable start bytes) : memory.Fillable start bytes := by
  intro offset hoffset hdiffers
  rcases h.stored offset hoffset with hbefore | hstored
  · rw [hbefore] at hdiffers ⊢
    exact hfillable offset hoffset hdiffers
  · exact absurd hstored hdiffers

/-- A piece of the data lies within one page, so it is programmed where it belongs. -/
theorem masked_of_mem_cut (hpiece : piece ∈ Page.cut start bytes)
    (hsize : start + bytes.length ≤ memory.size) (hbound : memory.size ≤ addressable 24) :
    Masked piece.address piece.bytes memory
      ((Edit.program (UInt32.ofNat piece.address) piece.bytes).apply memory) := by
  have hwithin := Page.within_of_mem_cut piece hpiece
  show Masked _ _ _ (memory.program (UInt32.ofNat piece.address).toNat piece.bytes).memory
  rw [Page.toNat_of_mem_cut hpiece (Nat.le_trans hsize hbound)]
  exact masked_program memory hwithin.page (Nat.le_trans hwithin.last hsize)

/-- Where a byte of the data replaces one that may be erased, either is stored afterwards. -/
theorem Filling.program (h : Filling start bytes before memory)
    (hfillable : before.Fillable start bytes) (hpiece : piece ∈ Page.cut start bytes)
    (hsize : start + bytes.length ≤ before.size) (hbound : before.size ≤ addressable 24) :
    Filling start bytes before
      ((Edit.program (UInt32.ofNat piece.address) piece.bytes).apply memory) := by
  have hsame := h.toWithin.size
  have hmasked := masked_of_mem_cut hpiece (hsame.symm ▸ hsize) (hsame.symm ▸ hbound)
  have hwithin := Page.within_of_mem_cut piece hpiece
  refine ⟨h.toWithin.trans (hmasked.toWithin.mono hwithin.first hwithin.last), ?_⟩
  intro offset hoffset
  have hwhole : Bytes.maskAt start bytes (start + offset) = bytes[offset] := by
    simp [Bytes.maskAt, hoffset]
  rw [hmasked.byteAt_mask (by omega)]
  rcases Page.maskAt_of_mem_cut (start + offset) piece hpiece with hnone | hmask
  · rw [hnone, Bytes.and_erased]
    exact h.stored offset hoffset
  · rw [hmask, hwhole]
    refine .inr ?_
    rcases h.stored offset hoffset with hbefore | hstored
    · rw [hbefore]
      by_cases hbyte : before.byteAt (start + offset) = bytes[offset]
      · rw [hbyte, UInt8.and_self]
      · rw [hfillable offset hoffset hbyte, Bytes.erased_and]
    · rw [hstored, UInt8.and_self]

end Memory

namespace Edit

/-- The edit programs a piece of the data. -/
def Fills (start : Nat) (bytes : Bytes) (edit : Edit) : Prop :=
  ∃ piece ∈ Page.cut start bytes, edit = .program (UInt32.ofNat piece.address) piece.bytes

/-- The edit programs a piece of the data, or it erases one of the blocks. -/
def Rewrites (block count : Nat) (bytes : Bytes) (edit : Edit) : Prop :=
  edit.Fills (block * sectorBytes) bytes ∨
    ∃ offset < count, edit = .erase (UInt32.ofNat ((block + offset) * sectorBytes))

variable {start block count : Nat} {bytes : Bytes} {before : Memory} {earlier : Array MemoryEvent}

/-- Data that needs no erase is filled in by its pieces, in whatever order they come. -/
theorem keep_filling (hfillable : before.Fillable start bytes)
    (hsize : start + bytes.length ≤ before.size) (hbound : before.size ≤ addressable 24) :
    Keep (Fills start bytes) fun memory events =>
      Memory.Filling start bytes before memory ∧ ErasesNone earlier events := by
  rintro _ memory events ⟨piece, hpiece, rfl⟩ ⟨hfilling, hnone⟩
  exact ⟨hfilling.program hfillable hpiece hsize hbound, hnone.push rfl⟩

/-- What is done to the blocks changes nothing outside. -/
theorem keep_within (hlength : bytes.length = count * sectorBytes)
    (hsize : (block + count) * sectorBytes ≤ before.size) (hbound : before.size ≤ addressable 24) :
    Keep (Rewrites block count bytes) fun memory _ =>
      Memory.Within (block * sectorBytes) ((block + count) * sectorBytes) before memory := by
  have hstop := BlockDevice.blocks_stop block hlength
  rintro _ memory events (⟨piece, hpiece, rfl⟩ | ⟨offset, hoffset, rfl⟩) hwithin
  · have hsame := hwithin.size
    have hinside := Page.within_of_mem_cut piece hpiece
    have hmasked := @Memory.masked_of_mem_cut _ _ memory _ hpiece (by omega) (by omega)
    exact hwithin.trans (hmasked.toWithin.mono hinside.first (hstop ▸ hinside.last))
  · have hsame := hwithin.size
    have hpos := sectorBytes_pos
    have hfirst : block * sectorBytes ≤ (block + offset) * sectorBytes :=
      Nat.mul_le_mul_right _ (Nat.le_add_right ..)
    have hlast : (block + offset) * sectorBytes + sectorBytes ≤ (block + count) * sectorBytes := by
      rw [← Nat.succ_mul]
      exact Nat.mul_le_mul_right _ (by omega)
    have haddress : (UInt32.ofNat ((block + offset) * sectorBytes)).toNat =
        (block + offset) * sectorBytes := Catalog.toNat_ofNat_of_le (by omega)
    have herased := Memory.within_eraseUnit memory
      (show addressable EraseUnit.sector.bits ∣ (block + offset) * sectorBytes from
        Nat.dvd_mul_left ..) (by omega)
    refine hwithin.trans (Memory.Within.mono ?_ hfirst hlast)
    show Memory.Within _ _ memory (memory.eraseUnit _ (UInt32.ofNat _).toNat)
    rw [haddress]
    exact herased

end Edit

namespace Engine

variable {engine : Engine} {start : Nat} {bytes : Bytes}

/-- A write of data asks for its pieces. -/
theorem edits_write_fills (hstart : (UInt32.ofNat start).toNat = start) :
    (engine.write (UInt32.ofNat start) bytes).Edits (Edit.Fills start bytes) :=
  edits_write fun piece hpiece => ⟨piece, hstart ▸ hpiece, rfl⟩

/-- A write of a piece asks for that piece. -/
theorem edits_write_piece {piece : PagePiece} (hpiece : piece ∈ Page.cut start bytes)
    (hbound : start + bytes.length ≤ addressable 24) :
    (engine.write (UInt32.ofNat piece.address) piece.bytes).Edits (Edit.Fills start bytes) := by
  have hpage := (Page.within_of_mem_cut piece hpiece).page
  have hbytes := Page.bytes_ne_nil_of_mem_cut piece hpiece
  refine edits_write fun only honly => ?_
  rw [Page.toNat_of_mem_cut hpiece hbound, Page.cut_of_page hbytes hpage] at honly
  exact ⟨piece, hpiece, by rw [List.mem_singleton.mp honly]⟩

end Engine

namespace BlockDevice

open Engine

variable {bench : Bench} {device : BlockDevice} {identity : Identity} {id : JedecId}
  {width : BusWidth} {block : UInt32} {count : Nat} {bytes : Bytes}
  {settings : Nat → Chip → FailurePlan × CompletionMode}

/-- The pages that a write looks at are pieces of its data. -/
theorem new_mem_cut {address : Nat} {new old : Bytes} {change : PageChange}
    (h : change ∈ pageChanges address new old) : change.new ∈ Page.cut address new := by
  unfold pageChanges at h
  obtain ⟨place, hplace, rfl⟩ := List.mem_iff_getElem.mp h
  rw [List.getElem_zipWith]
  exact List.getElem_mem _

/-- Filling pages asks for pieces of the data, whatever was found to be stored. -/
theorem edits_fillPages {engine : Engine} {start : Nat} (stored : Bytes)
    (hbound : start + bytes.length ≤ addressable 24) :
    (fillPages engine (pageChanges start bytes stored)).Edits (Edit.Fills start bytes) :=
  Action.orderly_forM fun _ hchange =>
    edits_write_piece (new_mem_cut (List.mem_filter.mp hchange).1) hbound

/-- Erasing blocks makes only the changes that a rewrite of them may make. -/
theorem edits_eraseBlocks (h : device.engine.Serving id identity width bench)
    (hsize : (block.toNat + count) * sectorBytes ≤ bench.chip.memory.size) :
    (device.eraseBlocks block count).Edits (Edit.Rewrites block.toNat count bytes) := by
  refine Action.orderly_forM fun offset hoffset => edits_eraseSector fun address haddress => ?_
  have hlt := List.mem_range.mp hoffset
  have hbefore : (block.toNat + offset) * sectorBytes ≤ (block.toNat + count) * sectorBytes :=
    Nat.mul_le_mul_right _ (by omega)
  rw [h.sectorAddress_eq (by rw [toNat_block h (by omega) hsize])
    (Nat.le_trans hbefore hsize)] at haddress
  exact .inr ⟨offset, hlt, by rw [Except.ok.inj haddress]⟩

/-- Storing data in blocks makes only the changes that a rewrite of them may make. -/
theorem edits_storeBlocks (h : device.engine.Serving id identity width bench)
    (hlength : bytes.length = count * sectorBytes)
    (hsize : (block.toNat + count) * sectorBytes ≤ bench.chip.memory.size) :
    (device.storeBlocks block count bytes).Edits (Edit.Rewrites block.toNat count bytes) := by
  have hstop := blocks_stop block.toNat hlength
  have hstart : (UInt32.ofNat (block.toNat * sectorBytes)).toNat = block.toNat * sectorBytes :=
    h.toNat_ofNat (by omega)
  have hbound := h.size_le
  have hmore : ∀ edit : Edit, edit.Fills (block.toNat * sectorBytes) bytes →
      edit.Rewrites block.toNat count bytes := fun _ => .inl
  unfold storeBlocks
  rw [blockSize_eq h]
  dsimp only
  refine (edits_read _ _).bind fun stored => ?_
  rw [hstart]
  split
  · exact (edits_eraseBlocks h hsize).bind fun _ =>
      ((edits_write_fills hstart).mono hmore).bind fun _ => Action.orderly_pure _
  · exact ((edits_fillPages stored (by omega)).mono hmore).bind fun _ => Action.orderly_pure _

/-- Whatever it is answered, a block write asks for no other changes than to erase its blocks and to
program its data. -/
theorem edits_writeBlocks (h : device.engine.Serving id identity width bench)
    (hrange : block.toNat + count ≤ device.blockCount)
    (hlength : bytes.length = count * device.blockSize) :
    (device.writeBlocks block count bytes).Edits (Edit.Rewrites block.toNat count bytes) := by
  have hsize := checkBlocks_ok h (checkBlocks_eq_ok_iff.mpr hrange)
  rw [writeBlocks_eq h hrange hlength]
  rw [blockSize_eq h] at hlength
  split
  · exact Action.orderly_pure _
  · split
    · exact (edits_eraseBlocks h hsize).bind fun _ => Action.orderly_pure _
    · exact edits_storeBlocks h hlength hsize

/-! ## What is left behind -/

/-- The data is on its way into the memory, and nothing was erased for it. -/
structure Filled (start : Nat) (bytes : Bytes) (bench after : Bench) : Prop where
  filling : Memory.Filling start bytes bench.chip.memory after.chip.memory
  erasesNone : ErasesNone bench.chip.events after.chip.events

/-- A chip that was not touched is on the way to being filled. -/
theorem Filled.of_untouched {start : Nat} {after : Bench}
    (h : Chip.Untouched bench.chip after.chip) : Filled start bytes bench after :=
  ⟨h.1 ▸ .refl .., h.2 ▸ .refl _⟩

/-- Wherever a write that needs no erase stops, nothing was erased and no byte is lost. -/
theorem ends_storeBlocks_filled (h : device.engine.Serving id identity width bench)
    (hlength : bytes.length = count * sectorBytes)
    (hsize : (block.toNat + count) * sectorBytes ≤ bench.chip.memory.size)
    (hfillable : bench.chip.memory.Fillable (block.toNat * sectorBytes) bytes) (started : Nat) :
    (device.storeBlocks block count bytes).Ends (Bench.upsetting settings)
      (fun _ after => Filled (block.toNat * sectorBytes) bytes bench after.1)
      (fun _ after => Filled (block.toNat * sectorBytes) bytes bench after.1)
      (bench, started) := by
  have hstop := blocks_stop block.toNat hlength
  have hstart : (UInt32.ofNat (block.toNat * sectorBytes)).toNat = block.toNat * sectorBytes :=
    h.toNat_ofNat (by omega)
  have hbound := h.size_le
  unfold storeBlocks
  rw [blockSize_eq h]
  dsimp only
  rw [Action.ends_bind]
  refine (ends_read_upsetting h.attuned _ _ started).mono ?_ ?_
  · rintro stored ⟨middle, passed⟩ ⟨rfl, huntouched, hfree⟩
    have hneeds := (needsNoErase_iff bench.chip.memory (block.toNat * sectorBytes) bytes).mpr
      hfillable
    have hmiddle : Filled (block.toNat * sectorBytes) bytes bench middle :=
      .of_untouched huntouched
    rw [hstart]
    split
    · rename_i herase
      exact absurd (hneeds.symm.trans herase) Bool.false_ne_true
    · rw [Action.ends_bind]
      have hkeep := @Edit.keep_filling (block.toNat * sectorBytes) bytes bench.chip.memory
        bench.chip.events hfillable (by omega) hbound
      refine (Action.ends_run_iff.mpr ((edits_fillPages _ (by omega)).edits_upsetting hkeep hfree
        ⟨hmiddle.filling, hmiddle.erasesNone⟩ passed)).mono ?_ ?_
      · exact fun _ after hafter => ⟨hafter.1.1, hafter.1.2⟩
      · exact fun _ after hafter => ⟨hafter.1.1, hafter.1.2⟩
  · exact fun _ after hafter => .of_untouched hafter.1

/-- What a block write leaves behind, wherever it stops. -/
structure LeftBehind (width : BusWidth) (block count : Nat) (bytes : Bytes)
    (bench after : Bench) : Prop where
  altered : bench.Altered width (block * sectorBytes) ((block + count) * sectorBytes) after
  filled : ¬bytes.AllErased → bench.chip.memory.Fillable (block * sectorBytes) bytes →
    Filled (block * sectorBytes) bytes bench after

/-- However failures come and go, a block write alters nothing but its blocks. -/
theorem ends_writeBlocks_altered (h : device.engine.Serving id identity width bench)
    (hrange : block.toNat + count ≤ device.blockCount)
    (hlength : bytes.length = count * device.blockSize) (started : Nat) :
    (device.writeBlocks block count bytes).run.Ends (Bench.upsetting settings)
      (fun _ after => bench.Altered width (block.toNat * sectorBytes)
        ((block.toNat + count) * sectorBytes) after.1) (bench, started) := by
  have hsize := checkBlocks_ok h (checkBlocks_eq_ok_iff.mpr hrange)
  have hedits := edits_writeBlocks h hrange hlength
  have hfree : bench.Free (· = width) := h.attuned.bus
  obtain ⟨bus, hbus, -⟩ := h.attuned.bus
  rw [blockSize_eq h] at hlength
  refine (((device.orderly_writeBlocks block count bytes).mode_upsetting (by decide)
    h.attuned.hears.1 hfree started).and (hedits.edits_upsetting
      (Edit.keep_within hlength hsize h.size_le) ⟨bus, hbus, trivial⟩ (.refl ..) started)).mono ?_
  exact fun _ _ hafter => ⟨hafter.1.2, hafter.1.1, hafter.2.1⟩

/-- However failures come and go, a block write that needs no erase fills in what differs and
nothing else. -/
theorem ends_writeBlocks_filled (h : device.engine.Serving id identity width bench)
    (hrange : block.toNat + count ≤ device.blockCount)
    (hlength : bytes.length = count * device.blockSize) (hbytes : ¬bytes.AllErased)
    (hfillable : bench.chip.memory.Fillable (block.toNat * sectorBytes) bytes) (started : Nat) :
    (device.writeBlocks block count bytes).run.Ends (Bench.upsetting settings)
      (fun _ after => Filled (block.toNat * sectorBytes) bytes bench after.1) (bench, started) := by
  have hsize := checkBlocks_ok h (checkBlocks_eq_ok_iff.mpr hrange)
  rw [writeBlocks_eq h hrange hlength]
  rw [blockSize_eq h] at hlength
  split
  · exact .of_untouched ⟨rfl, rfl⟩
  · exact Action.ends_run_iff.mp (ends_storeBlocks_filled h hlength hsize hfillable started)

/-- Wherever a block write stops, other blocks are as they were, and if it needed no erase nothing
was erased and each byte of its blocks is there in its old or its new state. -/
theorem ends_writeBlocks_left (h : device.engine.Serving id identity width bench)
    (hrange : block.toNat + count ≤ device.blockCount)
    (hlength : bytes.length = count * device.blockSize) (started : Nat) :
    (device.writeBlocks block count bytes).run.Ends (Bench.upsetting settings)
      (fun _ after => LeftBehind width block.toNat count bytes bench after.1) (bench, started) :=
  ⟨ends_writeBlocks_altered h hrange hlength started, fun hbytes hfillable =>
    ends_writeBlocks_filled h hrange hlength hbytes hfillable started⟩

/-! ## The same write again -/

/-- A write that needs no erase logs none. -/
theorem Routed.erasesNone {memory : Memory} {first : Nat} {route : WriteRoute}
    {logged : List MemoryEvent} (h : Routed memory first count bytes route logged)
    (hbytes : ¬bytes.AllErased) (hfillable : memory.Fillable (first * sectorBytes) bytes) :
    ∀ event ∈ logged, event.isErase = false := by
  cases h with
  | nothing => exact fun _ hevent => absurd hevent List.not_mem_nil
  | erased _ herased => exact absurd herased hbytes
  | filled =>
      intro event hevent
      obtain ⟨page, -, rfl⟩ := List.mem_map.mp hevent
      rfl
  | rewritten _ hneeds => exact absurd hfillable hneeds

/-- The bench serves the device as before once nothing fails any more. -/
theorem serving_calmed {after : Bench} {start stop : Nat}
    (h : device.engine.Serving id identity width bench)
    (haltered : bench.Altered width start stop after) :
    device.engine.Serving id identity width after.calmed :=
  have hcalmed : after.Altered width 0 0 after.calmed := ⟨haltered.free, rfl, .refl ..⟩
  (h.altered haltered).altered hcalmed

/-- What comes of a block write that is made again: it stores its data, without an erase if it
needed none at first, or the chip refuses to be read. -/
theorem ends_writeBlocks_again {after : Bench} (h : device.engine.Serving id identity width bench)
    (hrange : block.toNat + count ≤ device.blockCount)
    (hlength : bytes.length = count * device.blockSize)
    (hleft : LeftBehind width block.toNat count bytes bench after) :
    (device.writeBlocks block count bytes).Ends Bench.environment
      (fun _ last => (bytes.AllErased ∨ Accepts identity bench) ∧
        Stores width block.toNat count bytes after.calmed last ∧
        (¬bytes.AllErased → bench.chip.memory.Fillable (block.toNat * sectorBytes) bytes →
          ErasesNone after.chip.events last.chip.events))
      (fun fault last => ¬bytes.AllErased ∧ Refused identity width after.calmed fault last)
      after.calmed := by
  have hserving := serving_calmed h hleft.altered
  have haccepts : Accepts identity after.calmed ↔ Accepts identity bench := by
    unfold Accepts
    rw [Chip.checkRead_of_mode (show after.calmed.chip.mode = _ from hleft.altered.mode)]
  refine ((ends_writeBlocks_routed hserving ⟨rfl, rfl⟩ hrange hlength).and_run
    (ends_writeBlocks hserving)).mono ?_ fun _ _ hlast => hlast.1
  rintro route last ⟨⟨hserves, htook⟩, hstores⟩
  refine ⟨hserves.imp_right haccepts.mp, hstores, fun hbytes hfillable => ?_⟩
  obtain ⟨logged, hlogged, hrouted⟩ := htook.logged
  have hstill := (hleft.filled hbytes hfillable).filling.fillable hfillable
  exact ⟨logged, hlogged, hrouted.erasesNone hbytes hstill⟩

/-- On a bench that serves the device, let failures and lost completions come and go as they will
during a block write. Wherever it stops, every byte outside its blocks is as it was, and if the
write needed no erase then nothing was erased and each byte of the blocks is the old one or the new
one. The same write, made again with nothing failing, stores exactly its data, and without an erase
if the first one needed none. The one thing in its way is that the chip refuses to be read, which it
has to be unless the data is all erased. -/
theorem writeBlocks_retried (h : device.engine.Serving id identity width bench)
    (hrange : block.toNat + count ≤ device.blockCount)
    (hlength : bytes.length = count * device.blockSize)
    (settings : Nat → Chip → FailurePlan × CompletionMode) :
    (device.writeBlocks block count bytes).run.Ends (Bench.upsetting settings)
      (fun _ after =>
        LeftBehind width block.toNat count bytes bench after.1 ∧
        (device.writeBlocks block count bytes).Ends Bench.environment
          (fun _ last => (bytes.AllErased ∨ Accepts identity bench) ∧
            Stores width block.toNat count bytes after.1.calmed last ∧
            (¬bytes.AllErased → bench.chip.memory.Fillable (block.toNat * sectorBytes) bytes →
              ErasesNone after.1.chip.events last.chip.events))
          (fun fault last => ¬bytes.AllErased ∧
            Refused identity width after.1.calmed fault last) after.1.calmed)
      (bench, 0) :=
  (ends_writeBlocks_left h hrange hlength 0).mono fun _ _ hleft =>
    ⟨hleft, ends_writeBlocks_again h hrange hlength hleft⟩

/-- A block of zeros, while no completion is reported, and then again. -/
theorem writeBlocks_retried_of_lost_completions :
    let identity : Identity :=
      ⟨Catalog.winbond, ⟨0x4015, "W25Q16DV", 4096, false, 8, some .quad⟩⟩
    let device : BlockDevice := ⟨⟨.standard, some identity⟩, true⟩
    let chip := { Chip.fresh ⟨0xEF, 0x4015⟩ with
      quad := true, registers := { Registers.afterReset ⟨0x02⟩ with readParameters := ⟨0x30⟩ } }
    let bench := { Bench.ofChip chip with bus := some ⟨.quad, false⟩ }
    let settings (_ : Nat) (_ : Chip) : FailurePlan × CompletionMode := (.none, .never)
    let bytes : Bytes := List.replicate 0x1000 0
    let ended := (device.writeBlocks 1 1 bytes).run.run (Bench.upsetting settings) (bench, 0)
    let again := (device.writeBlocks 1 1 bytes).run.run Bench.environment ended.2.1.calmed
    ended.1.isOk = false ∧ Filled (1 * sectorBytes) bytes bench ended.2.1 ∧
      again.1.isOk = true ∧ again.2.chip.memory.read 0x1000 0x1000 = bytes ∧
      ErasesNone ended.2.1.chip.events again.2.chip.events := by
  intro identity device chip bench settings bytes ended again
  have hfailed : ended.1.isOk = false := by decide +kernel
  have hserving : device.engine.Serving ⟨0xEF, 0x4015⟩ identity .quad bench :=
    ⟨⟨rfl, ⟨_, rfl, rfl⟩, ⟨rfl, rfl⟩⟩, rfl, rfl⟩
  have haccepts : Accepts identity bench :=
    Chip.checkRead_of_expects ⟨fun _ => by decide, by decide⟩
  have hlength : bytes.length = 1 * device.blockSize := List.length_replicate
  have hbytes : ¬bytes.AllErased := fun h =>
    absurd (h 0 (List.mem_replicate.mpr ⟨by decide, rfl⟩)) (by decide)
  have hfillable : bench.chip.memory.Fillable (1 * sectorBytes) bytes :=
    fun _ _ _ => Memory.byteAt_blank ..
  have hrange : (1 : UInt32).toNat + 1 ≤ device.blockCount := by decide
  -- Neither the data nor the runs are to be unfolded.
  clear_value bytes
  have h := writeBlocks_retried hserving hrange hlength settings
  change _ ∧ settle _ _ again.1 again.2 at h
  obtain ⟨hleft, hagain⟩ := h
  have hfilled : Filled (1 * sectorBytes) bytes bench ended.2.1 := hleft.filled hbytes hfillable
  clear_value again
  refine ⟨hfailed, hfilled, ?_⟩
  obtain ⟨fault | route, last⟩ := again
  · obtain ⟨-, ⟨cause, hcause, -⟩, -⟩ := hagain
    have hsame := Chip.checkRead_of_mode hleft.altered.mode (readCommand identity.device .quad)
    exact absurd ((hsame.trans haccepts).symm.trans hcause) (by simp)
  · obtain ⟨-, hstores, hnone⟩ := hagain
    exact ⟨rfl, hstores.read_eq, hnone hbytes hfillable⟩

/-- After a reset an open device cannot be written, whether something fails or not. -/
theorem writeBlocks_not_retried_after_reset :
    let opened := (closed (fresh .standard)).bringUp.run Bench.environment
      (Bench.ofChip (Chip.fresh ⟨0xEF, 0x4015⟩))
    let device := opened.1.2
    let restarted := (device.perform (.engine .reset)).run Bench.environment opened.2
    let bench := { restarted.2 with chip := restarted.2.chip.failing 0 1 }
    let bytes : Bytes := List.replicate 0x1000 0
    let failed := (device.writeBlocks 0 1 bytes).run.run Bench.environment bench
    device.isOpen = true ∧ restarted.1.result.isOk = true ∧ bench.bus = some ⟨.single, false⟩ ∧
      bench.chip.asleep = false ∧ bench.chip.listens .single = true ∧
      (0 : UInt32).toNat + 1 ≤ device.blockCount ∧ bytes.length = 1 * device.blockSize ∧
      failed.1.isOk = false ∧ failed.2.chip.Responsive ∧
      ((device.writeBlocks 0 1 bytes).run.run Bench.environment failed.2).1.isOk = false := by
  intro opened device restarted bench bytes failed
  refine ⟨?_, ?_, ?_, ?_, ?_, ?_, ?_, ?_, ⟨?_, ?_⟩, ?_⟩ <;> decide +kernel

end BlockDevice

end NorFlash
