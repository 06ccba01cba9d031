import NorFlash.BlockDevice
import NorFlash.Proofs.Engine.Writing
import NorFlash.Proofs.Page

/-!
# Writing blocks on a bench

A block write that succeeds has stored its data, whichever way it took, and one that fails has
changed no other block: `ends_writeBlocks`. A block read that succeeds delivers what is stored:
`ends_readBlocks`.
-/

namespace NorFlash

namespace BlockDevice

open Engine

variable {bench after : Bench} {device : BlockDevice} {identity : Identity} {id : JedecId}
  {width : BusWidth} {start : Nat}

/-- The number of a block before the end of some that lie within the chip. -/
theorem toNat_block {engine : Engine} (h : engine.Serving id identity width bench)
    {block stop : Nat} (hblock : block ≤ stop)
    (hsize : stop * sectorBytes ≤ bench.chip.memory.size) : (UInt32.ofNat block).toNat = block :=
  h.toNat_ofNat <| Nat.le_trans hblock <|
    Nat.le_trans (Nat.le_mul_of_pos_right _ sectorBytes_pos) hsize

/-- Data that is as long as the blocks ends where they do. -/
theorem blocks_stop (block : Nat) {count : Nat} {bytes : Bytes}
    (hlength : bytes.length = count * sectorBytes) :
    (block + count) * sectorBytes = block * sectorBytes + bytes.length := by
  rw [hlength, Nat.add_mul]

/-- The bench after an erase of so many blocks, from the first on. -/
theorem ends_eraseBlocks (h : device.engine.Serving id identity width bench) {block : UInt32}
    {count : Nat} (hsize : (block.toNat + count) * sectorBytes ≤ bench.chip.memory.size) :
    (device.eraseBlocks block count).Ends Bench.environment
      (fun _ after =>
        bench.Altered width (block.toNat * sectorBytes)
          ((block.toNat + count) * sectorBytes) after ∧
          after.chip.memory.read (block.toNat * sectorBytes) (count * sectorBytes) =
            List.replicate (count * sectorBytes) Bytes.erased)
      (fun _ after => bench.Altered width (block.toNat * sectorBytes)
        ((block.toNat + count) * sectorBytes) after) bench := by
  unfold eraseBlocks
  -- The blocks are erased in order, so all but the last are as after an erase of one less.
  induction count with
  | zero =>
      rw [Nat.zero_mul]
      exact ⟨h.unchanged _ _, rfl⟩
  | succ count ih =>
      have hstop : (block.toNat + (count + 1)) * sectorBytes =
          (block.toNat + count) * sectorBytes + sectorBytes := by
        rw [← Nat.add_assoc, Nat.succ_mul]
      have hstart : (block.toNat + count) * sectorBytes =
          block.toNat * sectorBytes + count * sectorBytes := Nat.add_mul ..
      have hlast : (UInt32.ofNat (block.toNat + count)).toNat = block.toNat + count :=
        toNat_block h (by omega) hsize
      rw [List.range_succ, Action.ends_forM_concat]
      refine (ih (by omega)).mono ?_ fun fault after hafter =>
        hafter.mono (Nat.le_refl _) (by omega)
      rintro _ middle ⟨haltered, herased⟩
      have hmiddle := h.altered haltered
      have hsize := haltered.memory.size
      refine (ends_eraseSector hmiddle (by rw [hlast]) (by omega)).mono ?_ ?_
      · rintro _ after ⟨hafter, hsector⟩
        refine ⟨(haltered.mono (Nat.le_refl _) (by omega)).trans
          (hafter.mono (by omega) (by omega)), ?_⟩
        rw [Nat.succ_mul, Memory.read_add, ← hstart, hsector,
          hafter.memory.read_eq (by omega) (.inl (by omega)), herased,
          List.replicate_append_replicate]
      · exact fun fault after hafter => (haltered.mono (Nat.le_refl _) (by omega)).trans
          (hafter.mono (by omega) (by omega))

/-! ## Filling pages -/

/-- The first page to compare takes from both what it has room for. -/
theorem pageChanges_of_ne_nil (address : Nat) {new old : Bytes} (hnew : new ≠ [])
    (hold : old ≠ []) :
    pageChanges address new old =
      ⟨⟨address, new.take (Page.room address)⟩, old.take (Page.room address)⟩ ::
        pageChanges (address + Page.room address) (new.drop (Page.room address))
          (old.drop (Page.room address)) := by
  unfold pageChanges
  rw [Page.cut_of_ne_nil address hnew, Page.cut_of_ne_nil address hold]
  rfl

/-- Without new data there is nothing to compare. -/
theorem pageChanges_nil (address : Nat) (old : Bytes) : pageChanges address [] old = [] := by
  unfold pageChanges
  rw [Page.cut_nil]
  rfl

/-- Programs a page, if it changes. -/
def fillPage (engine : Engine) (change : PageChange) : Action Unit :=
  if change.isUnchanged then pure ()
  else engine.write (UInt32.ofNat change.new.address) change.new.bytes

/-- Programs the pages that change. -/
def fillPages (engine : Engine) (changes : List PageChange) : Action Unit :=
  (changes.filter fun change => !change.isUnchanged).forM fun change =>
    engine.write (UInt32.ofNat change.new.address) change.new.bytes

/-- Pages are filled in one after the other. -/
theorem fillPages_cons (engine : Engine) (change : PageChange) (changes : List PageChange) :
    fillPages engine (change :: changes) =
      (do fillPage engine change; fillPages engine changes) := by
  unfold fillPages fillPage
  cases hunchanged : change.isUnchanged with
  | true =>
      rw [List.filter_cons_of_neg (by simp [hunchanged])]
      rfl
  | false =>
      rw [List.filter_cons_of_pos (by simp [hunchanged])]
      rfl

/-- No page that changes needs an erase. -/
def NeedsNoErase (changes : List PageChange) : Prop :=
  ((changes.filter fun change => !change.isUnchanged).any PageChange.needsErase) = false

/-- If no page needs an erase, neither does the first nor the rest. -/
theorem needsNoErase_cons {change : PageChange} {changes : List PageChange}
    (h : NeedsNoErase (change :: changes)) :
    (change.isUnchanged = true ∨ change.needsErase = false) ∧ NeedsNoErase changes := by
  unfold NeedsNoErase at h ⊢
  cases hunchanged : change.isUnchanged with
  | true =>
      rw [List.filter_cons_of_neg (by simp [hunchanged])] at h
      exact ⟨.inl rfl, h⟩
  | false =>
      rw [List.filter_cons_of_pos (by simp [hunchanged])] at h
      obtain ⟨hchange, hothers⟩ := Bool.or_eq_false_iff.mp h
      exact ⟨.inr hchange, hothers⟩

/-- A page that needs no erase holds its data, whether it had to be programmed or not. -/
theorem ends_fillPage {engine : Engine} (h : engine.Serving id identity width bench)
    {address : Nat} {new old : Bytes} (hsize : address + new.length ≤ bench.chip.memory.size)
    (hold : bench.chip.memory.read address new.length = old)
    (herase : (PageChange.mk ⟨address, new⟩ old).isUnchanged = true ∨
      (PageChange.mk ⟨address, new⟩ old).needsErase = false) :
    (fillPage engine ⟨⟨address, new⟩, old⟩).Ends Bench.environment
      (fun _ after => bench.Altered width address (address + new.length) after ∧
        after.chip.memory.read address new.length = new)
      (fun _ after => bench.Altered width address (address + new.length) after) bench := by
  unfold fillPage
  split
  · rename_i hunchanged
    exact ⟨h.unchanged .., hold.trans (eq_of_beq hunchanged).symm⟩
  · rename_i hchanged
    have hneeds := herase.resolve_left hchanged
    have haddress : (UInt32.ofNat address).toNat = address := h.toNat_ofNat (by omega)
    have hwrite := @ends_write bench engine identity id width h (UInt32.ofNat address) new
    rw [haddress] at hwrite
    refine hwrite.mono ?_ fun fault after hafter => hafter
    rintro _ after ⟨haltered, hmasked⟩
    refine ⟨haltered, hmasked.read_eq.trans ?_⟩
    rw [hold]
    exact Memory.mask_of_differs (hold ▸ Memory.length_read ..) hneeds

/-- Pages that need no erase are filled with the data. -/
theorem ends_fillPages {engine : Engine} (h : engine.Serving id identity width bench)
    {address : Nat} {new old : Bytes} (hpage : pageSize ∣ address) (hpages : pageSize ∣ new.length)
    (hsize : address + new.length ≤ bench.chip.memory.size)
    (hold : bench.chip.memory.read address new.length = old)
    (herase : NeedsNoErase (pageChanges address new old)) :
    (fillPages engine (pageChanges address new old)).Ends Bench.environment
      (fun _ after => bench.Altered width address (address + new.length) after ∧
        after.chip.memory.read address new.length = new)
      (fun _ after => bench.Altered width address (address + new.length) after) bench := by
  fun_induction Page.cut address new generalizing old bench with
  | case1 address =>
      rw [pageChanges_nil]
      exact ⟨h.unchanged _ _, rfl⟩
  | case2 address new hnew ih =>
      have hroom := Page.room_of_dvd hpage
      have hfull : pageSize ≤ new.length := Nat.le_of_dvd (List.length_pos_iff.mpr hnew) hpages
      have hne : old ≠ [] := by
        rw [← List.length_pos_iff, ← hold, Memory.length_read]
        exact List.length_pos_iff.mpr hnew
      have htake : (new.take (Page.room address)).length = Page.room address := by
        rw [List.length_take, hroom, Nat.min_eq_left hfull]
      have hdrop : (new.drop (Page.room address)).length = new.length - Page.room address :=
        List.length_drop
      have hlength : Page.room address + (new.drop (Page.room address)).length = new.length := by
        omega
      have hsplit (memory : Memory) : memory.read address new.length =
          memory.read address (Page.room address) ++
            memory.read (address + Page.room address) (new.drop (Page.room address)).length := by
        rw [← Memory.read_add, hlength]
      have hfirst : bench.chip.memory.read address (Page.room address) =
          old.take (Page.room address) := by
        rw [← hold, hsplit, List.take_left' (Memory.length_read ..)]
      have hsecond : bench.chip.memory.read (address + Page.room address)
          (new.drop (Page.room address)).length = old.drop (Page.room address) := by
        rw [← hold, hsplit, List.drop_left' (Memory.length_read ..)]
      have hnext : pageSize ∣ address + Page.room address := by
        rw [hroom]
        exact Nat.dvd_add hpage (Nat.dvd_refl _)
      rw [pageChanges_of_ne_nil address hnew hne] at herase ⊢
      obtain ⟨hchange, hchanges⟩ := needsNoErase_cons herase
      rw [fillPages_cons, Action.ends_bind]
      refine (ends_fillPage h (by omega) (htake.symm ▸ hfirst) hchange).mono ?_
        fun fault after hafter => hafter.mono (Nat.le_refl _) (by omega)
      rintro _ middle ⟨haltered, hstored⟩
      have hmiddle := haltered.memory.size
      have hwhole := haltered.mono (Nat.le_refl address)
        (show _ ≤ address + new.length by omega)
      -- The other pages are as they were, so they still need no erase.
      have hkept : middle.chip.memory.read (address + Page.room address)
          (new.drop (Page.room address)).length = old.drop (Page.room address) := by
        rw [haltered.memory.read_eq (by omega) (.inr (by omega)), hsecond]
      refine (ih (h.altered haltered) hnext ?_ (by omega) hkept hchanges).mono
        ?_ fun fault after hafter => hwhole.trans (hafter.mono (by omega) (by omega))
      · rw [hdrop, hroom]
        exact Nat.dvd_sub hpages (Nat.dvd_refl _)
      · rintro _ after ⟨hafter, hread⟩
        refine ⟨hwhole.trans (hafter.mono (by omega) (by omega)), ?_⟩
        rw [hsplit, hread, hafter.memory.read_eq (by omega) (.inl (Nat.le_refl _)), ← htake,
          hstored, htake, List.take_append_drop]

/-! ## Whole block writes -/

/-- The blocks of a device that an engine serves are sectors. -/
theorem blockSize_eq (h : device.engine.Serving id identity width bench) :
    device.blockSize = sectorBytes := by
  have hsize : device.engine.sectorSize = identity.device.sectorSize.toNat := by
    simp [sectorSize, device?, h.attuned.identity]
  exact hsize.trans h.sectorSize_eq

/-- The blocks of a device that an engine serves fill its memory. -/
theorem blockCount_eq (h : device.engine.Serving id identity width bench) :
    device.blockCount = bench.chip.memory.size / sectorBytes := by
  rw [h.size_eq, ← h.sectorSize_eq]
  simp [blockCount, sectorCount, device?, h.attuned.identity, Descriptor.sectorCount]

/-- A bench that is unchanged is altered nowhere. -/
theorem altered_of_unchanged {stop : Nat} (h : bench.Unchanged width after) :
    bench.Altered width start stop after :=
  ⟨h.bus, h.chip.mode, .of_eq h.chip.memory⟩

/-- The bytes are stored in so many blocks, and nothing else has changed. -/
structure Stores (width : BusWidth) (block count : Nat) (bytes : Bytes) (bench after : Bench) :
    Prop where
  altered : bench.Altered width (block * sectorBytes) ((block + count) * sectorBytes) after
  length : bytes.length = count * sectorBytes
  within : (block + count) * sectorBytes ≤ bench.chip.memory.size
  read_eq : after.chip.memory.read (block * sectorBytes) (count * sectorBytes) = bytes

/-- What is stored after the blocks were read is stored after what was before. -/
theorem Stores.after_read {middle : Bench} {block count : Nat} {bytes : Bytes}
    (h : Stores width block count bytes middle after) (hread : bench.Unchanged width middle) :
    Stores width block count bytes bench after :=
  ⟨(altered_of_unchanged hread).trans h.altered, h.length, hread.chip.memory ▸ h.within, h.read_eq⟩

/-- Blocks that are erased and wholly programmed hold the data. -/
theorem ends_rewriteBlocks (h : device.engine.Serving id identity width bench) {block : UInt32}
    {count : Nat} {bytes : Bytes} (hlength : bytes.length = count * sectorBytes)
    (hsize : (block.toNat + count) * sectorBytes ≤ bench.chip.memory.size) :
    (do
      device.eraseBlocks block count
      device.engine.write (UInt32.ofNat (block.toNat * sectorBytes)) bytes).Ends Bench.environment
      (fun _ after => Stores width block.toNat count bytes bench after)
      (fun _ after => bench.Altered width (block.toNat * sectorBytes)
        ((block.toNat + count) * sectorBytes) after) bench := by
  have hstop := blocks_stop block.toNat hlength
  have haddress : (UInt32.ofNat (block.toNat * sectorBytes)).toNat = block.toNat * sectorBytes :=
    h.toNat_ofNat (by omega)
  rw [Action.ends_bind]
  refine (ends_eraseBlocks h hsize).mono ?_ fun fault after hafter => hafter
  rintro _ cleared ⟨hcleared, herased⟩
  have hwrite := @ends_write cleared device.engine identity id width (h.altered hcleared)
    (UInt32.ofNat (block.toNat * sectorBytes)) bytes
  rw [haddress, ← hstop] at hwrite
  refine hwrite.mono ?_ fun fault after hafter => hcleared.trans hafter
  rintro _ after ⟨hafter, hmasked⟩
  have hread := hmasked.read_eq
  rw [hlength, herased, ← hlength, Memory.mask_replicate_erased, hlength] at hread
  exact ⟨hcleared.trans hafter, hlength, hsize, hread⟩

/-- However the data gets stored, it takes effect as a whole. -/
theorem ends_storeBlocks (h : device.engine.Serving id identity width bench) {block : UInt32}
    {count : Nat} {bytes : Bytes} (hlength : bytes.length = count * sectorBytes)
    (hsize : (block.toNat + count) * sectorBytes ≤ bench.chip.memory.size) :
    (device.storeBlocks block count bytes).Ends Bench.environment
      (fun _ after => Stores width block.toNat count bytes bench after)
      (fun _ after => bench.Altered width (block.toNat * sectorBytes)
        ((block.toNat + count) * sectorBytes) after) bench := by
  have hstop := blocks_stop block.toNat hlength
  have haddress : (UInt32.ofNat (block.toNat * sectorBytes)).toNat = block.toNat * sectorBytes :=
    h.toNat_ofNat (by omega)
  unfold storeBlocks
  rw [blockSize_eq h]
  dsimp only
  rw [Action.ends_bind]
  refine (ends_read h.attuned (UInt32.ofNat (block.toNat * sectorBytes)) bytes.length).mono ?_
    fun fault after hafter => altered_of_unchanged hafter.unchanged
  rintro stored middle ⟨hunchanged, hstored, -, -⟩
  have hkept : bench.Altered width (block.toNat * sectorBytes)
      ((block.toNat + count) * sectorBytes) middle := altered_of_unchanged hunchanged
  have hmiddle := h.altered hkept
  have hsame := hunchanged.chip.memory
  rw [haddress, ← hsame] at hstored
  rw [← hsame] at hsize
  split
  · have hrewrite := ends_rewriteBlocks hmiddle hlength hsize
    rw [Action.ends_bind] at hrewrite ⊢
    refine hrewrite.mono ?_ fun fault after hafter => hkept.trans hafter
    intro _ cleared hcleared
    rw [Action.ends_bind]
    exact hcleared.mono (fun _ _ hafter => hafter.after_read hunchanged)
      fun fault after hafter => hkept.trans hafter
  · rename_i herase
    have hpage : pageSize ∣ sectorBytes := by decide
    have hwhole : pageSize ∣ bytes.length := hlength ▸ Nat.dvd_mul_left_of_dvd hpage count
    have hbefore := hstop ▸ hsize
    rw [haddress] at herase ⊢
    rw [Action.ends_bind]
    refine (ends_fillPages hmiddle (Nat.dvd_mul_left_of_dvd hpage block.toNat) hwhole hbefore
      hstored.symm (Bool.eq_false_iff.mpr herase)).mono ?_ ?_
    · rintro _ after ⟨hafter, hread⟩
      rw [← hstop] at hafter
      rw [hlength] at hread
      exact ⟨hkept.trans hafter, hlength, hsame ▸ hsize, hread⟩
    · rintro fault after hafter
      rw [← hstop] at hafter
      exact hkept.trans hafter

/-- To store nothing is to leave a bench as it is. -/
theorem Stores.unchanged_of_zero (h : device.engine.Serving id identity width bench) (block : Nat)
    (hsize : block * sectorBytes ≤ bench.chip.memory.size) :
    Stores width block 0 [] bench bench :=
  ⟨h.unchanged _ _, (Nat.zero_mul _).symm, hsize, by rw [Nat.zero_mul]; rfl⟩

/-- A length that was computed is that of so many sectors. -/
theorem blocksLength_ok (h : device.engine.Serving id identity width bench) {count length : Nat}
    (hlength : device.blocksLength count = .ok length) : length = count * sectorBytes := by
  unfold blocksLength at hlength
  rw [blockSize_eq h, if_neg (Nat.ne_of_gt sectorBytes_pos)] at hlength
  split at hlength
  · exact (Except.ok.inj hlength).symm
  · exact absurd hlength (by simp)

/-- Blocks that pass the check lie within the memory. -/
theorem checkBlocks_ok (h : device.engine.Serving id identity width bench) {block : UInt32}
    {count : Nat} (hcheck : device.checkBlocks block count = .ok ()) :
    (block.toNat + count) * sectorBytes ≤ bench.chip.memory.size := by
  unfold checkBlocks at hcheck
  rw [blockCount_eq h] at hcheck
  dsimp only at hcheck
  split at hcheck
  · rename_i hle
    exact (Nat.le_div_iff_mul_le sectorBytes_pos).mp hle
  · exact absurd hcheck (by simp)

/-- A block write stores its data, or changes no other block. -/
theorem ends_writeBlocks (h : device.engine.Serving id identity width bench) {block : UInt32}
    {count : Nat} {bytes : Bytes} :
    (device.writeBlocks block count bytes).Ends Bench.environment
      (fun _ after => Stores width block.toNat count bytes bench after)
      (fun _ after => bench.Altered width (block.toNat * sectorBytes)
        ((block.toNat + count) * sectorBytes) after) bench := by
  have hsame := h.unchanged (block.toNat * sectorBytes) ((block.toNat + count) * sectorBytes)
  unfold writeBlocks
  rw [Action.ends_bind, Action.ends_ofExcept]
  cases hblocks : device.blocksLength count with
  | error fault => exact hsame
  | ok length =>
      obtain rfl := blocksLength_ok h hblocks
      show Action.Ends _ (if _ then _ else _) _ _ _
      split
      · exact hsame
      · rename_i hlength
        rw [Decidable.not_not] at hlength
        rw [Action.ends_bind, Action.ends_ofExcept]
        cases hcheck : device.checkBlocks block count with
        | error fault => exact hsame
        | ok _ =>
            have hsize := checkBlocks_ok h hcheck
            show Action.Ends _ (if _ then _ else if _ then _ else _) _ _ _
            split
            · rename_i hzero
              subst hzero
              rw [Nat.zero_mul, List.length_eq_zero_iff] at hlength
              subst hlength
              exact Stores.unchanged_of_zero h block.toNat hsize
            · split
              · rename_i hall
                rw [Action.ends_bind]
                refine (ends_eraseBlocks h hsize).mono ?_ fun _ _ hafter => hafter
                rintro _ after ⟨hafter, herased⟩
                refine ⟨hafter, hlength, hsize, herased.trans ?_⟩
                refine (List.eq_replicate_iff.mpr ⟨hlength, fun byte hbyte => ?_⟩).symm
                exact eq_of_beq (List.all_eq_true.mp hall byte hbyte)
              · exact ends_storeBlocks h hlength hsize

/-- A block read delivers what is stored, and changes nothing in any case. -/
theorem ends_readBlocks (h : device.engine.Serving id identity width bench) (block : UInt32)
    (count : Nat) :
    (device.readBlocks block count).Ends Bench.environment
      (fun bytes after => bench.Unchanged width after ∧
        bytes = bench.chip.memory.read (block.toNat * sectorBytes) (count * sectorBytes) ∧
          (count ≠ 0 → (block.toNat + count) * sectorBytes ≤ bench.chip.memory.size))
      (fun _ after => bench.Unchanged width after) bench := by
  unfold readBlocks
  rw [Action.ends_bind, Action.ends_ofExcept]
  cases hblocks : device.blocksLength count with
  | error fault => exact h.attuned.unchanged
  | ok length =>
      obtain rfl := blocksLength_ok h hblocks
      refine (ends_readSector h.attuned h.knows.capacity_le block _).mono ?_
        fun _ _ hafter => hafter.unchanged
      intro bytes after hafter
      have hwithin := hafter.within
      rw [h.sectorSize_eq, ← Nat.add_mul, ← h.size_eq] at hwithin
      refine ⟨hafter.unchanged, h.sectorSize_eq ▸ hafter.bytes_eq, fun hcount => ?_⟩
      exact hwithin (Nat.mul_ne_zero hcount (Nat.ne_of_gt sectorBytes_pos))

end BlockDevice

end NorFlash
