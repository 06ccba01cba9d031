import NorFlash.Proofs.Block.Routes
import NorFlash.Proofs.Chip.Overlay

/-!
# Erases that a block write avoids

Programming suffices for data unless a bit is stored clear that has to be set again: unless the data
`Rises`, `mask_read_eq_iff`. A block write compares bytes, not bits. It also erases when the data
only has to clear more bits of a byte that is programmed already, when it `Narrows` one, and
`not_fillable_iff` says that these are all its reasons. `writeBlocks_erases_iff` is what becomes of
them: no data that rises is written without an erase, and the erases that programming would have
spared are those for data that narrows and does not rise.
-/

namespace NorFlash

namespace Memory

variable {memory : Memory} {address : Nat} {bytes : Bytes}

/-- Some bit that is set in the data is stored clear. -/
def Rises (memory : Memory) (address : Nat) (bytes : Bytes) : Prop :=
  ∃ offset, ∃ h : offset < bytes.length,
    memory.byteAt (address + offset) &&& bytes[offset] ≠ bytes[offset]

/-- Some byte that is not erased differs from the data, but only in bits that the data clears. -/
def Narrows (memory : Memory) (address : Nat) (bytes : Bytes) : Prop :=
  ∃ offset, ∃ h : offset < bytes.length,
    memory.byteAt (address + offset) ≠ bytes[offset] ∧
      memory.byteAt (address + offset) ≠ Bytes.erased ∧
        memory.byteAt (address + offset) &&& bytes[offset] = bytes[offset]

/-- Data that does not rise is stored by programming it over whatever is there. -/
theorem mask_read_eq_iff :
    mask (memory.read address bytes.length) bytes = bytes ↔ ¬memory.Rises address bytes := by
  rw [List.ext_getElem_iff]
  simp +contextual [Rises, mask, getElem_read, length_read]

/-- The reasons for an erase: a bit that has to be set, or one to be cleared in a byte that is
programmed already. -/
theorem not_fillable_iff :
    ¬memory.Fillable address bytes ↔
      memory.Rises address bytes ∨ memory.Narrows address bytes := by
  constructor
  · intro h
    simp only [Fillable, not_forall] at h
    obtain ⟨offset, hoffset, hdiffers, hprogrammed⟩ := h
    by_cases hbits : memory.byteAt (address + offset) &&& bytes[offset] = bytes[offset]
    · exact .inr ⟨offset, hoffset, hdiffers, hprogrammed, hbits⟩
    · exact .inl ⟨offset, hoffset, hbits⟩
  · rintro (⟨offset, hoffset, hbits⟩ | ⟨offset, hoffset, hdiffers, hprogrammed, -⟩) hfillable
    · -- A byte that rises is neither the data's nor an erased one.
      have hdiffers : memory.byteAt (address + offset) ≠ bytes[offset] := by
        intro hsame
        rw [hsame, UInt8.and_self] at hbits
        exact hbits rfl
      rw [hfillable offset hoffset hdiffers, Bytes.erased_and] at hbits
      exact hbits rfl
    · exact hprogrammed (hfillable offset hoffset hdiffers)

/-- Data rises if its first byte does or the rest. -/
theorem rises_cons {byte : UInt8} {rest : Bytes} :
    memory.Rises address (byte :: rest) ↔
      memory.byteAt address &&& byte ≠ byte ∨ memory.Rises (address + 1) rest := by
  constructor
  · rintro ⟨_ | offset, hoffset, hbits⟩
    · exact .inl hbits
    · rw [← Nat.add_assoc, Nat.add_right_comm] at hbits
      exact .inr ⟨offset, Nat.lt_of_succ_lt_succ hoffset, hbits⟩
  · rintro (hbits | ⟨offset, hoffset, hbits⟩)
    · exact ⟨0, Nat.succ_pos _, hbits⟩
    · rw [Nat.add_right_comm, Nat.add_assoc] at hbits
      exact ⟨offset + 1, Nat.succ_lt_succ hoffset, hbits⟩

/-- A first byte that differs, is programmed and only loses bits makes the data narrow. -/
theorem narrows_cons {byte : UInt8} (rest : Bytes) (hdiffers : memory.byteAt address ≠ byte)
    (hprogrammed : memory.byteAt address ≠ Bytes.erased)
    (hbits : memory.byteAt address &&& byte = byte) : memory.Narrows address (byte :: rest) :=
  ⟨0, Nat.succ_pos _, hdiffers, hprogrammed, hbits⟩

/-- Erased data rises only over bytes that are programmed. -/
theorem not_rises_replicate {count : Nat}
    (h : ∀ offset < count, memory.byteAt (address + offset) = Bytes.erased) :
    ¬memory.Rises address (List.replicate count Bytes.erased) := by
  rintro ⟨offset, hoffset, hbits⟩
  rw [h offset (by simpa using hoffset), List.getElem_replicate] at hbits
  exact hbits rfl

end Memory

namespace BlockDevice

open Engine

variable {memory : Memory} {bench : Bench} {device : BlockDevice} {identity : Identity}
  {id : JedecId} {width : BusWidth} {block : UInt32} {first count : Nat} {bytes : Bytes}
  {route : WriteRoute} {logged : List MemoryEvent}

/-- Blocks are erased if there are any. -/
theorem exists_isErase_eraseEvents (hcount : count ≠ 0) :
    ∃ event ∈ eraseEvents first count, event.isErase :=
  ⟨_, List.mem_map_of_mem (List.mem_range.mpr (Nat.pos_of_ne_zero hcount)), rfl⟩

/-- Data that is not all erased is written without an erase where it can be stored so, and then only
programmed. -/
theorem Routed.of_fillable (h : Routed memory first count bytes route logged) (hcount : count ≠ 0)
    (hbytes : ¬bytes.AllErased) (hfillable : memory.Fillable (first * sectorBytes) bytes) :
    route = .filled (changedPages memory first bytes).length ∧
      logged = (changedPages memory first bytes).map memory.storedEvent := by
  cases h with
  | nothing hnone => exact absurd hnone hcount
  | erased _ herased => exact absurd herased hbytes
  | filled => exact ⟨rfl, rfl⟩
  | rewritten _ hneeds => exact absurd hfillable hneeds

/-- Elsewhere every block is erased first. -/
theorem Routed.of_not_fillable (h : Routed memory first count bytes route logged)
    (hcount : count ≠ 0) (hbytes : ¬bytes.AllErased)
    (hneeds : ¬memory.Fillable (first * sectorBytes) bytes) :
    route = .rewritten ∧ logged = eraseEvents first count ++
      (Page.whole (first * sectorBytes) bytes).map PagePiece.freshEvent := by
  cases h with
  | nothing hnone => exact absurd hnone hcount
  | erased _ herased => exact absurd herased hbytes
  | filled _ hfillable => exact absurd hfillable hneeds
  | rewritten => exact ⟨rfl, rfl⟩

/-- When a block write erases, by which route it says it went, and what it does without an erase. -/
structure Spares (memory : Memory) (first : Nat) (bytes : Bytes) (route : WriteRoute)
    (logged : List MemoryEvent) : Prop where
  rewritten : route = .rewritten ↔ memory.Rises (first * sectorBytes) bytes ∨
    memory.Narrows (first * sectorBytes) bytes
  erases : (∃ event ∈ logged, event.isErase) ↔ memory.Rises (first * sectorBytes) bytes ∨
    memory.Narrows (first * sectorBytes) bytes
  /-- Without an erase the pages that differ are programmed over what is stored. -/
  programs : ¬memory.Rises (first * sectorBytes) bytes →
    ¬memory.Narrows (first * sectorBytes) bytes →
      route = .filled (changedPages memory first bytes).length ∧
        logged = (changedPages memory first bytes).map memory.storedEvent
  /-- The route is the one that the bits call for, except for data that narrows and does not rise.
  -/
  needed : (route = .rewritten ↔ memory.Rises (first * sectorBytes) bytes) ↔
    (memory.Narrows (first * sectorBytes) bytes → memory.Rises (first * sectorBytes) bytes)

/-- The route of a block write tells whether it spares the erase. -/
theorem Routed.spares (h : Routed memory first count bytes route logged) (hcount : count ≠ 0)
    (hbytes : ¬bytes.AllErased) : Spares memory first bytes route logged := by
  have hreasons : ¬memory.Fillable (first * sectorBytes) bytes ↔
      memory.Rises (first * sectorBytes) bytes ∨ memory.Narrows (first * sectorBytes) bytes :=
    memory.not_fillable_iff
  have hrewritten : route = .rewritten ↔ ¬memory.Fillable (first * sectorBytes) bytes := by
    refine ⟨fun hroute hfillable => ?_, fun hneeds => (h.of_not_fillable hcount hbytes hneeds).1⟩
    rw [(h.of_fillable hcount hbytes hfillable).1] at hroute
    cases hroute
  have herases : (∃ event ∈ logged, event.isErase) ↔
      ¬memory.Fillable (first * sectorBytes) bytes := by
    constructor
    · rintro ⟨event, hevent, herase⟩ hfillable
      rw [(h.of_fillable hcount hbytes hfillable).2] at hevent
      obtain ⟨page, -, rfl⟩ := List.mem_map.mp hevent
      cases herase
    · intro hneeds
      rw [(h.of_not_fillable hcount hbytes hneeds).2]
      obtain ⟨event, hevent, herase⟩ : ∃ event ∈ eraseEvents first count, event.isErase :=
        exists_isErase_eraseEvents hcount
      exact ⟨event, List.mem_append_left _ hevent, herase⟩
  exact {
    rewritten := hrewritten.trans hreasons
    erases := herases.trans hreasons
    programs := fun hrises hnarrows => h.of_fillable hcount hbytes
      (by_contra fun hneeds => (hreasons.mp hneeds).elim hrises hnarrows)
    needed := by rw [hrewritten, hreasons]; tauto }

/-- On a responsive bench that serves the device, a block write of data that is not all erased
erases and reports that it rewrote, or it programs what differs over what is stored and reports the
number of those pages. It rewrites all data that rises, and data that narrows; no other data. The
one thing in its way is that the chip refuses to be read, and then nothing is changed. -/
theorem writeBlocks_erases_iff (h : device.engine.Serving id identity width bench)
    (hresponsive : bench.chip.Responsive) (hrange : block.toNat + count ≤ device.blockCount)
    (hlength : bytes.length = count * device.blockSize) (hbytes : ¬bytes.AllErased) :
    (device.writeBlocks block count bytes).Ends Bench.environment
      (fun route after => Accepts identity bench ∧
        ∃ logged, after.chip.events.toList = bench.chip.events.toList ++ logged ∧
          Spares bench.chip.memory block.toNat bytes route logged)
      (fun fault after => Refused identity width bench fault after) bench := by
  have hcount : count ≠ 0 := by
    rintro rfl
    rw [Nat.zero_mul] at hlength
    rw [List.length_eq_zero_iff.mp hlength] at hbytes
    exact hbytes fun _ hbyte => absurd hbyte List.not_mem_nil
  refine (ends_writeBlocks_routed h hresponsive hrange hlength).mono ?_ fun _ _ hfault => hfault.2
  rintro route after ⟨haccepts, -, logged, hevents, hrouted⟩
  exact ⟨haccepts.resolve_left hbytes, logged, hevents, hrouted.spares hcount hbytes⟩

/-- A block whose first byte is half programmed is erased to clear the rest of that byte. -/
theorem writeBlocks_erases_iff_half_programmed :
    let identity : Identity :=
      ⟨Catalog.winbond, ⟨0x4015, "W25Q16DV", 4096, false, 8, some .quad⟩⟩
    let device : BlockDevice := ⟨⟨.standard, some identity⟩, true⟩
    let chip := { Chip.fresh ⟨0xEF, 0x4015⟩ with
      quad := true, registers := { Registers.afterReset ⟨0x02⟩ with readParameters := ⟨0x30⟩ }
      memory := (Chip.fresh ⟨0xEF, 0x4015⟩).memory.set 0x1000 0x0F }
    let bench := { Bench.ofChip chip with bus := some ⟨.quad, false⟩ }
    let bytes : Bytes := 0 :: List.replicate 0xFFF Bytes.erased
    let ended := (device.writeBlocks 1 1 bytes).run.run Bench.environment bench
    Memory.mask (bench.chip.memory.read 0x1000 bytes.length) bytes = bytes ∧
      ended.1 = .ok .rewritten ∧ ∃ event ∈ ended.2.chip.events.toList, event.isErase := by
  intro identity device chip bench bytes ended
  have hserving : device.engine.Serving ⟨0xEF, 0x4015⟩ identity .quad bench :=
    ⟨⟨rfl, ⟨_, rfl, rfl⟩, ⟨rfl, rfl⟩⟩, rfl, rfl⟩
  have haccepts : Accepts identity bench :=
    Chip.checkRead_of_expects ⟨fun _ => by decide, by decide⟩
  have hlength : bytes.length = 1 * device.blockSize :=
    congrArg (· + 1) List.length_replicate
  have hbytes : ¬bytes.AllErased := fun h => absurd (h 0 List.mem_cons_self) (by decide)
  have hrange : (1 : UInt32).toNat + 1 ≤ device.blockCount := by decide
  have hfirst : bench.chip.memory.byteAt (1 * sectorBytes) = 0x0F := by decide +kernel
  have hrises : ¬bench.chip.memory.Rises (1 * sectorBytes) bytes := by
    refine fun hrises => (Memory.rises_cons.mp hrises).elim (fun hbits => ?_)
      (Memory.not_rises_replicate fun offset hoffset => ?_)
    · rw [hfirst] at hbits
      exact hbits rfl
    · refine (Memory.byteAt_set ..).trans ((if_neg ?_).trans (Memory.byteAt_blank ..))
      have hsize : (Chip.fresh ⟨0xEF, 0x4015⟩).memory.size = 0x200000 := by decide
      have hsector : sectorBytes = 0x1000 := rfl
      rw [Memory.index_of_lt (by omega), Memory.index_of_lt (by omega)]
      omega
  have hnarrows : bench.chip.memory.Narrows (1 * sectorBytes) bytes :=
    Memory.narrows_cons _ (by rw [hfirst]; decide) (by rw [hfirst]; decide) (by rw [hfirst]; rfl)
  -- Neither the data nor the run is to be unfolded.
  clear_value bytes
  have h := writeBlocks_erases_iff hserving ⟨rfl, rfl⟩ hrange hlength hbytes
  change settle _ _ ended.1 ended.2 at h
  clear_value ended
  obtain ⟨fault | route, after⟩ := ended
  · obtain ⟨⟨cause, hcause, -⟩, -⟩ := h
    exact absurd (haccepts.symm.trans hcause) (by simp)
  · obtain ⟨-, logged, hevents, hspares⟩ := h
    refine ⟨Memory.mask_read_eq_iff.mpr hrises, ?_, ?_⟩
    · exact congrArg Except.ok (hspares.rewritten.mpr (.inr hnarrows))
    · obtain ⟨event, hevent, herase⟩ := hspares.erases.mpr (.inr hnarrows)
      exact ⟨event, hevents ▸ List.mem_append_right _ hevent, herase⟩

end BlockDevice

end NorFlash
