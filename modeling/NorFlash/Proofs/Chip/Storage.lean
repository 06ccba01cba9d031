import NorFlash.Chip.Memory

/-!
# What programming and erasing store

`Memory.Within` says that two memories agree outside a range of addresses, and `Memory.Masked` also
that inside it the bits that are clear in some data were cleared. A page program masks the range of
its data if that lies within one page, `masked_program`, and an erase sets its unit to ones,
`read_eraseUnit`. Masked ranges that adjoin make up one masked range, so data that is programmed
piece by piece is programmed as a whole.
-/

namespace NorFlash

namespace Memory

variable {memory before middle after : Memory} {start stop address length : Nat} {bytes : Bytes}

/-- An address within the memory is its own place. -/
theorem index_of_lt (h : address < memory.size) : memory.index address = address :=
  Nat.mod_eq_of_lt h

/-- A read delivers as many bytes as asked for. -/
theorem length_read (memory : Memory) (address length : Nat) :
    (memory.read address length).length = length := by
  simp [read]

/-- Reading nothing delivers nothing. -/
theorem read_zero (memory : Memory) (address : Nat) : memory.read address 0 = [] :=
  rfl

/-- A read can be made in two parts. -/
theorem read_add (memory : Memory) (address first second : Nat) :
    memory.read address (first + second) =
      memory.read address first ++ memory.read (address + first) second := by
  simp [read, List.range_add, Function.comp_def, Nat.add_assoc]

/-- Both are of one size, and they agree outside the range. -/
structure Within (start stop : Nat) (before after : Memory) : Prop where
  bits : after.bits = before.bits
  byteAt : ∀ address, address < before.size → ¬(start ≤ address ∧ address < stop) →
    after.byteAt address = before.byteAt address

namespace Within

/-- A memory left alone changes nowhere. -/
theorem refl (start stop : Nat) (memory : Memory) : Within start stop memory memory :=
  ⟨rfl, fun _ _ _ => rfl⟩

/-- Changing bytes in a range does not resize a memory. -/
theorem size (h : Within start stop before after) : after.size = before.size :=
  congrArg addressable h.bits

/-- Changes in a range followed by changes in it are changes in it. -/
theorem trans (h : Within start stop before middle) (hnext : Within start stop middle after) :
    Within start stop before after := by
  refine ⟨hnext.bits.trans h.bits, fun address haddress houtside => ?_⟩
  rw [hnext.byteAt address (h.size ▸ haddress) houtside]
  exact h.byteAt address haddress houtside

/-- Changes in a range are changes in any range around it. -/
theorem mono {first last : Nat} (h : Within start stop before after) (hfirst : first ≤ start)
    (hlast : stop ≤ last) : Within first last before after :=
  ⟨h.bits, fun address haddress houtside => h.byteAt address haddress (by omega)⟩

/-- Nothing changed outside the range. -/
theorem read_eq (h : Within start stop before after) (hsize : address + length ≤ before.size)
    (houtside : address + length ≤ start ∨ stop ≤ address) :
    after.read address length = before.read address length := by
  refine List.map_congr_left fun offset hoffset => ?_
  have hlength := List.mem_range.mp hoffset
  exact h.byteAt _ (by omega) (by omega)

/-- An equal memory has not changed anywhere. -/
theorem of_eq (h : after = before) : Within start stop before after :=
  h ▸ refl start stop before

end Within

/-- What remains of stored bytes when data is programmed over them. -/
def mask (old new : Bytes) : Bytes :=
  List.zipWith (· &&& ·) old new

/-- The bytes were programmed at an address, and nothing else changed. -/
structure Masked (start : Nat) (bytes : Bytes) (before after : Memory) : Prop extends
    Within start (start + bytes.length) before after where
  read_eq : after.read start bytes.length = mask (before.read start bytes.length) bytes

/-- Without data nothing is masked. -/
theorem masked_nil (start : Nat) (memory : Memory) : Masked start [] memory memory :=
  ⟨.refl _ _ memory, rfl⟩

/-- Adjoining ranges that are programmed one after the other are programmed. -/
theorem Masked.append {first second : Bytes} (h : Masked start first before middle)
    (hnext : Masked (start + first.length) second middle after)
    (hsize : start + first.length + second.length ≤ before.size) :
    Masked start (first ++ second) before after := by
  have hlength : (first ++ second).length = first.length + second.length := List.length_append
  have hmiddle := h.toWithin.read_eq hsize (.inr (Nat.le_refl _))
  have hafter : after.read start first.length = middle.read start first.length :=
    hnext.toWithin.read_eq (by rw [h.size]; omega) (.inl (Nat.le_refl _))
  refine ⟨?_, ?_⟩
  · rw [hlength]
    exact (h.toWithin.mono (Nat.le_refl _) (by omega)).trans
      (hnext.toWithin.mono (by omega) (by omega))
  · rw [hlength, read_add, read_add, hafter, h.read_eq, hnext.read_eq, hmiddle]
    refine (List.zipWith_append ?_).symm
    simp [length_read]

/-- Each byte that is programmed keeps the bits that are set in both. -/
theorem Masked.byteAt_eq (h : Masked start bytes before after) {offset : Nat}
    (hoffset : offset < bytes.length) :
    after.byteAt (start + offset) = before.byteAt (start + offset) &&& bytes[offset] := by
  have hbyte := congrArg (·[offset]?) h.read_eq
  simpa [read, mask, hoffset] using hbyte

/-- A byte that does not reach past the end of its page goes where it was addressed to. -/
theorem programCell_of_lt {offset : Nat} (memory : Memory)
    (hpage : start % pageSize + offset < pageSize) (hsize : start + offset < memory.size) :
    memory.programCell start offset = start + offset := by
  have hstart : memory.index start = start := index_of_lt (by omega)
  have hdiv := Nat.div_add_mod start pageSize
  have hmod : (start + offset) % pageSize = start % pageSize + offset := by
    rw [Nat.add_mod, Nat.mod_eq_of_lt (show offset < pageSize by omega), Nat.mod_eq_of_lt hpage]
  unfold programCell pageBase
  rw [hstart, hmod, Nat.mul_comm]
  omega

/-- One byte programmed. -/
theorem masked_programByte {start offset : Nat} (course : Programming) (byte : UInt8)
    (hpage : start % pageSize + offset < pageSize)
    (hsize : start + offset < course.memory.size) :
    Masked (start + offset) [byte] course.memory
      (programByte start course (byte, offset)).memory := by
  have hcell := programCell_of_lt course.memory hpage hsize
  have hset : (programByte start course (byte, offset)).memory =
      course.memory.set (start + offset) (course.memory.byteAt (start + offset) &&& byte) := by
    unfold programByte
    rw [hcell]
  rw [hset]
  refine ⟨⟨rfl, fun address haddress houtside => ?_⟩, ?_⟩
  · rw [byteAt_set, index_of_lt haddress, index_of_lt hsize, if_neg]
    simp only [List.length_singleton] at houtside
    omega
  · simp [read, mask, byteAt_set]

/-- Programming bytes within a page masks them one by one. -/
theorem masked_programs {start : Nat} (offset : Nat) (course : Programming) (bytes : Bytes)
    (hpage : start % pageSize + offset + bytes.length ≤ pageSize)
    (hsize : start + offset + bytes.length ≤ course.memory.size) :
    Masked (start + offset) bytes course.memory
      ((bytes.zipIdx offset).foldl (programByte start) course).memory := by
  induction bytes generalizing offset course with
  | nil => exact masked_nil _ _
  | cons byte rest ih =>
      rw [List.length_cons] at hpage hsize
      have hfirst := masked_programByte course byte (show start % pageSize + offset < pageSize by
        omega) (by omega)
      have hrest := ih (offset + 1) (programByte start course (byte, offset)) (by omega)
        (by rw [hfirst.size]; omega)
      exact hfirst.append hrest (by rw [List.length_singleton]; omega)

/-- Data within one page is programmed where it belongs. -/
theorem masked_program (memory : Memory) (hpage : start % pageSize + bytes.length ≤ pageSize)
    (hsize : start + bytes.length ≤ memory.size) :
    Masked start bytes memory (memory.program start bytes).memory :=
  masked_programs 0 ⟨memory, true, false⟩ bytes hpage hsize

/-- An erase changes nothing but its unit. -/
theorem within_eraseUnit (memory : Memory) {unitBits : Nat} (hdvd : addressable unitBits ∣ start)
    (hsize : start < memory.size) :
    Within start (start + addressable unitBits) memory (memory.eraseUnit unitBits start) := by
  obtain ⟨unit, rfl⟩ := hdvd
  have hpos := addressable_pos unitBits
  refine ⟨rfl, fun address haddress houtside => ?_⟩
  rw [byteAt_eraseUnit, index_of_lt haddress, index_of_lt hsize, if_neg]
  rw [Nat.mul_div_cancel_left unit hpos]
  intro hunit
  have hdiv := Nat.div_add_mod address (addressable unitBits)
  have hmod := Nat.mod_lt address hpos
  rw [hunit] at hdiv
  omega

/-- An erase sets every byte of its unit to ones. -/
theorem read_eraseUnit (memory : Memory) {unitBits : Nat} (hdvd : addressable unitBits ∣ start)
    (hsize : start + addressable unitBits ≤ memory.size) :
    (memory.eraseUnit unitBits start).read start (addressable unitBits) =
      List.replicate (addressable unitBits) Bytes.erased := by
  obtain ⟨unit, rfl⟩ := hdvd
  have hpos := addressable_pos unitBits
  refine List.eq_replicate_iff.mpr ⟨length_read .., fun byte hbyte => ?_⟩
  obtain ⟨offset, hoffset, rfl⟩ := List.mem_map.mp hbyte
  have hlt := List.mem_range.mp hoffset
  rw [byteAt_eraseUnit, index_of_lt (by omega), index_of_lt (by omega), if_pos]
  rw [Nat.mul_div_cancel_left unit hpos, Nat.mul_add_div hpos, Nat.div_eq_of_lt hlt, Nat.add_zero]

/-! ## Clearing -/

/-- Both are of one size, and they agree at the places that are not to be cleared. -/
structure Spared (cleared : Nat → Prop) (before after : Memory) : Prop where
  bits : after.bits = before.bits
  byteAt : ∀ place, place < before.size → ¬cleared place → after.byteAt place = before.byteAt place

/-- The places to be cleared hold ones, and nothing else changed. -/
structure Cleared (cleared : Nat → Prop) (before after : Memory) : Prop extends
    Spared cleared before after where
  erased : ∀ place, place < before.size → cleared place → after.byteAt place = Bytes.erased

section Cleared

variable {first second cleared : Nat → Prop}

/-- Sparing bytes does not resize a memory. -/
theorem Spared.size (h : Spared cleared before after) : after.size = before.size :=
  congrArg addressable h.bits

/-- In an equal memory everything is spared. -/
theorem Spared.of_eq (h : after = before) : Spared cleared before after :=
  h ▸ ⟨rfl, fun _ _ _ => rfl⟩

/-- What is spared outside of less is spared outside of more. -/
theorem Spared.mono (h : Spared first before after) (hsub : ∀ place, first place → cleared place) :
    Spared cleared before after :=
  ⟨h.bits, fun place hplace hspared => h.byteAt place hplace (mt (hsub place) hspared)⟩

/-- What neither of two changes touches is spared by both. -/
theorem Spared.trans (h : Spared first before middle) (hnext : Spared second middle after)
    (hsub : ∀ place, first place ∨ second place → cleared place) :
    Spared cleared before after := by
  have hfirst := h.mono fun place hplace => hsub place (.inl hplace)
  have hsecond := hnext.mono fun place hplace => hsub place (.inr hplace)
  refine ⟨hsecond.bits.trans hfirst.bits, fun place hplace hspared => ?_⟩
  rw [hsecond.byteAt place (h.size ▸ hplace) hspared]
  exact hfirst.byteAt place hplace hspared

/-- Where nothing is to be cleared, the memory is left alone. -/
theorem cleared_nothing (memory : Memory) (hnothing : ∀ place, ¬cleared place) :
    Cleared cleared memory memory :=
  ⟨.of_eq rfl, fun place _ hplace => absurd hplace (hnothing place)⟩

/-- Two changes that clear one after the other clear what either of them clears. -/
theorem Cleared.trans (h : Cleared first before middle) (hnext : Cleared second middle after)
    (hall : ∀ place, cleared place ↔ first place ∨ second place) :
    Cleared cleared before after := by
  refine ⟨h.toSpared.trans hnext.toSpared fun place => (hall place).mpr, ?_⟩
  intro place hplace hcleared
  have hmiddle : place < middle.size := h.size ▸ hplace
  by_cases hagain : second place
  · exact hnext.erased place hmiddle hagain
  · rw [hnext.byteAt place hmiddle hagain]
    exact h.erased place hplace (((hall place).mp hcleared).resolve_right hagain)

end Cleared

/-! ## What a mask leaves -/

/-- Data programmed over erased bytes is stored as it is. -/
theorem mask_replicate_erased (bytes : Bytes) :
    mask (List.replicate bytes.length Bytes.erased) bytes = bytes := by
  induction bytes with
  | nil => rfl
  | cons byte rest ih =>
      have hbyte : Bytes.erased &&& byte = byte := UInt8.neg_one_and
      simpa [mask, List.replicate_succ, hbyte] using ih

/-- Data is stored as it is where it differs from erased bytes only. -/
theorem mask_of_differs {old new : Bytes} (hlength : old.length = new.length)
    (h : ((new.zip old).any fun (new, old) => new != old && old != Bytes.erased) = false) :
    mask old new = new := by
  induction new generalizing old with
  | nil => simp [mask]
  | cons byte rest ih =>
      cases old with
      | nil => simp at hlength
      | cons stored others =>
          simp only [List.zip_cons_cons, List.any_cons, Bool.or_eq_false_iff] at h
          have hbyte : stored &&& byte = byte := by
            have hcases : byte = stored ∨ stored = Bytes.erased := by
              by_cases hsame : byte = stored
              · exact .inl hsame
              · exact .inr (by simpa [hsame] using h.1)
            rcases hcases with rfl | rfl
            · exact UInt8.and_self
            · exact UInt8.neg_one_and
          have hrest : mask others rest = rest := ih (by simpa using hlength) h.2
          simpa [mask, hbyte] using hrest

/-- A part of what is read. -/
theorem read_part (memory : Memory) {address length offset part : Nat}
    (h : offset + part ≤ length) :
    memory.read (address + offset) part = ((memory.read address length).drop offset).take part := by
  obtain ⟨rest, rfl⟩ : ∃ rest, length = offset + (part + rest) := ⟨length - offset - part, by omega⟩
  have hread := length_read memory
  rw [read_add, read_add, List.drop_append_of_le_length (Nat.le_of_eq (hread ..).symm),
    List.drop_eq_nil_of_le (Nat.le_of_eq (hread ..)), List.nil_append,
    List.take_append_of_le_length (Nat.le_of_eq (hread ..).symm),
    List.take_of_length_le (Nat.le_of_eq (hread ..))]

end Memory

end NorFlash
