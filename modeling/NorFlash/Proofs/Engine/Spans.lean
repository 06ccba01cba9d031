import Mathlib.Data.List.Chain
import NorFlash.Engine.Read
import NorFlash.Proofs.Chip.Storage

/-!
# The parts of a divided range

A read is divided into parts of one size, the last one excepted. `adjoining_spans` says that they
adjoin: none is empty, and each begins where the one before it ends. What is known of parts that
adjoin is known by induction along them: they are exactly their range (`Adjoining.mem_iff`), they
are disjoint, read one by one they are the range read at once, and their ends count up to its end.
-/

namespace NorFlash

/-- Parts from one address up to another, each with its address and its length: none is empty, and
each begins where the one before it ends. -/
inductive Adjoining : Nat → Nat → List (Nat × Nat) → Prop where
  | nil (place : Nat) : Adjoining place place []
  | cons {start length stop rest} (hlength : 0 < length)
      (hrest : Adjoining (start + length) stop rest) :
      Adjoining start stop ((start, length) :: rest)

namespace Adjoining

variable {start stop size place : Nat} {parts rest : List (Nat × Nat)} {part : Nat × Nat}

/-- Parts that adjoin do not end before they begin. -/
theorem le (h : Adjoining start stop parts) : start ≤ stop := by
  induction h with
  | nil => exact Nat.le_refl _
  | cons _ _ ih => omega

/-- A range that is not empty has parts. -/
theorem ne_nil (h : Adjoining start stop parts) (hlt : start < stop) : parts ≠ [] := by
  rintro rfl
  cases h
  omega

/-- Each part lies within the range. -/
theorem within (h : Adjoining start stop parts) (hpart : part ∈ parts) :
    start ≤ part.1 ∧ 0 < part.2 ∧ part.1 + part.2 ≤ stop := by
  induction h with
  | nil => exact absurd hpart List.not_mem_nil
  | cons hlength hrest ih =>
      rcases List.mem_cons.mp hpart with rfl | hlater
      · exact ⟨Nat.le_refl _, hlength, hrest.le⟩
      · obtain ⟨hfirst, hpositive, hlast⟩ := ih hlater
        exact ⟨by omega, hpositive, hlast⟩

/-- The parts as they are further up. -/
theorem shift (h : Adjoining start stop parts) (address : Nat) :
    Adjoining (address + start) (address + stop)
      (parts.map fun part => (address + part.1, part.2)) := by
  induction h with
  | nil => exact .nil _
  | cons hlength _ ih => exact .cons hlength (Nat.add_assoc .. ▸ ih)

/-- Together the parts are the range. -/
theorem mem_iff (h : Adjoining start stop parts) :
    (∃ part ∈ parts, part.1 ≤ place ∧ place < part.1 + part.2) ↔ start ≤ place ∧ place < stop := by
  induction h with
  | nil => simp
  | cons hlength hrest ih =>
      have hle := hrest.le
      simp only [List.exists_mem_cons_iff, ih]
      omega

/-- Each part ends before every later one begins. -/
theorem disjoint (h : Adjoining start stop parts) :
    parts.Pairwise fun part later => part.1 + part.2 ≤ later.1 := by
  induction h with
  | nil => exact .nil
  | cons _ hrest ih => exact .cons (fun later hlater => (hrest.within hlater).1) ih

/-- Each part begins where the one before it ends. -/
theorem consecutive (h : Adjoining start stop parts) :
    parts.IsChain fun part next => next.1 = part.1 + part.2 := by
  induction h with
  | nil => exact .nil
  | cons _ hrest ih =>
      refine List.isChain_cons.mpr ⟨fun next hnext => ?_, ih⟩
      cases hrest with
      | nil => cases hnext
      | cons => exact Option.some.inj hnext ▸ rfl

/-- The parts, read one by one, are the range. -/
theorem flatten_read (h : Adjoining start stop parts) (memory : Memory) (address : Nat) :
    (parts.map fun part => memory.read (address + part.1) part.2).flatten =
      memory.read (address + start) (stop - start) := by
  induction h with
  | nil place => rw [Nat.sub_self]; rfl
  | @cons start length stop rest hlength hrest ih =>
      have hle := hrest.le
      have hsplit : stop - start = length + (stop - (start + length)) := by omega
      rw [List.map_cons, List.flatten_cons, ih, hsplit, Memory.read_add, Nat.add_assoc]

/-- The ends of parts of a limited size rise to the end of the range by no more than that size. -/
theorem paced (h : Adjoining start stop parts) (hsize : ∀ part ∈ parts, part.2 ≤ size) :
    (start :: (parts.map fun part => part.1 + part.2) ++ [stop]).IsChain fun count next =>
      count ≤ next ∧ next ≤ count + size := by
  induction h with
  | nil place => exact .cons_cons ⟨Nat.le_refl _, Nat.le_add_right ..⟩ (.singleton _)
  | cons hlength hrest ih =>
      obtain ⟨hfirst, hlater⟩ := List.forall_mem_cons.mp hsize
      exact .cons_cons ⟨Nat.le_add_right .., Nat.add_le_add_left hfirst _⟩ (ih hlater)

end Adjoining

/-- Parts that divide a range, in ascending order: none is empty, each begins where the one before
it ends, no two of them overlap, and together they are exactly the range. -/
structure Divides (start stop : Nat) (parts : List (Nat × Nat)) : Prop where
  nonempty : ∀ part ∈ parts, 0 < part.2
  consecutive : parts.IsChain fun part next => next.1 = part.1 + part.2
  disjoint : parts.Pairwise fun part later => part.1 + part.2 ≤ later.1
  exactly : ∀ place, (∃ part ∈ parts, part.1 ≤ place ∧ place < part.1 + part.2) ↔
    start ≤ place ∧ place < stop

/-- Parts that adjoin divide their range. -/
theorem Adjoining.divides {start stop : Nat} {parts : List (Nat × Nat)}
    (h : Adjoining start stop parts) : Divides start stop parts where
  nonempty _ hpart := (h.within hpart).2.1
  consecutive := h.consecutive
  disjoint := h.disjoint
  exactly _ := h.mem_iff

/-- Counts of what has been done of so much: they rise from nothing to all of it, each by no more
than the size of a part. -/
structure Paced (size total : Nat) (counts : List Nat) : Prop where
  first : counts.head? = some 0
  steps : counts.IsChain fun count next => count ≤ next ∧ next ≤ count + size
  bounded : ∀ count ∈ counts, count ≤ total
  last : counts.getLast? = some total

namespace Engine

variable {length size : Nat} {span : Nat × Nat}

/-- A transfer has room for a byte at least. -/
theorem transferSize_pos (length : Nat) : 0 < transferSize length :=
  Nat.lt_of_lt_of_le (by decide) (Nat.le_max_left ..)

/-- Every part of a divided range begins within it. -/
theorem lt_of_lt_parts {part : Nat} (hsize : 0 < size)
    (h : part < (length + size - 1) / size) : part * size < length := by
  have hlt := (Nat.le_div_iff_mul_le hsize).mp h
  rw [Nat.succ_mul] at hlt
  omega

/-- So many parts are enough exactly if so many times their size is. -/
theorem length_spans_le_iff (hsize : 0 < size) {count : Nat} :
    (spans length size).length ≤ count ↔ length ≤ count * size := by
  rw [spans, List.length_map, List.length_range, Nat.div_le_iff_le_mul_add_pred hsize,
    Nat.mul_comm size]
  omega

/-- No part is larger than the size it was cut to. -/
theorem size_le_of_mem_spans (h : span ∈ spans length size) : span.2 ≤ size := by
  obtain ⟨part, -, rfl⟩ := List.mem_map.mp h
  exact Nat.min_le_left ..

/-- The parts are as few as wanted exactly if the range is small or its parts need no rounding. -/
theorem length_spans_transferSize_le_iff :
    (spans length (transferSize length)).length ≤ mostTransfers ↔
      length ≤ mostTransfers * leastTransfer ∨ mostTransfers ∣ length := by
  rw [length_spans_le_iff (transferSize_pos length), transferSize, mostTransfers, leastTransfer]
  omega

/-- A read is divided into one transfer too many at most. -/
theorem length_spans_transferSize_le_succ (length : Nat) :
    (spans length (transferSize length)).length ≤ mostTransfers + 1 := by
  rw [length_spans_le_iff (transferSize_pos length), transferSize, mostTransfers, leastTransfer]
  omega

/-- The last so many parts of a divided range adjoin: they begin where the others end. -/
theorem adjoining_spans_from (hsize : 0 < size) (left : Nat) {first : Nat}
    (hfirst : first + left = (length + size - 1) / size) :
    Adjoining (min (first * size) length) length
      ((List.range' first left).map fun part =>
        (part * size, min size (length - part * size))) := by
  induction left generalizing first with
  | zero =>
      have hall : length ≤ (spans length size).length * size :=
        (length_spans_le_iff hsize).mp (Nat.le_refl _)
      rw [spans, List.length_map, List.length_range, ← hfirst, Nat.add_zero] at hall
      rw [Nat.min_eq_right hall]
      exact .nil length
  | succ left ih =>
      have hstart := lt_of_lt_parts hsize (show first < (length + size - 1) / size by omega)
      have hnext : first * size + min size (length - first * size) =
          min ((first + 1) * size) length := by
        rw [Nat.succ_mul]
        omega
      rw [List.range'_succ, List.map_cons, Nat.min_eq_left (Nat.le_of_lt hstart)]
      refine .cons (by omega) ?_
      rw [hnext]
      exact ih (by omega)

/-- The parts of a divided range adjoin. -/
theorem adjoining_spans (length : Nat) (hsize : 0 < size) :
    Adjoining 0 length (spans length size) := by
  have hall := adjoining_spans_from hsize _ (Nat.zero_add ((length + size - 1) / size))
  rwa [Nat.zero_mul, Nat.zero_min, ← List.range_eq_range'] at hall

/-- The parts of a divided range, read one by one, are the range. -/
theorem flatten_spans (memory : Memory) (address length : Nat) (hsize : 0 < size) :
    ((spans length size).map fun span => memory.read (address + span.1) span.2).flatten =
      memory.read address length :=
  (adjoining_spans length hsize).flatten_read memory address

/-- The parts of a divided range, counted from nothing to the whole range. -/
theorem paced_spans (length : Nat) (hsize : 0 < size) :
    Paced size length (0 :: ((spans length size).map fun span => span.1 + span.2) ++ [length]) where
  first := rfl
  steps := (adjoining_spans length hsize).paced fun _ hspan => size_le_of_mem_spans hspan
  bounded := by
    intro count hcount
    rcases List.mem_append.mp hcount with hearlier | hlast
    · rcases List.mem_cons.mp hearlier with rfl | hpart
      · exact Nat.zero_le length
      · obtain ⟨span, hspan, rfl⟩ := List.mem_map.mp hpart
        exact ((adjoining_spans length hsize).within hspan).2.2
    · exact Nat.le_of_eq (List.mem_singleton.mp hlast)
  last := List.getLast?_concat ..

end Engine

end NorFlash
