import Mathlib.Data.List.FinRange
import NorFlash.Proofs.Chip.Storage
import NorFlash.Proofs.Page

/-!
# Data laid over bytes

`Bytes.maskAt` is what data laid over memory from an address on leaves of the byte at a place: all
of it where the data does not reach. Whether a bit is left depends only on the masks that are laid
over it and not on their order or grouping, so data can be cut into pieces, `foldl_maskAt_cut`, and
the pieces of several callers can be sorted by caller, `foldl_and_byCaller`. Of the pieces of one
caller's data, each does nothing at a place or all that the data does: `maskAt_of_mem_cut`.
-/

namespace NorFlash

/-- The bits that data at an address leaves of the byte at a place. -/
def Bytes.maskAt (address : Nat) (bytes : Bytes) (place : Nat) : UInt8 :=
  if address ≤ place then bytes.getD (place - address) Bytes.erased else Bytes.erased

namespace Bytes

variable {address place : Nat}

/-- Programming onto an erased byte stores the data. -/
theorem erased_and (byte : UInt8) : erased &&& byte = byte :=
  UInt8.neg_one_and

/-- Programming an erased byte changes nothing. -/
theorem and_erased (byte : UInt8) : byte &&& erased = byte :=
  UInt8.and_neg_one

/-- No data masks nothing. -/
theorem maskAt_nil (address place : Nat) : maskAt address [] place = erased := by
  simp [maskAt]

/-- Data masks nothing outside its range. -/
theorem maskAt_outside {bytes : Bytes}
    (h : ¬(address ≤ place ∧ place < address + bytes.length)) :
    maskAt address bytes place = erased := by
  unfold maskAt
  split
  · rw [List.getD, List.getElem?_eq_none (by omega)]
    rfl
  · rfl

/-- Data in two parts reaches a place with one of them at most. -/
theorem maskAt_append (address : Nat) (first second : Bytes) (place : Nat) :
    maskAt address (first ++ second) place =
      maskAt address first place &&& maskAt (address + first.length) second place := by
  unfold maskAt
  by_cases hbefore : address ≤ place
  · by_cases hfirst : place - address < first.length
    · rw [if_pos hbefore, if_pos hbefore, if_neg (by omega), and_erased]
      simp [List.getD, List.getElem?_append_left hfirst]
    · rw [if_pos hbefore, if_pos hbefore, if_pos (by omega)]
      have hrest : place - address - first.length = place - (address + first.length) := by omega
      have hnone : first[place - address]? = none := List.getElem?_eq_none (by omega)
      simp [List.getD, List.getElem?_append_right (Nat.le_of_not_lt hfirst), hrest, hnone,
        erased_and]
  · rw [if_neg hbefore, if_neg hbefore, if_neg (by omega), and_erased]

end Bytes

namespace Page

/-- The first piece of data, and the rest. -/
theorem maskAt_room (address : Nat) (bytes : Bytes) (place : Nat) :
    Bytes.maskAt address bytes place =
      Bytes.maskAt address (bytes.take (room address)) place &&&
        Bytes.maskAt (address + room address) (bytes.drop (room address)) place := by
  have hsplit := Bytes.maskAt_append address (bytes.take (room address))
    (bytes.drop (room address)) place
  rw [List.take_append_drop] at hsplit
  rw [hsplit]
  by_cases hmore : room address ≤ bytes.length
  · rw [List.length_take_of_le hmore]
  · rw [List.drop_eq_nil_of_le (by omega), Bytes.maskAt_nil, Bytes.maskAt_nil]

/-- Data laid over a byte page by page is laid over it as a whole. -/
theorem foldl_maskAt_cut (address : Nat) (bytes : Bytes) (place : Nat) (byte : UInt8) :
    (cut address bytes).foldl
        (fun byte piece => byte &&& Bytes.maskAt piece.address piece.bytes place) byte =
      byte &&& Bytes.maskAt address bytes place := by
  fun_induction cut address bytes generalizing byte with
  | case1 address => simp [Bytes.maskAt_nil, Bytes.and_erased]
  | case2 address bytes h ih =>
      rw [List.foldl_cons, ih, maskAt_room address bytes, UInt8.and_assoc]

/-- A piece of data does not reach a place, or it is what the data leaves there. -/
theorem maskAt_of_mem_cut {address : Nat} {bytes : Bytes} (place : Nat) :
    ∀ piece ∈ cut address bytes,
      Bytes.maskAt piece.address piece.bytes place = Bytes.erased ∨
        Bytes.maskAt piece.address piece.bytes place = Bytes.maskAt address bytes place := by
  fun_induction cut address bytes with
  | case1 => simp
  | case2 address bytes h ih =>
      -- A place is beyond the first piece, or before the rest.
      have hreach : Bytes.maskAt address (bytes.take (room address)) place = Bytes.erased ∨
          Bytes.maskAt (address + room address) (bytes.drop (room address)) place =
            Bytes.erased := by
        have htake : (bytes.take (room address)).length ≤ room address := List.length_take_le ..
        by_cases hfirst : place < address + room address
        · exact .inr (Bytes.maskAt_outside (by omega))
        · exact .inl (Bytes.maskAt_outside (by omega))
      rw [maskAt_room address bytes]
      rintro piece (_ | ⟨_, hrest⟩)
      · refine hreach.imp id fun hnone => ?_
        rw [hnone, Bytes.and_erased]
      · rcases ih piece hrest with hpiece | hpiece
        · exact .inl hpiece
        · rw [hpiece]
          refine hreach.symm.imp id fun hnone => ?_
          rw [hnone, Bytes.erased_and]

end Page

/-- A program leaves of each byte what its data does. -/
theorem Memory.Masked.byteAt_mask {start place : Nat} {bytes : Bytes} {before after : Memory}
    (h : Masked start bytes before after) (hplace : place < before.size) :
    after.byteAt place = before.byteAt place &&& Bytes.maskAt start bytes place := by
  by_cases hinside : start ≤ place ∧ place < start + bytes.length
  · obtain ⟨offset, rfl⟩ := Nat.exists_eq_add_of_le hinside.1
    have hoffset : offset < bytes.length := by omega
    rw [h.byteAt_eq hoffset]
    simp [Bytes.maskAt, hoffset]
  · rw [h.byteAt place hplace hinside]
    rw [Bytes.maskAt_outside hinside, Bytes.and_erased]

section Order

variable {α : Type} {count : Nat} (mask : α → UInt8)

/-- A bit is left exactly if every mask leaves it. -/
theorem getLsbD_foldl_and (list : List α) (byte : UInt8) (bit : Nat) :
    (list.foldl (fun byte item => byte &&& mask item) byte).toBitVec.getLsbD bit = true ↔
      byte.toBitVec.getLsbD bit = true ∧
        ∀ item ∈ list, (mask item).toBitVec.getLsbD bit = true := by
  induction list generalizing byte with
  | nil => simp
  | cons first rest ih =>
      rw [List.foldl_cons, ih]
      simp [and_assoc]

/-- Bytes are equal if their bits are. -/
theorem eq_of_getLsbD {first second : UInt8}
    (h : ∀ bit < 8, first.toBitVec.getLsbD bit = true ↔ second.toBitVec.getLsbD bit = true) :
    first = second :=
  UInt8.toBitVec_inj.mp (BitVec.eq_of_getLsbD_eq fun bit hbit => Bool.eq_iff_iff.mpr (h bit hbit))

/-- Masks of several callers may be laid over a byte caller by caller, whatever their order. -/
theorem foldl_and_byCaller (list : List (Fin count × α)) (byte : UInt8)
    (whole : Fin count → UInt8)
    (hwhole : ∀ who byte, ((list.filter (·.1 = who)).map Prod.snd).foldl
      (fun byte item => byte &&& mask item) byte = byte &&& whole who) :
    list.foldl (fun byte item => byte &&& mask item.2) byte =
      (List.finRange count).foldl (fun byte who => byte &&& whole who) byte := by
  -- For one bit both sides say that every mask leaves it, and every mask belongs to one caller.
  refine eq_of_getLsbD fun bit hbit => ?_
  rw [getLsbD_foldl_and (fun item : Fin count × α => mask item.2), getLsbD_foldl_and whole]
  have herased : Bytes.erased.toBitVec.getLsbD bit = true :=
    (show ∀ bit < 8, Bytes.erased.toBitVec.getLsbD bit = true by decide) bit hbit
  have hcaller : ∀ who, (whole who).toBitVec.getLsbD bit = true ↔
      ∀ item, (who, item) ∈ list → (mask item).toBitVec.getLsbD bit = true := by
    intro who
    have hfold := getLsbD_foldl_and mask ((list.filter (·.1 = who)).map Prod.snd) Bytes.erased bit
    rw [hwhole, Bytes.erased_and] at hfold
    simpa [herased] using hfold
  refine and_congr_right fun _ => ⟨fun h who _ => (hcaller who).mpr fun item => h (who, item), ?_⟩
  exact fun h item hitem => (hcaller item.1).mp (h item.1 (List.mem_finRange _)) item.2 hitem

end Order

end NorFlash
