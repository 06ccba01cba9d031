import NorFlash.Bytes.Basic

/-!
# Pages

A program instruction fills at most one page, and wraps around within it, so longer data is cut at
the page boundaries. `Page.cut_of_ne_nil` is the step of that rule: each piece ends where its page
ends or where the data ends.
-/

namespace NorFlash

/-- The bytes of a page, the most that one program instruction can change. -/
def pageSize : Nat := 256

/-- A stretch of data that lies within one page. -/
structure PagePiece where
  address : Nat
  bytes : Bytes
  deriving DecidableEq

namespace Page

/-- The bytes from an address to the end of its page. -/
def room (address : Nat) : Nat :=
  pageSize - address % pageSize

/-- From any address on there is room in its page. -/
theorem room_pos (address : Nat) : 0 < room address := by
  have := Nat.mod_lt address (show 0 < pageSize by decide)
  unfold room
  omega

/-- Data cut at the page boundaries, in ascending order of address. -/
def cut (address : Nat) (bytes : Bytes) : List PagePiece :=
  if _h : bytes = [] then []
  else
    ⟨address, bytes.take (room address)⟩ ::
      cut (address + room address) (bytes.drop (room address))
termination_by bytes.length
decreasing_by
  have := room_pos address
  have := List.length_pos_iff.mpr _h
  rw [List.length_drop]
  omega

/-- No data makes no pieces. -/
theorem cut_nil (address : Nat) : cut address [] = [] := by
  rw [cut]
  simp

/-- The first piece takes what its page has room for, and the rest is cut from there. -/
theorem cut_of_ne_nil (address : Nat) {bytes : Bytes} (h : bytes ≠ []) :
    cut address bytes =
      ⟨address, bytes.take (room address)⟩ ::
        cut (address + room address) (bytes.drop (room address)) := by
  rw [cut]
  simp [h]

/-- Nothing is lost: the pieces joined together are the data. -/
theorem flatMap_cut (address : Nat) (bytes : Bytes) :
    ((cut address bytes).flatMap fun piece => piece.bytes) = bytes := by
  fun_induction cut address bytes with
  | case1 => rfl
  | case2 address bytes h ih => simp [ih]

end Page

end NorFlash
