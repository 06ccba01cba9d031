import NorFlash.Proofs.Engine.Checks
import NorFlash.Proofs.Page

/-!
# Operations in word arithmetic

An engine adds and converts addresses and lengths in words of 32 and 64 bits. `WordArithmetic` is
any arithmetic that is exact as long as the result fits its word. Reads, writes and erases are
stated again in such an arithmetic, and are the operations of the engine whichever it is: for the
devices of the catalog no result that is used fails to fit.
-/

namespace NorFlash

namespace Action

variable {α β : Type}

/-- What follows a check matters only if the check is passed. -/
theorem ofExcept_bind_congr {check : Except Fault α} {first second : α → Action β}
    (h : ∀ value, check = .ok value → first value = second value) :
    (MonadExcept.ofExcept check : Action α) >>= first =
      (MonadExcept.ofExcept check : Action α) >>= second := by
  cases check with
  | error fault => rfl
  | ok value => exact h value rfl

/-- Lists of actions are the same if each action is. -/
theorem forM_congr {list : List α} {first second : α → Action Unit}
    (h : ∀ item ∈ list, first item = second item) : list.forM first = list.forM second := by
  have hmap (action : α → Action Unit) : (list.map action).forM id = list.forM action :=
    List.forM_map
  rw [← hmap first, ← hmap second, List.map_congr_left h]

end Action

/-- Arithmetic on words of so many bits. What becomes of a result that does not fit is left open. -/
structure WordArithmetic where
  add : (bits first second : Nat) → Nat
  mul : (bits first second : Nat) → Nat
  /-- A number of any size as a word. -/
  cast : (bits number : Nat) → Nat
  add_eq : ∀ {bits first second}, first + second < addressable bits →
    add bits first second = first + second
  mul_eq : ∀ {bits first second}, first * second < addressable bits →
    mul bits first second = first * second
  cast_eq : ∀ {bits number}, number < addressable bits → cast bits number = number

namespace WordArithmetic

/-- Arithmetic that keeps the low bits of a result. -/
def wrapping : WordArithmetic where
  add bits first second := (first + second) % addressable bits
  mul bits first second := first * second % addressable bits
  cast bits number := number % addressable bits
  add_eq := Nat.mod_eq_of_lt
  mul_eq := Nat.mod_eq_of_lt
  cast_eq := Nat.mod_eq_of_lt

/-- Addition that ends at the largest word, in any arithmetic. -/
def saturatingAdd (bits first second : Nat) : Nat :=
  min (first + second) (addressable bits - 1)

variable (words : WordArithmetic) (engine : Engine)

/-! ## The operations -/

/-- As `Engine.checkRange`, with the end of the range in 64 bits. -/
def checkRange (address : UInt32) (length : Nat) : Except Fault Unit :=
  let stop := saturatingAdd 64 address.toNat length
  if engine.capacity < stop then
    .error (.addressOutOfRange (UInt32.ofNat (words.cast 32 (min (stop - 1) lastAddress))))
  else
    .ok ()

/-- As `Engine.readInto`. -/
def readInto (address : UInt32) (buffer : Bytes) : Program (Except Fault Unit × Bytes) :=
  match engine.requireDevice with
  | .error fault => return (.error fault, buffer)
  | .ok device =>
      if buffer = [] then
        return (.ok (), buffer)
      else
        match words.checkRange engine address buffer.length with
        | .error fault => return (.error fault, buffer)
        | .ok () => do
            match ← (engine.fetch device address buffer.length).run with
            | .error fault => return (.error fault, buffer)
            | .ok (received, outcome) => return (outcome, received.getD buffer)

/-- As `Engine.read`. -/
def read (address : UInt32) (length : Nat) : Action Bytes := do
  discard <| MonadExcept.ofExcept engine.requireDevice
  MonadExcept.ofExcept (words.checkRange engine address length)
  let (outcome, bytes) ← liftM (words.readInto engine address (List.replicate length 0))
  MonadExcept.ofExcept outcome
  return bytes

/-- As `Engine.readSector`. -/
def readSector (sector : UInt32) (length : Nat) : Action Bytes := do
  let address ← MonadExcept.ofExcept (engine.sectorAddress sector)
  words.read engine address length

/-- As `Engine.eraseSector`. -/
def eraseSector (sector : UInt32) : Action Unit := do
  let address ← MonadExcept.ofExcept (engine.sectorAddress sector)
  discard <| MonadExcept.ofExcept engine.requireDevice
  MonadExcept.ofExcept (words.checkRange engine address 1)
  engine.withBus do
    let width ← BusAction.width
    Engine.enableWrite
    let command := Command.instruct (EraseKind.unit .sector).opcode width
    discard <| BusAction.call (.command (command.atAddress address width))
    Engine.waitWhileBusy engine.timeouts.erase

/-- Programs pieces one after the other, `total` bytes being programmed before. Each begins so many
bytes after the first. -/
def programPieces (address : UInt32) : List PagePiece → (total : Nat) → Action Unit
  | [], _ => return ()
  | piece :: rest, total => do
      let start := words.add 32 address.toNat (words.cast 32 total)
      engine.pageProgram (UInt32.ofNat start) piece.bytes
      Action.report (words.add 64 total piece.bytes.length)
      programPieces address rest (words.add 64 total piece.bytes.length)

/-- As `Engine.write`. -/
def write (address : UInt32) (bytes : Bytes) : Action Unit :=
  Action.silenced do
    discard <| MonadExcept.ofExcept engine.requireDevice
    if bytes = [] then
      return ()
    else
      MonadExcept.ofExcept (words.checkRange engine address bytes.length)
      Action.report 0
      words.programPieces engine address (Page.cut address.toNat bytes) 0

/-! ## They are those of the engine -/

section Catalogued

variable {engine} (h : engine.Catalogued)

include h

/-- A range that ends beyond the largest word ends beyond the device, and is denied like one that
ends at that word. -/
theorem checkRange_eq (address : UInt32) (length : Nat) :
    words.checkRange engine address length = engine.checkRange address length := by
  have hcapacity := h.capacity_le
  have hdevice : addressable 24 < addressable 64 - 1 := by decide
  have hlast : lastAddress < addressable 64 - 2 := by decide
  have hword : lastAddress < addressable 32 := by decide
  have hstop : saturatingAdd 64 address.toNat length =
      min (address.toNat + length) (addressable 64 - 1) := rfl
  unfold checkRange Engine.checkRange
  dsimp only
  rw [words.cast_eq (Nat.lt_of_le_of_lt (Nat.min_le_right ..) hword)]
  by_cases hwithin : address.toNat + length ≤ engine.capacity
  · rw [if_neg (by omega), if_pos hwithin]
  · have hsame : min (saturatingAdd 64 address.toNat length - 1) lastAddress =
        min (address.toNat + length - 1) lastAddress := by omega
    rw [if_pos (by omega), if_neg hwithin, hsame]

/-- A read into a buffer is the same in any arithmetic of words. -/
theorem readInto_eq (address : UInt32) (buffer : Bytes) :
    words.readInto engine address buffer = engine.readInto address buffer := by
  have hcheck := words.checkRange_eq h address buffer.length
  unfold readInto Engine.readInto
  generalize words.checkRange engine address buffer.length = checked at hcheck ⊢
  subst hcheck
  cases engine.requireDevice with
  | error fault => rfl
  | ok device => cases engine.checkRange address buffer.length <;> rfl

/-- A read is the same in any arithmetic of words. -/
theorem read_eq (address : UInt32) (length : Nat) :
    words.read engine address length = engine.read address length := by
  unfold read Engine.read Engine.readZeroed
  rw [words.checkRange_eq h, words.readInto_eq h]

/-- A read from a sector is the same in any arithmetic of words. -/
theorem readSector_eq (sector : UInt32) (length : Nat) :
    words.readSector engine sector length = engine.readSector sector length := by
  unfold readSector Engine.readSector
  simp only [words.read_eq h]

/-- An erase of a sector is the same in any arithmetic of words. -/
theorem eraseSector_eq (sector : UInt32) :
    words.eraseSector engine sector = engine.eraseSector sector := by
  unfold eraseSector Engine.eraseSector Engine.erase
  simp only [words.checkRange_eq h]
  rfl

/-- The pieces of data within the device are programmed where they lie, and the number of bytes
before each is the sum of those programmed. -/
theorem programPieces_cut (address : UInt32) {total : Nat} {bytes : Bytes}
    (hrange : address.toNat + total + bytes.length ≤ engine.capacity) :
    words.programPieces engine address (Page.cut (address.toNat + total) bytes) total =
      (Page.cut (address.toNat + total) bytes).forM (engine.programPiece address.toNat) := by
  have hcapacity := h.capacity_le
  have hdevice : addressable 24 < addressable 32 := by decide
  have hcount : addressable 24 < addressable 64 := by decide
  generalize hstart : address.toNat + total = start at *
  fun_induction Page.cut start bytes generalizing total with
  | case1 => rfl
  | case2 start bytes hbytes ih =>
      have htaken : (bytes.take (Page.room start)).length = min (Page.room start) bytes.length :=
        List.length_take
      have hdropped : (bytes.drop (Page.room start)).length = bytes.length - Page.room start :=
        List.length_drop
      have hrest : words.programPieces engine address
          (Page.cut (start + Page.room start) (bytes.drop (Page.room start)))
          (total + (bytes.take (Page.room start)).length) =
          (Page.cut (start + Page.room start) (bytes.drop (Page.room start))).forM
            (engine.programPiece address.toNat) := by
        rcases Nat.lt_or_ge (Page.room start) bytes.length with hmore | hless
        · exact ih (by omega) (by omega)
        · rw [List.drop_eq_nil_of_le hless, Page.cut_nil]
          rfl
      rw [programPieces]
      dsimp only
      rw [words.cast_eq (by omega), words.add_eq (by omega), words.add_eq (by omega), hstart,
        hrest]
      show _ = engine.programPiece address.toNat _ >>= fun _ => List.forM _ _
      unfold Engine.programPiece
      rw [bind_assoc]
      dsimp only
      rw [← hstart, Nat.add_sub_cancel_left]

/-- A write is the same in any arithmetic of words. -/
theorem write_eq (address : UInt32) (bytes : Bytes) :
    words.write engine address bytes = engine.write address bytes := by
  unfold write Engine.write Engine.writeReporting
  rw [words.checkRange_eq h]
  refine congrArg Action.silenced (bind_congr fun _ => ?_)
  split
  · rfl
  · refine Action.ofExcept_bind_congr fun _ hrange => bind_congr fun _ => ?_
    have hpieces := @programPieces_cut words engine h address 0 bytes
      (Engine.checkRange_eq_ok_iff.mp hrange)
    rwa [Nat.add_zero] at hpieces

end Catalogued

end WordArithmetic

end NorFlash
