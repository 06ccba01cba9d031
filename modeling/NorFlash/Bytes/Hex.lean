import NorFlash.Bytes.Basic

/-!
# Hexadecimal text

Numbers in base sixteen with a least number of places, and byte strings with two digits a byte.
`Hex.toBytes?` reads what `Hex.ofBytes` writes.
-/

namespace NorFlash

namespace Hex

/-- `value` in base sixteen with lower-case letters, filled with zeros to at least `width`
places. -/
def lower (width value : Nat) : String :=
  let digits := Nat.toDigits 16 value
  String.ofList (List.replicate (width - digits.length) '0' ++ digits)

/-- As `lower`, with upper-case letters. -/
def upper (width value : Nat) : String :=
  (lower width value).map Char.toUpper

/-- The lower-case digit of a value below sixteen. -/
def digit (value : UInt8) : Char :=
  if value < 10 then Char.ofNat (value.toNat + 48) else Char.ofNat (value.toNat + 87)

/-- The value of a digit in either case. -/
def digit? (c : Char) : Option UInt8 :=
  if '0' ≤ c ∧ c ≤ '9' then some (UInt8.ofNat (c.toNat - 48))
  else if 'a' ≤ c ∧ c ≤ 'f' then some (UInt8.ofNat (c.toNat - 87))
  else if 'A' ≤ c ∧ c ≤ 'F' then some (UInt8.ofNat (c.toNat - 55))
  else none

/-- Two lower-case digits a byte, without separators. -/
def ofBytes (bytes : Bytes) : String :=
  String.ofList (bytes.flatMap fun (byte : UInt8) => [digit (byte >>> 4), digit (byte &&& 0x0F)])

/-- Reads pairs of digits; `reversed` holds the bytes read so far, last byte first. -/
def readPairs : List Char → (reversed : Bytes) → Option Bytes
  | [], reversed => some reversed.reverse
  | high :: low :: rest, reversed =>
      match digit? high, digit? low with
      | some high, some low => readPairs rest ((high <<< 4 ||| low) :: reversed)
      | _, _ => none
  | [_], _ => none

/-- The bytes written as pairs of digits, or `none` for any other text. -/
def toBytes? (text : String) : Option Bytes :=
  readPairs text.toList []

end Hex

end NorFlash
