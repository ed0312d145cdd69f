import Netlink.Wire.Word

/-!
# Hexadecimal Text

Numerals in base sixteen, and runs of octets written with two digits an octet.
`Hex.ofBytes` writes lower-case digits; `Hex.toBytes?` reads digits of either case and
refuses anything else, an odd number of digits included.
-/

namespace Netlink.Hex

/-- The value of a hexadecimal digit, of either case. -/
def digit? (c : Char) : Option Nat :=
  if '0' ≤ c ∧ c ≤ '9' then some (c.toNat - '0'.toNat)
  else if 'a' ≤ c ∧ c ≤ 'f' then some (c.toNat - 'a'.toNat + 10)
  else if 'A' ≤ c ∧ c ≤ 'F' then some (c.toNat - 'A'.toNat + 10)
  else none

/-- The numeral of `n`: lower-case digits, no leading zero. -/
def numeral (n : Nat) : List Char := Nat.toDigits 16 n

/-- The numeral of `n` in upper-case digits, with zeros in front up to `width` digits. -/
def upperNumeral (width n : Nat) : List Char :=
  ((numeral n).map Char.toUpper).leftpad width '0'

/-- The two digits of an octet. -/
def octet (b : UInt8) : List Char := [Nat.digitChar (b.toNat / 16), Nat.digitChar (b.toNat % 16)]

/-- Two lower-case digits for each octet. -/
def ofBytes (bs : Bytes) : String := String.ofList (bs.flatMap octet)

/-- The octets that pairs of digits stand for. -/
def ofDigits? : List Char → Option Bytes
  | [] => some []
  | [_] => none
  | hi :: lo :: cs =>
    match digit? hi, digit? lo with
    | some h, some l => (ofDigits? cs).map (UInt8.ofNat (16 * h + l) :: ·)
    | _, _ => none

/-- Reads a run of octets written with two digits an octet. -/
def toBytes? (s : String) : Option Bytes := ofDigits? s.toList

end Netlink.Hex
