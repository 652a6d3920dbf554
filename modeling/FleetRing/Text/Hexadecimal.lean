/-!
# Hexadecimal numerals

Written with lower-case digits, read with digits of either case.
-/

namespace FleetRing.Text

/-- A digit of a lower-case hexadecimal numeral; `digit` is below sixteen. -/
def hexDigit (digit : Nat) : Char :=
  if digit < 10 then Char.ofNat (48 + digit) else Char.ofNat (87 + digit)

/-- The lower-case hexadecimal numeral of a number, without leading zeros. -/
def hexNumeral (n : Nat) : List Char :=
  Nat.toDigits 16 n

/-- A lower-case hexadecimal numeral of at least `width` digits. -/
def hexPadded (width n : Nat) : List Char :=
  let digits := hexNumeral n
  List.replicate (width - digits.length) '0' ++ digits

/-- The value of a hexadecimal digit of either case. -/
def hexDigit? (c : Char) : Option Nat :=
  let code := c.toNat
  if 48 ≤ code ∧ code ≤ 57 then some (code - 48)
  else if 65 ≤ code ∧ code ≤ 70 then some (code - 55)
  else if 97 ≤ code ∧ code ≤ 102 then some (code - 87)
  else none

/-- The value of a sequence of hexadecimal digits. -/
def hexNatural? (digits : List Char) : Option Nat :=
  digits.foldlM (fun value c => (hexDigit? c).map (value * 16 + ·)) 0

/-- The bytes that pairs of hexadecimal digits stand for. -/
def hexBytes? : List Char → ByteArray → Option ByteArray
  | [], bytes => some bytes
  | high :: low :: rest, bytes =>
    match hexNatural? [high, low] with
    | some byte => hexBytes? rest (bytes.push byte.toUInt8)
    | none => none
  | [_], _ => none

end FleetRing.Text
