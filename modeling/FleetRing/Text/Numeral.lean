/-!
# Decimal numerals

Unsigned numbers in texts: ASCII digits, leading zeros allowed, with an optional
plus sign in front and a value that fits 64 bits.
-/

namespace FleetRing.Text

/-- The value of an ASCII digit. -/
def digit? (c : Char) : Option Nat :=
  if 48 ≤ c.toNat ∧ c.toNat ≤ 57 then some (c.toNat - 48) else none

/-- Read digits behind a number that is already read. -/
def appendDigits? : Nat → List Char → Option Nat
  | value, [] => some value
  | value, c :: rest =>
    match digit? c with
    | some digit => appendDigits? (value * 10 + digit) rest
    | none => none

/-- The value of a nonempty sequence of digits. -/
def natural? : List Char → Option Nat
  | [] => none
  | digits => appendDigits? 0 digits

/-- A sequence without its leading plus sign, if it has one. -/
def dropPlus : List Char → List Char
  | '+' :: rest => rest
  | text => text

/-- An unsigned 64-bit number: an optional plus sign and digits. -/
def word? (text : String) : Option UInt64 :=
  match natural? (dropPlus text.toList) with
  | some value => if value < UInt64.size then some (UInt64.ofNat value) else none
  | none => none

end FleetRing.Text
