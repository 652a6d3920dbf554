/-!
# Shortest decimals

The shortest decimal that reads back as a given floating point number, and of
those the one nearest to it. A finite number is `mantissa * 2 ^ exponent`; the
reals that round to it form an interval, whose ends belong to it exactly when
the mantissa is even. A decimal with `n` digits lies on a grid; when the grid
meets the interval at all, one of the two grid points around the number does.
-/

namespace FleetRing.Decimal

/-- A nonnegative finite binary number, together with whether the gap below it is
only half as wide as the gap above it. -/
structure Binary where
  mantissa : Nat
  exponent : Int
  narrowBelow : Bool
  deriving DecidableEq, Repr

/-- A floating point number taken apart. -/
inductive Parts where
  | notFinite
  | zero (negative : Bool)
  | finite (negative : Bool) (magnitude : Binary)
  deriving DecidableEq, Repr

/-- Take apart the 64 bits of a floating point number. -/
def Parts.ofBits (bits : UInt64) : Parts :=
  let word : Nat := bits.toNat
  let negative := word >>> 63 == 1
  let exponent : Nat := (word >>> 52) % 0x800
  let fraction : Nat := word % 0x10000000000000
  if exponent = 2047 then .notFinite
  else if exponent = 0 then
    if fraction = 0 then .zero negative
    else .finite negative ⟨fraction, -1074, false⟩
  else
    .finite negative
      ⟨0x10000000000000 + fraction, (exponent : Int) - 1075, fraction == 0 && exponent != 1⟩

/-- The number as a fraction in quarters of its last binary place. -/
structure Quarters where
  value : Nat
  below : Nat
  above : Nat
  denominator : Nat
  ends : Bool

/-- Scale a binary number and its rounding interval to a common denominator. -/
def Binary.quarters (x : Binary) : Quarters :=
  let up := Nat.pow 2 (x.exponent - 2).toNat
  let down := Nat.pow 2 (2 - x.exponent).toNat
  { value := 4 * x.mantissa * up
    below := (if x.narrowBelow then 1 else 2) * up
    above := 2 * up
    denominator := down
    ends := x.mantissa % 2 == 0 }

/-- The power of ten of the leading digit. -/
def Quarters.leading (x : Quarters) : Int :=
  if x.denominator ≤ x.value then
    ((Nat.toDigits 10 (x.value / x.denominator)).length : Int) - 1
  else
    match (List.range 400).find? fun places =>
      decide (x.denominator ≤ x.value * Nat.pow 10 (places + 1)) with
    | some places => -((places : Int) + 1)
    | none => -400

/-- A decimal `digits * 10 ^ exponent`. -/
structure Digits where
  digits : Nat
  exponent : Int
  deriving DecidableEq, Repr

/-- The point of the grid `10 ^ exponent` that rounds to the number, the nearer of two. -/
def Quarters.onGrid? (x : Quarters) (exponent : Int) : Option Nat :=
  let up := Nat.pow 10 exponent.toNat * x.denominator
  let scale := Nat.pow 10 (-exponent).toNat
  let value := x.value * scale
  let lower := value / up
  let short := value - lower * up
  let excess := (lower + 1) * up - value
  let within (gap reach : Nat) : Bool :=
    if x.ends then decide (gap ≤ reach) else decide (gap < reach)
  let lowerFits := within short (x.below * scale)
  let upperFits := within excess (x.above * scale)
  let lowerNearer := decide (short < excess) || (short == excess && lower % 2 == 0)
  if lowerFits && (!upperFits || lowerNearer) then some lower
  else if upperFits then some (lower + 1)
  else none

/-- The shortest decimal that reads back as the number; seventeen digits always do. -/
def Binary.shortest (x : Binary) : Digits :=
  let quarters := x.quarters
  let leading := quarters.leading
  match (List.range 17).findSome? fun (more : Nat) =>
    (quarters.onGrid? (leading - more)).map fun digits => Digits.mk digits (leading - more) with
  | some digits => digits
  | none => ⟨x.mantissa, x.exponent⟩

/-- The digits of a number without trailing zeros, and how many zeros were dropped. -/
def trimZeros (digits : Nat) : List Char × Nat :=
  let text := Nat.toDigits 10 digits
  let kept := (text.reverse.dropWhile (· = '0')).reverse
  (kept, text.length - kept.length)

/-- How numbers are written: positionally when the leading digit stands for
`10 ^ -5` to `10 ^ 15`, with an exponent otherwise. -/
def Digits.write (x : Digits) : List Char :=
  let (digits, dropped) := trimZeros x.digits
  let exponent := x.exponent + dropped
  let leading := exponent + digits.length - 1
  if -5 ≤ leading ∧ leading ≤ 15 then
    if 0 ≤ exponent then digits ++ List.replicate exponent.toNat '0' ++ ['.', '0']
    else if 0 ≤ leading then
      let whole := (leading + 1).toNat
      digits.take whole ++ '.' :: digits.drop whole
    else '0' :: '.' :: List.replicate (-leading - 1).toNat '0' ++ digits
  else
    let mantissa := match digits with
      | [] => ['0']
      | [digit] => [digit]
      | digit :: rest => digit :: '.' :: rest
    let sign := if 0 ≤ leading then '+' else '-'
    mantissa ++ 'e' :: sign :: Nat.toDigits 10 leading.natAbs

/-- The text of a floating point number, if it is finite. -/
def write? (x : Float) : Option (List Char) :=
  match Parts.ofBits x.toBits with
  | .notFinite => none
  | .zero negative => some ((if negative then ['-'] else []) ++ ['0', '.', '0'])
  | .finite negative magnitude =>
    some ((if negative then ['-'] else []) ++ magnitude.shortest.write)

end FleetRing.Decimal
