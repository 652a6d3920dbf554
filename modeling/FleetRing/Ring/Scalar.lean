/-!
# Arithmetic of ring positions

The ring is laid out once, over any `Scalar`. Programs run it on 64-bit floating
point numbers; over the rationals the same definitions are exact, which is
where statements about tiling and routing live.
-/

namespace FleetRing

/-- Numbers that can serve as positions on the ring. -/
class Scalar (α : Type) extends Add α, Sub α, Mul α, Div α where
  /-- The number closest to a count. -/
  ofCount : Nat → α
  /-- Is the first number at most the second? Never, when one is no number. -/
  atMost : α → α → Bool
  /-- Is the first number below the second? Never, when one is no number. -/
  below : α → α → Bool
  /-- The whole part of a positive number; zero for all others. -/
  wholePart : α → Nat

/-- Floating point numbers; counts are those of 64 bits, and so are whole parts. Conversion to
a word drops the fraction, and takes what is negative or no number to zero. -/
instance : Scalar Float where
  ofCount n := n.toUInt64.toFloat
  atMost a b := a ≤ b
  below a b := a < b
  wholePart x := x.toUInt64.toNat

/-- Rational numbers, with exact arithmetic. -/
instance : Scalar Rat where
  ofCount n := n
  atMost a b := a ≤ b
  below a b := a < b
  wholePart x := x.floor.toNat

end FleetRing
