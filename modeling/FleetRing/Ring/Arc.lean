import FleetRing.Limit
import FleetRing.Ring.Scalar
import FleetRing.Token

/-!
# Arcs of the ring

An arc is the half-open interval of degrees from `lower` to `upper`. It is cut
into equally wide parts by `split`, whose last part ends at exactly `upper`. A
token lies at `position`, which is above `lower` and at most `upper`; the part
that serves a position is found by division in `partOf`, without looking at the
parts themselves.
-/

namespace FleetRing

/-- An interval of the ring, closed below and open above. -/
structure Arc (α : Type) where
  lower : α
  upper : α
  deriving DecidableEq, Repr

namespace Arc

variable {α : Type} [Scalar α]

/-- The distance between both ends. -/
def width (arc : Arc α) : α :=
  arc.upper - arc.lower

/-- Does a position lie on the arc? -/
def contains (arc : Arc α) (degrees : α) : Bool :=
  Scalar.atMost arc.lower degrees && Scalar.below degrees arc.upper

/-- The border in front of part `i`, for parts of width `step`. -/
def border (arc : Arc α) (step : α) (i : Nat) : α :=
  arc.lower + Scalar.ofCount i * step

/-- Part `i` of `n` equally wide ones; the last one ends with the arc. -/
def part (arc : Arc α) (n i : Nat) : Arc α :=
  let step := arc.width / Scalar.ofCount n
  ⟨arc.border step i, if i + 1 = n then arc.upper else arc.border step (i + 1)⟩

/-- The `n` equally wide parts of an arc, in order. -/
def split (arc : Arc α) (n : Nat) : List (Arc α) :=
  (List.range n).map (arc.part n)

@[simp]
theorem length_split (arc : Arc α) (n : Nat) : (arc.split n).length = n := by
  simp [split]

/-- The position of a token, given how far into the arc it lies. -/
def position (arc : Arc α) (fraction : α) : α :=
  arc.lower + fraction * arc.width

/-- The index of the part that serves a position: positions in front of the arc go
to the first part, those behind it to the last. -/
def partOf (arc : Arc α) (n : Nat) (degrees : α) : Nat :=
  min (Scalar.wholePart ((degrees - arc.lower) / (arc.width / Scalar.ofCount n))) (n - 1)

/-- The number of the store that serves a position, when the arc is that of location
`index` and every location has `n` stores. -/
def storeOf (arc : Arc α) (index n : Nat) (degrees : α) : Nat :=
  index * n + arc.partOf n degrees

/-- The number of the store that serves a position, if it is a 64-bit word. Where a location
has no stores at all, only the start of its arc and what lies before it are served. -/
def storeNumber? (arc : Arc α) (index n : Nat) (degrees : α) : Option Nat :=
  let offset := (degrees - arc.lower) / (arc.width / Scalar.ofCount n)
  let served := n != 0 || Scalar.atMost offset (Scalar.ofCount 0)
  let number := arc.storeOf index n degrees
  if served && Limit.isWord number then some number else none

theorem partOf_lt (arc : Arc α) {n : Nat} (positive : 0 < n) (degrees : α) :
    arc.partOf n degrees < n := by
  unfold partOf
  omega

end Arc

/-- How far into an arc a token lies: above zero, and at most one. -/
def Token.fraction {α : Type} [Scalar α] (token : Token) : α :=
  (Scalar.ofCount token.value.toNat + Scalar.ofCount 1) /
    (Scalar.ofCount (UInt64.size - 1) + Scalar.ofCount 1)

end FleetRing
