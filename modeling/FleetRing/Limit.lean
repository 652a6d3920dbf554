/-!
# What fits into a machine

Counts are 64-bit words, the items of a list occupy at most `Limit.bytes` bytes
together, and a bounded queue is made for at most `Limit.entries` entries. A
request beyond these limits is not refused: whoever carries it out has to stop.
Nothing but size is limited here, so all other definitions do without limits and
are asked about them where a request comes in.
-/

namespace FleetRing.Limit

/-- The most bytes that the items of a list can occupy. -/
def bytes : Nat := 0x7FFFFFFFFFFFFFFF

/-- The most entries that a bounded queue can be made for. -/
def entries : Nat := 0x1FFFFFFFFFFFFFFF

/-- Is a number a 64-bit word? -/
def isWord (n : Nat) : Bool :=
  decide (n < UInt64.size)

/-- Can a list hold that many items of a size in bytes? -/
def listFits (count size : Nat) : Bool :=
  decide (count * size ≤ bytes)

/-- Can a bounded queue be made for that many entries? One for none cannot. -/
def queueFits (capacity : Nat) : Bool :=
  decide (0 < capacity ∧ capacity ≤ entries)

/-- A text written a number of times over, if the result fits. -/
def repeated? (text : String) (times : Nat) : Option String :=
  if text.isEmpty then some ""
  else if listFits times text.utf8ByteSize then
    some ("".intercalate (List.replicate times text))
  else none

end FleetRing.Limit
