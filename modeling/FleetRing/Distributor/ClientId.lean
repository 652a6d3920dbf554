import FleetRing.Text.Quoted
import FleetRing.Token

/-!
# Client ids

A client id is drawn as 128 bits, six of which say that they were drawn at
random, and written as five groups of hexadecimal digits.
-/

namespace FleetRing

namespace ClientId

/-- The id of two words, which gives up six of their bits. -/
def ofWords (high low : UInt64) : String :=
  let high := (high &&& 0xFFFFFFFFFFFF0FFF) ||| 0x4000
  let low := (low &&& 0x3FFFFFFFFFFFFFFF) ||| 0x8000000000000000
  let group (width : Nat) (bits : UInt64) : String :=
    String.ofList (Text.hexPadded width bits.toNat)
  "-".intercalate [
    group 8 (high >>> 32), group 4 ((high >>> 16) &&& 0xFFFF), group 4 (high &&& 0xFFFF),
    group 4 (low >>> 48), group 12 (low &&& 0xFFFFFFFFFFFF)]

/-- The ids drawn from a seed. -/
def draw (seed : ByteArray) (index : Nat) : String :=
  let word (half : String) : UInt64 :=
    (Token.ofBytes (seed ++ (half ++ toString index).toUTF8)).value
  ofWords (word "high") (word "low")

end ClientId

end FleetRing
