import FleetRing.Text.Hexadecimal
import FleetRing.Token.Xxh3

/-!
# Node tokens

The token of a node is a 64-bit hash of its id. It decides where on the arc of
its location a node lies, and in which slot of a virtual store it is kept.
-/

namespace FleetRing

/-- The hash of a node id. -/
structure Token where
  value : UInt64
  deriving DecidableEq, Repr, Inhabited

namespace Token

/-- The token of a byte sequence. -/
def ofBytes (bytes : ByteArray) : Token :=
  ⟨Xxh3.hash bytes⟩

/-- The token of an id: of the bytes of its UTF-8 form. -/
def ofId (id : String) : Token :=
  ofBytes id.toUTF8

/-- The printed form: sixteen hexadecimal digits. -/
def text (token : Token) : String :=
  String.ofList (Text.hexPadded 16 token.value.toNat)

/-- Tokens are ordered by value. -/
instance : Ord Token where
  compare a b := compare a.value b.value

instance : Std.TransOrd Token where
  eq_swap {a b} := @Std.OrientedCmp.eq_swap UInt64 compare _ a.value b.value
  isLE_trans {a b c} := @Std.TransCmp.isLE_trans UInt64 compare _ a.value b.value c.value

instance : Std.LawfulEqOrd Token where
  compare_self {a} := @Std.ReflCmp.compare_self UInt64 compare _ a.value
  eq_of_compare {a b} same := by
    obtain ⟨a⟩ := a
    obtain ⟨b⟩ := b
    exact congrArg mk
      (@Std.LawfulEqCmp.eq_of_compare UInt64 compare _ a b same)

end Token

end FleetRing
