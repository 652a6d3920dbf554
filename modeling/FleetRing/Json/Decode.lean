import FleetRing.Json.Reading
import FleetRing.Json.Value

/-!
# Decoding JSON

Decoders turn a `Reading` into a value of a type, or name the first fault. A
record may be written as an object, whose unknown members are skipped and whose
known members may occur once, or as an array of its fields in order.
-/

namespace FleetRing

/-- What a decoder returns. -/
abbrev Decoded (α : Type) := Except JsonFault α

namespace Reading

/-- The fault of a reading that is not of the type that is wanted. -/
def fault : Reading → JsonFault
  | suspect => .malformed
  | absent => .cutShort
  | brokenText wanted _ => wanted
  | brokenScalar wanted _ => wanted
  | _ => .unfit

mutual

/-- Pass over a value that nobody asks for. -/
def skip : Reading → Decoded Unit
  | null | bool _ | integer _ | real | string _ | suspect => .ok ()
  | absent => .error .cutShort
  | brokenText _ skipped => .error skipped
  | brokenScalar _ skipped => .error skipped
  | array items => skipItems items
  | object members => skipMembers members

/-- Pass over the rest of an array. -/
def skipItems : ReadingItems → Decoded Unit
  | .nil => .ok ()
  | .cons item rest =>
    match skip item with
    | .ok () => skipItems rest
    | .error fault => .error fault
  | .unclosed fault => .error fault

/-- Pass over the rest of an object. -/
def skipMembers : ReadingMembers → Decoded Unit
  | .nil => .ok ()
  | .cons key value rest =>
    match skip key with
    | .ok () =>
      match skip value with
      | .ok () => skipMembers rest
      | .error fault => .error fault
    | .error fault => .error fault
  | .stray _ => .error .malformed
  | .noKey => .error .cutShort
  | .unclosed fault => .error fault

end

/-- A string. -/
def asString : Reading → Decoded String
  | string text => .ok text
  | reading => .error reading.fault

/-- A truth value. -/
def asBool : Reading → Decoded Bool
  | bool value => .ok value
  | reading => .error reading.fault

/-- An integer between two bounds. -/
def asInteger (low high : Int) : Reading → Decoded Int
  | integer value => if low ≤ value ∧ value ≤ high then .ok value else .error .unfit
  | reading => .error reading.fault

/-- A signed 32-bit integer. -/
def asInt32 (reading : Reading) : Decoded Int32 :=
  (reading.asInteger (-0x80000000) 0x7FFFFFFF).map Int32.ofInt

/-- A signed 64-bit integer. -/
def asInt64 (reading : Reading) : Decoded Int64 :=
  (reading.asInteger (-0x8000000000000000) 0x7FFFFFFFFFFFFFFF).map Int64.ofInt

/-- An unsigned 8-bit integer. -/
def asUInt8 (reading : Reading) : Decoded UInt8 :=
  (reading.asInteger 0 255).map fun value => UInt8.ofNat value.toNat

/-- An unsigned 64-bit integer. -/
def asUInt64 (reading : Reading) : Decoded UInt64 :=
  (reading.asInteger 0 0xFFFFFFFFFFFFFFFF).map fun value => UInt64.ofNat value.toNat

/-- Either null or a value. -/
def asOption {α : Type} (decode : Reading → Decoded α) : Reading → Decoded (Option α)
  | null => .ok none
  | reading => (decode reading).map some

/-- A named field of a record that is being filled in. -/
structure Slot (σ : Type) where
  name : String
  isFilled : σ → Bool
  fill : Reading → σ → Decoded σ

/-- Fill a record from the members of an object. -/
def fillMembers {σ : Type} (slots : List (Slot σ)) : ReadingMembers → σ → Decoded σ
  | .nil, record => .ok record
  | .cons key value rest, record =>
    match key.asString with
    | .error fault => .error fault
    | .ok name =>
      match slots.find? fun slot => slot.name == name with
      | none =>
        match value.skip with
        | .error fault => .error fault
        | .ok () => fillMembers slots rest record
      | some slot =>
        if slot.isFilled record then .error .unfit
        else
          match slot.fill value record with
          | .error fault => .error fault
          | .ok record => fillMembers slots rest record
  | .stray _, _ => .error .malformed
  | .noKey, _ => .error .cutShort
  | .unclosed fault, _ => .error fault

/-- Fill a record from the items of an array, in the order of its fields. -/
def fillItems {σ : Type} : List (Slot σ) → ReadingItems → σ → Decoded σ
  | _, .nil, record => .ok record
  | _, .unclosed fault, _ => .error fault
  | [], .cons _ _, _ => .error .malformed
  | slot :: slots, .cons item rest, record =>
    match slot.fill item record with
    | .error fault => .error fault
    | .ok record => fillItems slots rest record

/-- Fill a record from an object or an array. -/
def fillRecord {σ : Type} (slots : List (Slot σ)) (start : σ) : Reading → Decoded σ
  | object members => fillMembers slots members start
  | array items => fillItems slots items start
  | reading => .error reading.fault

/-- Decode a record: fill it, then see to it that nothing required is missing. -/
def asRecord {σ α : Type} (slots : List (Slot σ)) (start : σ) (finish : σ → Option α)
    (reading : Reading) : Decoded α :=
  match reading.fillRecord slots start with
  | .error fault => .error fault
  | .ok record =>
    match finish record with
    | some value => .ok value
    | none => .error .unfit

/-- A slot that holds its value in an optional field. -/
def Slot.of {σ α : Type} (name : String) (decode : Reading → Decoded α)
    (get : σ → Option α) (set : α → σ → σ) : Slot σ where
  name := name
  isFilled record := (get record).isSome
  fill reading record := (decode reading).map fun value => set value record

/-- Fold the members of an object into a map, key by key. -/
def foldMembers {μ κ β : Type} (decodeKey : String → Decoded κ) (decode : Reading → Decoded β)
    (insert : μ → κ → β → μ) : ReadingMembers → μ → Decoded μ
  | .nil, map => .ok map
  | .cons key value rest, map =>
    match key.asString with
    | .error fault => .error fault
    | .ok text =>
      match decodeKey text with
      | .error fault => .error fault
      | .ok key =>
        match decode value with
        | .error fault => .error fault
        | .ok value => foldMembers decodeKey decode insert rest (insert map key value)
  | .stray _, _ => .error .malformed
  | .noKey, _ => .error .cutShort
  | .unclosed fault, _ => .error fault

/-- A map; of a repeated key the last value stays if `insert` replaces. -/
def asMap {μ κ β : Type} (decodeKey : String → Decoded κ) (decode : Reading → Decoded β)
    (insert : μ → κ → β → μ) (empty : μ) : Reading → Decoded μ
  | object members => foldMembers decodeKey decode insert members empty
  | reading => .error reading.fault

/-- The value of the first member with a name. -/
def memberOf? (name : String) : ReadingMembers → Option Reading
  | .cons (.string key) value rest => if key = name then some value else memberOf? name rest
  | .cons _ _ rest => memberOf? name rest
  | .nil | .stray _ | .noKey | .unclosed _ => none

/-- The value of the first member with a name, if the reading is an object that has one. -/
def member? (name : String) : Reading → Option Reading
  | object members => memberOf? name members
  | _ => none

/-- The items of an array as far as they could be read. -/
def itemsOf : ReadingItems → List Reading
  | .cons item rest => item :: itemsOf rest
  | .nil | .unclosed _ => []

/-- The items of a reading that is an array. -/
def items? : Reading → Option (List Reading)
  | array items => some (itemsOf items)
  | _ => none

/-- Decode a text that holds one value and nothing behind it but blanks. -/
def decodeText {α : Type} (decode : Reading → Decoded α) (text : String) : Decoded α :=
  let (reading, rest) := ofChars text.toList
  match decode reading with
  | .error fault => .error fault
  | .ok value => if (skipBlanks rest).isEmpty then .ok value else .error .malformed

end Reading

end FleetRing
