import FleetRing.Event
import FleetRing.Node.Codec

/-!
# JSON of node events

Stamps are not written. The type is written as its name; it may also be read
from an object with that name as its only key and null as its value.
-/

namespace FleetRing

open Reading (Slot asRecord)

/-- The JSON of an event. -/
def NodeEvent.toJson (event : NodeEvent) : Json :=
  .object [("type", .string event.type.name), ("node", event.node.toJson)]

/-- The text of an event. -/
def NodeEvent.text (event : NodeEvent) : String :=
  event.toJson.compact

/-- Decode the name of an event type. -/
def EventType.decodeName (reading : Reading) : Decoded EventType :=
  match reading.asString with
  | .error fault => .error fault
  | .ok text =>
    match EventType.ofName? text with
    | some type => .ok type
    | none => .error .unfit

/-- Behind the only member of an event type, the object has to end. -/
def EventType.expectEnd : ReadingMembers → Decoded Unit
  | .nil => .ok ()
  | .unclosed fault => .error fault
  | .cons _ _ _ | .stray _ | .noKey => .error .malformed

/-- Decode the value of the only member of an event type. -/
def EventType.decodeNull : Reading → Decoded Unit
  | .null => .ok ()
  | reading => .error reading.fault

/-- Decode an event type. -/
def EventType.decode : Reading → Decoded EventType
  | .string text => decodeName (.string text)
  | .brokenText wanted _ => .error wanted
  | .absent => .error .cutShort
  | .object (.cons key value rest) => do
    let type ← decodeName key
    decodeNull value
    expectEnd rest
    return type
  | .object (.stray _) | .object .nil => .error .malformed
  | .object .noKey => .error .cutShort
  | .object (.unclosed fault) => .error fault
  | _ => .error .malformed

/-- An event that is being read. -/
structure NodeEvent.Draft where
  type : Option EventType := none
  node : Option Node := none

/-- The fields of an event. -/
def NodeEvent.slots : List (Slot NodeEvent.Draft) := [
  .of "type" EventType.decode (·.type) fun value draft => { draft with type := some value },
  .of "node" Node.decode (·.node) fun value draft => { draft with node := some value }]

/-- Decode an event; it carries no stamps. -/
def NodeEvent.decode : Reading → Decoded NodeEvent :=
  asRecord NodeEvent.slots {} fun draft => do
    return { type := ← draft.type, node := ← draft.node }

end FleetRing
