import FleetRing.Node

/-!
# Node events

Region managers report changes as events. On its way to the clients an event is
stamped with the time at which it passed a checkpoint; times are points of a
clock that never runs backwards. An `Update` is an event whose location and
version have been resolved, so that what follows need not ask again.
-/

namespace FleetRing

/-- What an event reports about its node. -/
inductive EventType where
  | added | modified | deleted | bookmark | error
  deriving DecidableEq, Repr, Inhabited

namespace EventType

/-- Every type of event. -/
def all : List EventType :=
  [added, modified, deleted, bookmark, error]

/-- The name of a type in texts. -/
def name : EventType → String
  | added => "ADDED"
  | modified => "MODIFIED"
  | deleted => "DELETED"
  | bookmark => "BOOKMARK"
  | error => "ERROR"

/-- The type with a given name. -/
def ofName? (text : String) : Option EventType :=
  all.find? fun type => type.name == text

/-- Does an event of this type bring in the state of a node? -/
def carriesState : EventType → Bool
  | added | modified => true
  | deleted | bookmark | error => false

end EventType

/-- Points that an event passes on its way. -/
inductive Checkpoint where
  | aggregatorReceived | distributorReceived | distributorSending
  | distributorSent | serializerEncoded | serializerSent
  deriving DecidableEq, Repr

/-- Every checkpoint, in the order of passage. -/
def Checkpoint.all : List Checkpoint :=
  [.aggregatorReceived, .distributorReceived, .distributorSending,
    .distributorSent, .serializerEncoded, .serializerSent]

/-- A point of the clock, in milliseconds. -/
abbrev Time := Nat

/-- When an event passed each checkpoint. -/
structure Stamps where
  aggregatorReceived : Option Time := none
  distributorReceived : Option Time := none
  distributorSending : Option Time := none
  distributorSent : Option Time := none
  serializerEncoded : Option Time := none
  serializerSent : Option Time := none
  deriving DecidableEq, Repr, Inhabited

namespace Stamps

/-- The stamp of a checkpoint. -/
def get? (stamps : Stamps) : Checkpoint → Option Time
  | .aggregatorReceived => stamps.aggregatorReceived
  | .distributorReceived => stamps.distributorReceived
  | .distributorSending => stamps.distributorSending
  | .distributorSent => stamps.distributorSent
  | .serializerEncoded => stamps.serializerEncoded
  | .serializerSent => stamps.serializerSent

/-- Stamp a checkpoint; a later stamp replaces an earlier one. -/
def set (stamps : Stamps) (checkpoint : Checkpoint) (now : Time) : Stamps :=
  match checkpoint with
  | .aggregatorReceived => { stamps with aggregatorReceived := some now }
  | .distributorReceived => { stamps with distributorReceived := some now }
  | .distributorSending => { stamps with distributorSending := some now }
  | .distributorSent => { stamps with distributorSent := some now }
  | .serializerEncoded => { stamps with serializerEncoded := some now }
  | .serializerSent => { stamps with serializerSent := some now }

/-- The time between two checkpoints, if both are stamped in that order. -/
def elapsed? (stamps : Stamps) (first second : Checkpoint) : Option Time := do
  let first ← stamps.get? first
  let second ← stamps.get? second
  if first ≤ second then some (second - first) else none

end Stamps

/-- A reported change of a node. -/
structure NodeEvent where
  type : EventType
  node : Node
  stamps : Stamps := {}
  deriving DecidableEq, Inhabited

namespace NodeEvent

/-- Stamp a checkpoint of the event. -/
def stamp (event : NodeEvent) (checkpoint : Checkpoint) (now : Time) : NodeEvent :=
  { event with stamps := event.stamps.set checkpoint now }

end NodeEvent

/-- An event together with its resolved location and version. -/
structure Update where
  event : NodeEvent
  location : Location
  version : Version
  deriving DecidableEq, Inhabited

instance : Versioned Update := ⟨Update.version⟩

namespace Update

/-- The node that the update is about. -/
def node (update : Update) : Node :=
  update.event.node

/-- What the update reports. -/
def type (update : Update) : EventType :=
  update.event.type

/-- Resolve an event; a bad location is reported before a bad version. -/
def ofEvent (event : NodeEvent) : Except Error Update := do
  let location ← event.node.location
  let version ← event.node.version
  return ⟨event, location, version⟩

/-- The updates of those events that can be resolved. -/
def ofEvents (events : List NodeEvent) : List Update :=
  events.filterMap fun event => (ofEvent event).toOption

/-- The positions of the events that cannot be resolved, and why not. -/
def rejections (events : List NodeEvent) : List (Nat × Error) :=
  events.zipIdx.filterMap fun entry =>
    match ofEvent entry.1 with
    | .ok _ => none
    | .error error => some (entry.2, error)

/-- The update that opens the events of a location: version zero and no id. -/
def bookmark (location : Location) : Update where
  event := {
    type := .bookmark
    node := { id := "", versionText := "0", placement := .at location } }
  location := location
  version := 0

/-- Stamp a checkpoint of the event. -/
def stamp (update : Update) (checkpoint : Checkpoint) (now : Time) : Update :=
  { update with event := update.event.stamp checkpoint now }

end Update

end FleetRing
