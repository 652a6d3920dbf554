import FleetRing.Node.Codec
import FleetRing.Store.Codec

/-!
# Persisted records

A record store keeps texts by key: one record for each node, one for the status
of the node store, and one that lists the stores of all clients. Keys of node
records start with `MinNode.` and end with the raw region and partition, so no
two nodes share a key, nor does a node share one with the other records.
-/

namespace FleetRing

/-- A virtual store as it is listed in an assignment. -/
structure AssignedStore where
  index : Nat
  location : Location
  lower : Float
  upper : Float

/-- The virtual stores of one client, in the order in which they were handed out. -/
structure Assignment where
  client : String
  stores : List AssignedStore

/-- A store as it is listed in an assignment. -/
def VirtualStore.assigned (store : VirtualStore) : AssignedStore :=
  ⟨store.index, store.location, store.arc.lower, store.arc.upper⟩

/-- The JSON of a listed store. -/
def AssignedStore.toJson (store : AssignedStore) : Json :=
  .object [
    ("index", .count store.index),
    ("location", store.location.toJson),
    ("lower_bound", .real store.lower),
    ("upper_bound", .real store.upper)]

/-- The JSON of an assignment. -/
def Assignment.toJson (assignment : Assignment) : Json :=
  .object [
    ("client_id", .string assignment.client),
    ("virtual_nodes", .array (assignment.stores.map (·.toJson)))]

/-- Texts by key, and the assignments behind one of them. -/
structure RecordStore where
  records : Std.ExtTreeMap String String := ∅
  assignments : Std.ExtTreeMap String Assignment := ∅
  /-- How many of the next calls fail. -/
  failNext : Nat := 0
  /-- How many calls were made, failed or not. -/
  attempts : Nat := 0

namespace RecordStore

/-- The key of the status record. -/
def statusKey : String := "NodeStoreStatus"

/-- The key of the record that lists the stores of all clients. -/
def assignmentsKey : String := "VirtualNodesAssignments"

/-- Count a call, and find out whether it may write. -/
def permit (store : RecordStore) : Bool × RecordStore :=
  match store with
  | ⟨records, assignments, 0, attempts⟩ => (true, ⟨records, assignments, 0, attempts + 1⟩)
  | ⟨records, assignments, failNext + 1, attempts⟩ =>
    (false, ⟨records, assignments, failNext, attempts + 1⟩)

/-- Write unless the call has to fail; a call that fails writes nothing. -/
def call (store : RecordStore) (write : RecordStore → RecordStore) : Bool × RecordStore :=
  match store.permit with
  | (true, store) => (true, write store)
  | (false, store) => (false, store)

/-- Write a record. -/
def put (store : RecordStore) (key text : String) : RecordStore :=
  match store with
  | ⟨records, assignments, failNext, attempts⟩ =>
    ⟨records.insert key text, assignments, failNext, attempts⟩

/-- The text of a record. -/
def get? (store : RecordStore) (key : String) : Option String :=
  store.records[key]?

/-- The node of a record, if the record is one of a node. -/
def node? (store : RecordStore) (key : String) : Option Node :=
  match store.get? key with
  | none => none
  | some text => (Reading.decodeText Node.decode text).toOption

/-- The number of records. -/
def size (store : RecordStore) : Nat :=
  store.records.size

/-- The stores of a client. -/
def assignment? (store : RecordStore) (client : String) : Option Assignment :=
  store.assignments[client]?

/-- The text that lists the stores of all clients, sorted by client. -/
def assignmentsText (store : RecordStore) : String :=
  (Json.object (store.assignments.toList.map fun entry => (entry.1, entry.2.toJson))).compact

/-- Persist nodes in order, each under its own key. -/
def persistNodes (nodes : List Node) (store : RecordStore) : Bool × RecordStore :=
  store.call fun store => nodes.foldl (fun store node => store.put node.recordKey node.text) store

/-- Persist the status of the node store, its versions in some order. -/
def persistStatusIn (entries : List (Location × Version)) (status : StoreStatus)
    (store : RecordStore) : Bool × RecordStore :=
  store.call fun store => store.put statusKey (status.textOf entries)

/-- Persist the status of the node store, its versions sorted. -/
def persistStatus (status : StoreStatus) (store : RecordStore) : Bool × RecordStore :=
  store.persistStatusIn status.versions.entriesByText status

/-- Remember the stores of a client. -/
def assign (store : RecordStore) (assignment : Assignment) : RecordStore :=
  match store with
  | ⟨records, assignments, failNext, attempts⟩ =>
    ⟨records, assignments.insert assignment.client assignment, failNext, attempts⟩

/-- Persist the stores of a client, together with those of all others. -/
def persistAssignment (assignment : Assignment) (store : RecordStore) : Bool × RecordStore :=
  store.call fun store =>
    let store := store.assign assignment
    store.put assignmentsKey store.assignmentsText

end RecordStore

end FleetRing
