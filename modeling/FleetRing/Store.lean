import FleetRing.Store.Virtual
import FleetRing.Watch.ClientQueue

/-!
# The node store

The node store covers the ring with virtual stores, an equal number for each
location. An update is routed by its location and the token of its node's id;
one outside the topology is counted and passed over. What a store accepts is
delivered to the queue of its owner.
-/

namespace FleetRing

/-- Every virtual store of every location, with the versions seen so far. -/
structure NodeStore where
  ring : Ring Float
  /-- Virtual stores of each location. -/
  perLocation : Nat
  stores : Array VirtualStore
  versions : VersionMap := .empty
  totalHosts : Nat := 0

/-- What a batch of updates came to. -/
structure BatchStats where
  inserted : Nat := 0
  updated : Nat := 0
  ignored : Nat := 0
  unroutable : Nat := 0
  /-- The nodes that were inserted or updated, in order. -/
  touched : Array Node := #[]

/-- Count an update and remember its node if it was applied. -/
def BatchStats.record (stats : BatchStats) (mutation : Mutation) (node : Node) : BatchStats :=
  match mutation with
  | .inserted => { stats with inserted := stats.inserted + 1, touched := stats.touched.push node }
  | .updated => { stats with updated := stats.updated + 1, touched := stats.touched.push node }
  | .duplicate | .stale | .unsupported => { stats with ignored := stats.ignored + 1 }

/-- The topology and the progress of a node store, as it is persisted. -/
structure StoreStatus where
  regions : UInt64
  partitions : UInt64
  perLocation : UInt64
  versions : VersionMap
  deriving DecidableEq

/-- The location and the arc of every virtual store, by number. -/
def Ring.layout {α : Type} [Scalar α] (ring : Ring α) (perLocation : Nat) :
    List (Location × Arc α) :=
  ring.topology.locations.flatMap fun location =>
    match ring.arcOf? location with
    | some arc => (arc.split perLocation).map fun part => (location, part)
    | none => []

namespace NodeStore

/-- The empty node store of a topology. -/
def ofTopology (topology : Topology) (perLocation : Nat) : NodeStore :=
  let ring : Ring Float := .ofTopology topology
  let stores := (ring.layout perLocation).zipIdx.map fun entry =>
    ({ index := entry.2, location := entry.1.1, arc := entry.1.2 } : VirtualStore)
  { ring, perLocation, stores := stores.toArray }

/-- The empty node store with given counts. -/
def create (perLocation regions partitions : Nat) : Except Error NodeStore :=
  if perLocation = 0 then .error (.topology .noVirtualStores)
  else
    match Topology.ofCounts regions partitions with
    | .ok topology => .ok (ofTopology topology perLocation)
    | .error error => .error error

/-- Do the virtual stores with given counts fit into a list, in which each of them occupies 8
bytes? A topology that cannot be laid out has none. -/
def fits (perLocation regions partitions : Nat) : Bool :=
  match Topology.ofCounts regions partitions with
  | .ok topology => Limit.listFits (topology.size * perLocation) 8
  | .error _ => true

/-- The number of the store that serves a token at a location. -/
def locate? (store : NodeStore) (token : Token) (location : Location) : Option Nat :=
  match store.ring.topology.indexOf? location, store.ring.arcOf? location with
  | some index, some arc =>
    some (arc.storeOf index store.perLocation (arc.position token.fraction))
  | _, _ => none

/-- The number of the store that serves a node id at a location. -/
def route? (store : NodeStore) (id : String) (location : Location) : Option Nat :=
  store.locate? (.ofId id) location

/-- A batch that is being processed. -/
structure Batch where
  store : NodeStore
  queues : QueueTable
  /-- The versions of the routable updates of the batch. -/
  observed : VersionMap := .empty
  stats : BatchStats := {}

/-- Put a store back after an update, and count its node if it is new. -/
def replace (store : NodeStore) (index : Nat) (changed : VirtualStore) (mutation : Mutation) :
    NodeStore :=
  match store with
  | ⟨ring, perLocation, stores, versions, totalHosts⟩ =>
    ⟨ring, perLocation, stores.setIfInBounds index changed, versions,
      if mutation = .inserted then totalHosts + 1 else totalHosts⟩

/-- Tell the owner of a store about an update that it accepted. -/
def notify (queues : QueueTable) (owner : Option Owner) (mutation : Mutation) (update : Update) :
    QueueTable :=
  match owner with
  | some owner => if mutation.isApplied then queues.deliver owner.queue update else queues
  | none => queues

/-- Process one update of a batch. -/
def Batch.step (batch : Batch) (update : Update) : Batch :=
  match batch with
  | ⟨store, queues, observed, stats⟩ =>
    let token := Token.ofId update.node.id
    match store.locate? token update.location with
    | none => ⟨store, queues, observed, { stats with unroutable := stats.unroutable + 1 }⟩
    | some index =>
      match store.stores[index]? with
      | none => ⟨store, queues, observed, { stats with unroutable := stats.unroutable + 1 }⟩
      | some target =>
        let (changed, mutation) := target.apply token update
        ⟨store.replace index changed mutation, notify queues target.owner mutation update,
          observed.observe update.location update.version, stats.record mutation update.node⟩

/-- Add the versions that a batch observed to those seen so far. -/
def Batch.finish (batch : Batch) : Batch :=
  match batch with
  | ⟨⟨ring, perLocation, stores, versions, totalHosts⟩, queues, observed, stats⟩ =>
    ⟨⟨ring, perLocation, stores, versions.merge observed, totalHosts⟩, queues, observed, stats⟩

/-- Process a batch of updates in order. -/
def process (store : NodeStore) (queues : QueueTable) (updates : List Update) : Batch :=
  (updates.foldl Batch.step { store, queues }).finish

/-- Scan stores in order until those without owner hold as many hosts as requested. -/
def coversFree (requested : Nat) : Nat → List VirtualStore → Bool
  | _, [] => false
  | free, store :: rest =>
    if store.isAssigned then coversFree requested free rest
    else if requested ≤ free + store.hosts then true
    else coversFree requested (free + store.hosts) rest

/-- Do the stores without owner hold at least as many hosts as requested? Never, when
every store has an owner. -/
def hasFree (store : NodeStore) (requested : Nat) : Bool :=
  coversFree requested 0 store.stores.toList

/-- The topology and progress of the store. -/
def status (store : NodeStore) : StoreStatus where
  regions := store.ring.topology.regions.toUInt64
  partitions := store.ring.topology.partitions.toUInt64
  perLocation := store.perLocation.toUInt64
  versions := store.versions

end NodeStore

end FleetRing
