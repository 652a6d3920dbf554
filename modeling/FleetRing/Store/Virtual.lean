import FleetRing.Event
import FleetRing.Ring.Topology

/-!
# Virtual stores

A virtual store holds the nodes of one location whose tokens fall on one part of
the location's arc. It is the unit of allocation: it has no owner, or one for
ever. Nodes are kept in slots by token, and ids that share a token are chained
in one slot, so a store behaves as a map from ids to nodes whatever the tokens
are.
-/

namespace FleetRing

/-- What an update does to a store. -/
inductive Mutation where
  /-- The node is new. -/
  | inserted
  /-- The node is replaced by a newer version. -/
  | updated
  /-- An added node is already there. -/
  | duplicate
  /-- A modified node is no newer than the one that is there. -/
  | stale
  /-- Updates of this type are not for stores. -/
  | unsupported
  deriving DecidableEq, Repr

/-- Did the store change? -/
def Mutation.isApplied : Mutation → Bool
  | inserted | updated => true
  | duplicate | stale | unsupported => false

/-- A node together with its resolved version. -/
structure StoredNode where
  version : Version
  node : Node
  deriving DecidableEq, Inhabited

/-- The nodes that share a slot. -/
abbrev Chain := List StoredNode

namespace Chain

/-- What an update of a node leaves in its slot; nodes with other ids stay. -/
def apply : Chain → Update → Chain × Mutation
  | [], update => ([⟨update.version, update.node⟩], .inserted)
  | stored :: rest, update =>
    if stored.node.id = update.node.id then
      if update.type = .added then (stored :: rest, .duplicate)
      else if update.version ≤ stored.version then (stored :: rest, .stale)
      else (⟨update.version, update.node⟩ :: rest, .updated)
    else
      let (rest, mutation) := apply rest update
      (stored :: rest, mutation)

end Chain

/-- Who a store belongs to, and the number of the queue that is told of its changes. -/
structure Owner where
  client : String
  queue : Nat
  deriving DecidableEq, Repr

/-- The nodes on one part of a location's arc. -/
structure VirtualStore where
  index : Nat
  location : Location
  arc : Arc Float
  slots : Std.ExtTreeMap Token Chain := ∅
  /-- How many nodes there are. -/
  hosts : Nat := 0
  owner : Option Owner := none

namespace VirtualStore

instance : Inhabited VirtualStore := ⟨{ index := 0, location := default, arc := ⟨0, 0⟩ }⟩

/-- Does the store belong to a client? -/
def isAssigned (store : VirtualStore) : Bool :=
  store.owner.isSome

/-- The chain of a slot, empty when nothing is there. -/
def chainAt (store : VirtualStore) (token : Token) : Chain :=
  store.slots[token]?.getD []

/-- Apply an update whose node has the given token. -/
def apply (store : VirtualStore) (token : Token) (update : Update) : VirtualStore × Mutation :=
  if update.type.carriesState then
    match Chain.apply (store.chainAt token) update with
    | (chain, .inserted) =>
      ({ store with slots := store.slots.insert token chain, hosts := store.hosts + 1 }, .inserted)
    | (chain, .updated) => ({ store with slots := store.slots.insert token chain }, .updated)
    | (_, mutation) => (store, mutation)
  else (store, .unsupported)

/-- Hand the store to a client. Nothing changes when the id is empty or the store has an
owner. -/
def assign? (store : VirtualStore) (client : String) (queue : Nat) : Option VirtualStore :=
  if client = "" ∨ store.isAssigned then none
  else some { store with owner := some ⟨client, queue⟩ }

/-- Every node with its version, slot by slot. -/
def stored (store : VirtualStore) : List StoredNode :=
  store.slots.toList.flatMap (·.2)

/-- Every node, slot by slot. -/
def nodes (store : VirtualStore) : List Node :=
  store.stored.map (·.node)

/-- The largest version among the nodes, at the store's location. -/
def versions (store : VirtualStore) : VersionMap :=
  .ofList (store.stored.map fun stored => (store.location, stored.version))

/-- The update that opens the events of the store's location. -/
def bookmark (store : VirtualStore) : Update :=
  .bookmark store.location

end VirtualStore

end FleetRing
