import FleetRing.Proofs.Distributor.Progress
import FleetRing.Proofs.Store.Holding

/-!
# Listings are exact

A listing visits the stores of a client one after the other, and the slots of each store in an
order that is nobody's business. `Visit` is such a way to go; what it gathers is the same for
all of them, but for the order of the nodes.

What is gathered is told by the trace alone: of each node the update that the client's stores
applied last, and at each location the largest version of these (`lists_exactly`).
-/

namespace FleetRing

/-- Stores in the order in which they are visited, with what is seen in each of them. -/
abbrev Visit := List (VirtualStore × List StoredNode)

namespace Visit

/-- Every store is visited once, and every node in it is seen once. -/
structure Complete (visit : Visit) (stores : List VirtualStore) : Prop where
  stores : (visit.map (·.1)).Perm stores
  nodes : ∀ entry ∈ visit, entry.2.Perm entry.1.stored

/-- What is seen, with the location of the store that it is seen in. -/
def seen (visit : Visit) : List (Location × StoredNode) :=
  visit.flatMap fun entry => entry.2.map fun stored => (entry.1.location, stored)

/-- The nodes that are seen. -/
def nodes (visit : Visit) : List Node :=
  visit.flatMap fun entry => entry.2.map (·.node)

/-- The versions that are seen, collected in each store and then merged. -/
def versions (visit : Visit) : VersionMap :=
  visit.foldl (fun versions entry => versions.merge
    (.ofList (entry.2.map fun stored => (entry.1.location, stored.version)))) .empty

variable {visit : Visit} {stores : List VirtualStore} {location : Location} {stored : StoredNode}

theorem nodes_eq (visit : Visit) : visit.nodes = visit.seen.map (·.2.node) := by
  simp only [nodes, seen, List.map_flatMap, List.map_map, Function.comp_def]

theorem mem_nodes {node : Node} : node ∈ visit.nodes ↔
    ∃ location stored, (location, stored) ∈ visit.seen ∧ stored.node = node := by
  simp [nodes_eq]

/-- The versions are the largest ones that are seen at each location. -/
theorem versions_collects (visit : Visit) :
    visit.versions.Collects (visit.seen.map fun sight => (sight.1, sight.2.version)) := by
  have collected : visit.versions.Collects _ :=
    .foldl_merge (fun entry : VirtualStore × List StoredNode => .ofList _) .empty
  simpa only [seen, List.map_flatMap, List.map_map, Function.comp_def, List.nil_append]
    using collected

/-- All complete visits see the same, but for the order. -/
theorem Complete.seen_perm (complete : visit.Complete stores) : visit.seen.Perm
    (stores.flatMap fun store => store.stored.map fun stored => (store.location, stored)) := by
  have sights : visit.seen.Perm ((visit.map (·.1)).flatMap fun store =>
      store.stored.map fun stored => (store.location, stored)) := by
    rw [List.flatMap_map]
    exact .flatMap_left _ fun entry member => (complete.nodes entry member).map _
  exact sights.trans (complete.stores.flatMap_right _)

theorem Complete.mem_seen (complete : visit.Complete stores) :
    (location, stored) ∈ visit.seen ↔
      ∃ store ∈ stores, store.location = location ∧ stored ∈ store.stored := by
  rw [complete.seen_perm.mem_iff]
  simp only [List.mem_flatMap, List.mem_map, Prod.mk.injEq]
  grind

/-- So their nodes are those of the stores. -/
theorem Complete.nodes_perm (complete : visit.Complete stores) :
    visit.nodes.Perm (stores.flatMap (·.nodes)) := by
  rw [nodes_eq]
  refine (complete.seen_perm.map _).trans (.of_eq ?_)
  simp only [List.map_flatMap, List.map_map, Function.comp_def, VirtualStore.nodes]

/-- And so are their versions. -/
theorem Complete.versions_eq {other : Visit} (complete : visit.Complete stores)
    (alsoComplete : other.Complete stores) : visit.versions = other.versions := by
  have same := complete.seen_perm.trans alsoComplete.seen_perm.symm
  exact visit.versions_collects.unique other.versions_collects fun _ => (same.map _).mem_iff

/-- Stores and slots as they come. -/
def inOrder (stores : List VirtualStore) : Visit :=
  stores.map fun store => (store, store.stored)

theorem complete_inOrder (stores : List VirtualStore) : (inOrder stores).Complete stores where
  stores := by
    rw [inOrder, List.map_map]
    exact .of_eq (List.map_id _)
  nodes entry member := by
    obtain ⟨store, -, rfl⟩ := List.mem_map.mp member
    exact .refl _

theorem nodes_inOrder (stores : List VirtualStore) :
    (inOrder stores).nodes = stores.flatMap (·.nodes) := by
  rw [nodes, inOrder, List.flatMap_map]
  rfl

theorem versions_inOrder (stores : List VirtualStore) : (inOrder stores).versions =
    stores.foldl (fun versions store => versions.merge store.versions) .empty := by
  rw [versions, inOrder, List.foldl_map]
  rfl

end Visit

namespace Distributor

variable {config : Config} {start dist next : Distributor} {client : String} {held : Client}
  {trace shown : Trace} {stores : List Nat} {id : String} {location : Location} {update : Update}
  {stored : StoredNode} {visit : Visit}

/-- The update of the node with an id at a location that the stores applied last. -/
def latestAccepted (stores : List Nat) (id : String) (location : Location) (trace : Trace) :
    Option Update :=
  ((acceptedBy stores trace).filter (·.node.key = (id, some location))).getLast?

/-- What the stores hold of the node with an id at a location. -/
def heldBy? (dist : Distributor) (stores : List Nat) (id : String) (location : Location) :
    Option StoredNode :=
  if (dist.nodes.route? id location).any (· ∈ stores) then dist.nodes.held? id location else none

theorem latestAccepted_append (earlier later : Trace) :
    latestAccepted stores id location (earlier ++ later) =
      (latestAccepted stores id location later).or (latestAccepted stores id location earlier) := by
  rw [latestAccepted, acceptedBy_append, List.filter_append, List.getLast?_append]
  rfl

/-- An update is the latest one if it is of the node and one of the stores applied it. -/
theorem latestAccepted_submitted (acceptor : Option Nat) :
    latestAccepted stores id location [.submitted update acceptor] =
      if acceptor.any (· ∈ stores) ∧ update.node.key = (id, some location) then some update
      else none := by
  rw [latestAccepted, acceptedBy_submitted]
  by_cases mine : acceptor.any (· ∈ stores) = true <;>
    by_cases own : update.node.key = (id, some location) <;> simp [mine, own]

/-- An update that one of the stores applies is held from then on, and all else as before. -/
theorem heldBy?_submit (sound : dist.nodes.Sound) (resolved : update.Resolved) :
    (dist.submit update).heldBy? stores id location =
      if (dist.nodes.acceptor? update).any (· ∈ stores) ∧ update.node.key = (id, some location)
      then some update.toStored else dist.heldBy? stores id location := by
  rw [heldBy?, nodes_submit, (NodeStore.samePlan_absorb dist.nodes update).route?,
    NodeStore.held?_absorb sound]
  cases accepted : dist.nodes.acceptor? update with
  | none => simp [heldBy?]
  | some k =>
    by_cases own : update.node.id = id ∧ update.location = location
    · obtain ⟨rfl, rfl⟩ := own
      -- The node is routed to where it was applied.
      have routed := route?_of_acceptor accepted
      by_cases mine : k ∈ stores <;> simp [heldBy?, routed, mine, resolved.key_eq]
    · simp [heldBy?, own, resolved.key_eq]

/-- What the stores hold is what they applied last. -/
theorem latestAccepted_eq (sound : start.Sound) (empty : ∀ k id, start.nodes.find? k id = none)
    (run : Moves start trace dist) :
    (latestAccepted stores id location trace).map Update.toStored =
      dist.heldBy? stores id location := by
  induction run with
  | refl =>
    simp [latestAccepted, acceptedBy, heldBy?, NodeStore.held?, empty]
  | @step trace shown state next prior transition ih =>
    rw [latestAccepted_append]
    rcases submits_or_keeps transition with ⟨update, resolved, rfl, rfl⟩ | ⟨same, silent⟩
    · rw [latestAccepted_submitted, heldBy?_submit (sound.moves prior).nodes resolved]
      split
      · rfl
      · exact ih
    · have nothing : latestAccepted stores id location shown = none := by
        rw [latestAccepted, acceptedBy_of_silent silent]
        rfl
      obtain ⟨ring, perLocation⟩ := plan_of_move transition
      have route : next.nodes.route? id location = state.nodes.route? id location := by
        simp only [NodeStore.route?, NodeStore.locate?, ring, perLocation]
      rw [nothing, Option.none_or, ih]
      simp only [heldBy?, NodeStore.held?, route, same]

/-- The stores of a client have a node with a key exactly when they are found to hold it. -/
theorem mem_stored_of_client (sound : dist.nodes.Sound) :
    (stored ∈ (dist.storesOf held).flatMap (·.stored) ∧ stored.node.key = (id, some location)) ↔
      dist.heldBy? held.stores id location = some stored := by
  have place : dist.heldBy? held.stores id location = some stored ↔
      ∃ k ∈ held.stores, dist.nodes.route? id location = some k ∧
        dist.nodes.find? k id = some stored := by
    rw [heldBy?, NodeStore.held?]
    cases dist.nodes.route? id location <;> simp
  rw [place]
  constructor
  · rintro ⟨member, key⟩
    obtain ⟨store, among, inside⟩ := List.mem_flatMap.mp member
    obtain ⟨k, mine, here⟩ := mem_storesOf.mp among
    exact ⟨k, mine, (NodeStore.mem_stored_key_iff sound here).mp ⟨inside, key⟩⟩
  · rintro ⟨k, mine, routed, found⟩
    obtain ⟨store, here, -⟩ := sound.laid.location_of_locate? routed
    obtain ⟨inside, key⟩ := (NodeStore.mem_stored_key_iff sound here).mpr ⟨routed, found⟩
    exact ⟨List.mem_flatMap.mpr ⟨store, mem_storesOf.mpr ⟨k, mine, here⟩, inside⟩, key⟩

/-- Nodes and versions are all that stores hold after a run. -/
structure Lists (stores : List Nat) (trace : Trace) (nodes : List Node) (versions : VersionMap) :
    Prop where
  /-- A node that they applied is listed once, as they applied it last, -/
  once : ∀ (id : String) (location : Location),
    nodes.filter (fun node => node.key = (id, some location)) =
      ((latestAccepted stores id location trace).map (·.node)).toList
  /-- and there are no others, for every node has a location. -/
  located : ∀ node ∈ nodes, ∃ location, node.location? = some location
  /-- The locations with a version are those at which a node is listed, -/
  mapped : ∀ location : Location, (∃ version, versions.get? location = some version) ↔
    ∃ node ∈ nodes, node.location? = some location
  /-- and it is the largest version that is listed there. -/
  largest : ∀ (location : Location) (version : Version), versions.get? location = some version →
    (∃ node ∈ nodes, node.location? = some location ∧ node.version? = some version) ∧
      ∀ node ∈ nodes, node.location? = some location →
        ∃ other, node.version? = some other ∧ other ≤ version

section Reached

variable (reached : Reachable config trace dist) (found : dist.client? client = some held)
  (complete : visit.Complete (dist.storesOf held))
include reached

/-- What the client's stores hold is what they applied last. -/
theorem Reachable.latestAccepted_eq (stores : List Nat) (id : String) (location : Location) :
    (latestAccepted stores id location trace).map Update.toStored =
      dist.heldBy? stores id location := by
  obtain ⟨start, created, run⟩ := reached
  exact Distributor.latestAccepted_eq (sound_create created) (find?_create created) run.moves

include complete in
/-- A node that is seen reports the location that it is seen at, and its version. -/
theorem Reachable.home_of_seen (sight : (location, stored) ∈ visit.seen) :
    stored.node.location? = some location ∧ stored.node.version? = some stored.version := by
  obtain ⟨store, among, rfl, inside⟩ := complete.mem_seen.mp sight
  obtain ⟨k, -, here⟩ := mem_storesOf.mp among
  have nodes := reached.sound.nodes
  exact (nodes.home k store _ stored here ((NodeStore.mem_stored_iff nodes here).mp inside)).2

include found complete

/-- A node is seen once, as it was accepted last, if it was at all. -/
theorem Reachable.filter_nodes_eq (id : String) (location : Location) :
    visit.nodes.filter (fun node => node.key = (id, some location)) =
      ((latestAccepted held.stores id location trace).map (·.node)).toList := by
  have sound := reached.sound
  have distinct : (visit.nodes.map Node.key).Nodup :=
    (complete.nodes_perm.map Node.key).nodup_iff.mpr
      (nodup_keys sound.nodes (sound.unique client held found))
  have latest : (latestAccepted held.stores id location trace).map (·.node) =
      (dist.heldBy? held.stores id location).map (·.node) := by
    rw [← reached.latestAccepted_eq, Option.map_map]
    rfl
  rw [latest]
  refine filter_key_eq distinct fun node => ?_
  rw [Option.map_eq_some_iff]
  simp only [← mem_stored_of_client sound.nodes]
  rw [complete.nodes_perm.mem_iff]
  simp only [List.mem_flatMap, VirtualStore.nodes, List.mem_map]
  constructor
  · rintro ⟨⟨store, among, stored, inside, rfl⟩, key⟩
    exact ⟨stored, ⟨⟨store, among, inside⟩, key⟩, rfl⟩
  · rintro ⟨stored, ⟨⟨store, among, inside⟩, key⟩, rfl⟩
    exact ⟨⟨store, among, stored, inside, rfl⟩, key⟩

omit found

/-- A node that is seen has a version, and its location has one that is no smaller. -/
theorem Reachable.le_version_of_seen {node : Node} (member : node ∈ visit.nodes)
    (place : node.location? = some location) :
    ∃ version top, node.version? = some version ∧ visit.versions.get? location = some top ∧
      version ≤ top := by
  obtain ⟨_, stored, sight, rfl⟩ := Visit.mem_nodes.mp member
  obtain ⟨stands, number⟩ := reached.home_of_seen complete sight
  obtain rfl := Option.some.inj (stands.symm.trans place)
  have listed := List.mem_map_of_mem (f := fun sight => (sight.1, sight.2.version)) sight
  obtain ⟨top, entry, below⟩ := visit.versions_collects.le _ _ listed
  exact ⟨stored.version, top, number, entry, below⟩

/-- The version of a location is that of a node which is seen there. -/
theorem Reachable.exists_node_of_version {version : Version}
    (entry : visit.versions.get? location = some version) :
    ∃ node ∈ visit.nodes, node.location? = some location ∧ node.version? = some version := by
  obtain ⟨⟨_, stored⟩, sight, same⟩ :=
    List.mem_map.mp (visit.versions_collects.mem location version entry)
  obtain ⟨rfl, rfl⟩ := Prod.mk.inj same
  exact ⟨stored.node, Visit.mem_nodes.mpr ⟨_, stored, sight, rfl⟩,
    reached.home_of_seen complete sight⟩

include found in
/-- However the stores of a client are visited, all that they hold is gathered, and nothing else. -/
theorem Reachable.lists : Lists held.stores trace visit.nodes visit.versions where
  once := reached.filter_nodes_eq found complete
  located node member := by
    obtain ⟨location, stored, sight, rfl⟩ := Visit.mem_nodes.mp member
    exact ⟨location, (reached.home_of_seen complete sight).1⟩
  mapped location := by
    constructor
    · rintro ⟨version, entry⟩
      obtain ⟨node, member, place, -⟩ := reached.exists_node_of_version complete entry
      exact ⟨node, member, place⟩
    · rintro ⟨node, member, place⟩
      obtain ⟨version, top, -, entry, -⟩ := reached.le_version_of_seen complete member place
      exact ⟨top, entry⟩
  largest location version entry := by
    refine ⟨reached.exists_node_of_version complete entry, fun node member place => ?_⟩
    obtain ⟨other, top, number, alsoEntry, below⟩ :=
      reached.le_version_of_seen complete member place
    obtain rfl := Option.some.inj (entry.symm.trans alsoEntry)
    exact ⟨other, number, below⟩

end Reached

/-- A listing that succeeds is that of a client. -/
theorem client?_of_list {nodes : List Node} {versions : VersionMap}
    (listed : dist.list client = .ok (nodes, versions)) :
    ∃ held, dist.client? client = some held ∧ nodes = dist.listing held ∧
      versions = dist.floors held := by
  cases found : dist.client? client with
  | none => simp [list, found] at listed
  | some held =>
    rw [list_eq found] at listed
    obtain ⟨rfl, rfl⟩ := Prod.mk.inj (Except.ok.inj listed)
    exact ⟨held, rfl, rfl, rfl⟩

/-- What is listed is routed to one of the client's stores. -/
theorem exists_route_of_listed (sound : dist.nodes.Sound) {node : Node}
    (member : node ∈ dist.listing held) : ∃ location k, node.location? = some location ∧
      dist.nodes.route? node.id location = some k ∧ k ∈ held.stores := by
  obtain ⟨k, mine, version, found⟩ := (mem_listing sound).mp member
  obtain ⟨target, here, -⟩ := Option.bind_eq_some_iff.mp found
  obtain ⟨routed, place, -⟩ := sound.home k target node.id ⟨version, node⟩ here found
  exact ⟨target.location, k, place, routed, mine⟩

/-- A store belongs to one client. -/
theorem Sound.client_of_mem_stores (sound : dist.Sound) {other : String} {alsoHeld : Client}
    (found : dist.client? client = some held) (alsoFound : dist.client? other = some alsoHeld)
    {k : Nat} (mine : k ∈ held.stores) (theirs : k ∈ alsoHeld.stores) : client = other := by
  obtain ⟨target, here, owner⟩ := sound.held client held k found mine
  obtain ⟨alsoTarget, alsoHere, alsoOwner⟩ := sound.held other alsoHeld k alsoFound theirs
  obtain rfl := Option.some.inj (here.symm.trans alsoHere)
  exact congrArg Owner.client (Option.some.inj (owner.symm.trans alsoOwner))

/-- No key is listed to two clients. -/
theorem Sound.disjoint (sound : dist.Sound) {other : String} {alsoHeld : Client}
    (found : dist.client? client = some held) (alsoFound : dist.client? other = some alsoHeld)
    {node another : Node} (member : node ∈ dist.listing held)
    (alsoMember : another ∈ dist.listing alsoHeld) (same : node.key = another.key) :
    client = other := by
  obtain ⟨location, k, place, routed, mine⟩ := exists_route_of_listed sound.nodes member
  obtain ⟨alsoLocation, j, alsoPlace, alsoRouted, theirs⟩ :=
    exists_route_of_listed sound.nodes alsoMember
  obtain ⟨ids, places⟩ := Prod.mk.inj same
  rw [place, alsoPlace] at places
  rw [ids, Option.some.inj places, alsoRouted] at routed
  obtain rfl := Option.some.inj routed
  exact sound.client_of_mem_stores found alsoFound mine theirs

/-- Copy the nodes of stores and their versions, store by store. -/
def copying : List Nat → Call Refusal Distributor (List (List Node × VersionMap))
  | [] => pure []
  | index :: rest => do
    match (← get).nodes.stores[index]? with
    | none => copying rest
    | some store =>
      let copies ← copying rest
      return (store.nodes, store.versions) :: copies

/-- A client is listed: it is looked up, its stores are copied, and the copies put together. -/
def gathering (client : String) : Call Refusal Distributor (List Node × VersionMap) := do
  match (← get).client? client with
  | none => throw (.clientNotFound client)
  | some held =>
    let copies ← copying held.stores
    return (copies.flatMap (·.1), copies.foldl (fun versions copy => versions.merge copy.2) .empty)

/-- Copying takes nothing away. -/
theorem copying_run (dist : Distributor) (stores : List Nat) :
    (copying stores).run.run dist =
      (.ok ((stores.filterMap fun index => dist.nodes.stores[index]?).map fun store =>
        (store.nodes, store.versions)), dist) := by
  induction stores with
  | nil => rfl
  | cons index rest ih =>
    rw [copying, Call.run_get, List.filterMap_cons]
    cases dist.nodes.stores[index]? with
    | none => exact ih
    | some store =>
      simp only [Call.run_bind, ih, Call.run_pure, List.map_cons]

/-- A listing answers what `list` answers, and leaves the distributor as it was. -/
theorem gathering_run (dist : Distributor) (client : String) :
    (gathering client).run.run dist = (dist.list client, dist) := by
  rw [gathering, list, Call.run_get]
  cases dist.client? client with
  | none => rfl
  | some held =>
    simp only [Call.run_bind, copying_run, Call.run_pure, List.flatMap_map, List.foldl_map,
      storesOf]

/-- Listing the nodes of a client is exact, and keeps clients apart. -/
structure ListsExactly (dist : Distributor) (trace : Trace) (client : String) (held : Client) :
    Prop where
  /-- The stores of the client are those that it owns. -/
  owned : ∀ k : Nat, k ∈ held.stores ↔ ∃ target owner, dist.nodes.stores[k]? = some target ∧
    target.owner = some owner ∧ owner.client = client
  /-- They are visited, -/
  visits : ∃ visit : Visit, visit.Complete (dist.storesOf held) ∧
    dist.list client = .ok (visit.nodes, visit.versions)
  /-- and in whichever order that is done, it gives exactly what they hold -/
  lists : ∀ visit : Visit, visit.Complete (dist.storesOf held) →
    Lists held.stores trace visit.nodes visit.versions
  /-- and the same answer. -/
  same : ∀ visit : Visit, visit.Complete (dist.storesOf held) →
    ∀ nodes versions, dist.list client = .ok (nodes, versions) →
      visit.nodes.Perm nodes ∧ visit.versions = versions
  /-- Nothing is listed to another client as well, -/
  disjoint : ∀ other, other ≠ client → ∀ nodes versions others alsoVersions,
    dist.list client = .ok (nodes, versions) → dist.list other = .ok (others, alsoVersions) →
      ∀ node ∈ nodes, ∀ another ∈ others, node.key ≠ another.key
  /-- and nothing changes while the stores are copied, nor is anything shown. -/
  unchanged : (gathering client).run.run dist = (dist.list client, dist) ∧
    dist.perform (.list client) = ([], dist)

/-- In every reachable state, the listing of every client is exact. -/
theorem lists_exactly (reached : Reachable config trace dist)
    (found : dist.client? client = some held) : dist.ListsExactly trace client held := by
  have sound := reached.sound
  have inOrder := Visit.complete_inOrder (dist.storesOf held)
  refine ⟨fun k => ⟨fun mine => ?_, ?_⟩, ⟨_, inOrder, ?_⟩, fun visit => reached.lists found,
    fun visit complete nodes versions listed => ?_,
    fun other different nodes versions others alsoVersions listed alsoListed => ?_,
    gathering_run dist client, rfl⟩
  · obtain ⟨target, here, owner⟩ := sound.held client held k found mine
    exact ⟨target, _, here, owner, rfl⟩
  · rintro ⟨target, owner, here, owns, rfl⟩
    obtain ⟨alsoHeld, alsoFound, -, mine⟩ := sound.owner k target owner here owns
    rwa [Option.some.inj (found.symm.trans alsoFound)]
  · rw [list_eq found, Visit.nodes_inOrder, Visit.versions_inOrder]
    rfl
  · rw [list_eq found] at listed
    obtain ⟨rfl, rfl⟩ := Prod.mk.inj (Except.ok.inj listed)
    refine ⟨complete.nodes_perm, (complete.versions_eq inOrder).trans ?_⟩
    exact Visit.versions_inOrder _
  · obtain ⟨mine, known, rfl, rfl⟩ := client?_of_list listed
    obtain ⟨theirs, alsoKnown, rfl, rfl⟩ := client?_of_list alsoListed
    intro node member another alsoMember same
    exact different (sound.disjoint known alsoKnown member alsoMember same).symm

/-- The small fleet when a second client has taken the store of Shanghai. -/
def smallShared : Distributor :=
  (smallHalf.register 0 "e" 1).toOption.getD smallHalf

/-- Then the node of Shanghai changes. -/
def smallChanged : Distributor :=
  (smallShared.ingest 0 [reported .modified "a" 6 .shanghai]).dist

/-- What happened until then. -/
def smallChangedTrace : Trace :=
  smallHalfTrace ++ ([.registered "e"] ++
    smallShared.intake ((receive 0 [reported .modified "a" 6 .shanghai]).filterMap accept?))

theorem smallChanged_reachable : Reachable smallFleet smallChangedTrace smallChanged := by
  have shared : Step smallHalf [.registered "e"] smallShared :=
    .register (register_getD (by decide +kernel))
  have changed : Step smallShared _ smallChanged :=
    .ingest 0 [reported .modified "a" 6 .shanghai]
  exact smallHalf_reachable.trans ((Chained.single shared).step changed)

theorem smallChanged_client : smallChanged.client? "e" = some ⟨1, [1]⟩ := by
  decide +kernel

/-- The second client is listed the node of Shanghai as it is now, and the first one that of
Beijing. -/
theorem lists_exactly_changed :
    smallChanged.ListsExactly smallChangedTrace "e" ⟨1, [1]⟩ ∧
      (smallChanged.list "e").toOption.map (fun answer =>
        (answer.1.map fun node => (node.id, node.version?), answer.2.toList)) =
          some ([("a", some 6)], [(⟨.shanghai, .rp1⟩, 6)]) ∧
      (smallChanged.list "d").toOption.map (fun answer =>
        (answer.1.map fun node => (node.id, node.version?), answer.2.toList)) =
          some ([("b", some 7)], [(⟨.beijing, .rp1⟩, 7)]) :=
  ⟨lists_exactly smallChanged_reachable smallChanged_client, by decide +kernel, by decide +kernel⟩

end Distributor

end FleetRing
