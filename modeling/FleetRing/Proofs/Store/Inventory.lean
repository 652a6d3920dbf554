import FleetRing.Proofs.Store.History
import Mathlib.Data.List.Dedup

/-!
# The inventory of a node store

A node is known by its key, its id within its location. A sound node store holds each
key at most once, in the store that the key is routed to. So the nodes of all stores
are a map by key, and `AccountsFor` says which map: that of the updates that were
submitted, counted as often as there are keys.
-/

namespace FleetRing

namespace Node

/-- What a node is known by: its id within its location. -/
def key (node : Node) : String × Option Location :=
  (node.id, node.location?)

end Node

/-- Where keys are distinct, at most one item has a given one. -/
theorem filter_key_eq {α κ : Type} [DecidableEq κ] {items : List α} {key : α → κ} {asked : κ}
    {held : Option α} (distinct : (items.map key).Nodup)
    (same : ∀ item, (item ∈ items ∧ key item = asked) ↔ held = some item) :
    items.filter (fun item => key item = asked) = held.toList := by
  have nodup : (items.filter fun item => key item = asked).Nodup :=
    (List.Nodup.of_map _ distinct).filter _
  cases held with
  | none =>
    refine List.filter_eq_nil_iff.mpr fun item member asks => ?_
    simpa using (same item).mp ⟨member, by simpa using asks⟩
  | some item =>
    refine List.perm_singleton.mp ((List.perm_ext_iff_of_nodup nodup (by simp)).mpr fun other => ?_)
    rw [List.mem_filter, decide_eq_true_eq, same, List.mem_singleton, Option.some.injEq, eq_comm]

namespace NodeStore

/-- Every node with its version, store by store. -/
def stored (store : NodeStore) : List StoredNode :=
  store.stores.toList.flatMap (·.stored)

variable {store : NodeStore} {k : Nat} {target : VirtualStore} {id : String} {location : Location}
  {stored : StoredNode}

section Sound

variable (sound : store.Sound)
include sound

/-- A store holds what is found in it. -/
theorem mem_stored_iff (here : store.stores[k]? = some target) :
    stored ∈ target.stored ↔ store.find? k stored.node.id = some stored := by
  rw [(sound.maps k target here).mem_stored_iff, find?, here, Option.bind_some]

/-- A node that is held under an id has that id, and the location of its store. -/
theorem key_of_find? (here : store.stores[k]? = some target)
    (found : store.find? k id = some stored) : stored.node.key = (id, some target.location) := by
  have inside := found
  rw [find?, here, Option.bind_some] at inside
  have same : stored.node.id = id := (Chain.id_of_find? inside).2
  rw [Node.key, same, (sound.home k target id stored here found).2.1]

/-- A store has a node of a key exactly when the key is routed to it and the node is found. -/
theorem mem_stored_key_iff (here : store.stores[k]? = some target) :
    (stored ∈ target.stored ∧ stored.node.key = (id, some location)) ↔
      store.route? id location = some k ∧ store.find? k id = some stored := by
  rw [mem_stored_iff sound here]
  constructor
  · rintro ⟨found, key⟩
    obtain ⟨rfl, same⟩ := Prod.mk.inj ((key_of_find? sound here found).symm.trans key)
    obtain rfl := Option.some.inj same
    exact ⟨(sound.home k target _ stored here found).1, found⟩
  · rintro ⟨routed, found⟩
    obtain ⟨other, there, rfl⟩ := sound.laid.location_of_locate? routed
    obtain rfl := Option.some.inj (there.symm.trans here)
    have key := key_of_find? sound here found
    rw [show stored.node.id = id from congrArg Prod.fst key]
    exact ⟨found, key⟩

/-- No key occurs twice in stores that are different. -/
theorem nodup_keys {numbers : List Nat} (unique : numbers.Nodup) :
    (((numbers.filterMap fun k => store.stores[k]?).flatMap (·.stored)).map
      (·.node.key)).Nodup := by
  rw [List.map_flatMap, List.nodup_flatMap]
  constructor
  · intro target member
    obtain ⟨k, -, here⟩ := List.mem_filterMap.mp member
    refine .of_map Prod.fst ?_
    rw [List.map_map]
    exact (sound.maps k target here).nodup_ids
  · rw [List.pairwise_filterMap]
    refine unique.imp fun {i j} different first here second there => ?_
    intro key inFirst inSecond
    obtain ⟨one, oneMember, rfl⟩ := List.mem_map.mp inFirst
    obtain ⟨two, twoMember, same⟩ := List.mem_map.mp inSecond
    have found := (mem_stored_iff sound here).mp oneMember
    have key := key_of_find? sound here found
    have routed := ((mem_stored_key_iff sound here).mp ⟨oneMember, key⟩).1
    have alsoRouted := ((mem_stored_key_iff sound there).mp ⟨twoMember, same.trans key⟩).1
    exact different (Option.some.inj (routed.symm.trans alsoRouted))

end Sound

/-- All stores, by number. -/
theorem filterMap_range (store : NodeStore) :
    ((List.range store.stores.size).filterMap fun k => store.stores[k]?) = store.stores.toList := by
  have inside : (List.range store.stores.size).filterMap (fun k => store.stores[k]?) =
      (List.range store.stores.size).map fun k => store.stores[k]?.getD default := by
    refine List.filterMap_eq_map_iff_forall_eq_some.mpr fun k member => ?_
    simp [List.mem_range.mp member]
  rw [inside]
  refine List.ext_getElem (by simp) fun k below _ => ?_
  have bound : k < store.stores.size := by simpa using below
  simp [bound]

namespace Sound

variable (sound : store.Sound)
include sound

/-- The node store has a node of a key exactly when it is found where the key is routed to. -/
theorem mem_iff : (stored ∈ store.stored ∧ stored.node.key = (id, some location)) ↔
    ∃ k, store.route? id location = some k ∧ store.find? k id = some stored := by
  constructor
  · rintro ⟨member, key⟩
    obtain ⟨target, listed, inside⟩ := List.mem_flatMap.mp member
    obtain ⟨k, here⟩ := List.mem_iff_getElem?.mp listed
    exact ⟨k, (mem_stored_key_iff sound (by simpa using here)).mp ⟨inside, key⟩⟩
  · rintro ⟨k, routed, found⟩
    obtain ⟨target, here, -⟩ := sound.laid.location_of_locate? routed
    obtain ⟨inside, key⟩ := (mem_stored_key_iff sound here).mpr ⟨routed, found⟩
    have listed : target ∈ store.stores.toList :=
      List.mem_iff_getElem?.mpr ⟨k, by simpa using here⟩
    exact ⟨List.mem_flatMap.mpr ⟨target, listed, inside⟩, key⟩

/-- Every node has a key, with a location. -/
theorem exists_key (member : stored ∈ store.stored) :
    ∃ id location, stored.node.key = (id, some location) := by
  obtain ⟨target, listed, inside⟩ := List.mem_flatMap.mp member
  obtain ⟨k, here⟩ := List.mem_iff_getElem?.mp listed
  have here : store.stores[k]? = some target := by simpa using here
  exact ⟨_, _, key_of_find? sound here ((mem_stored_iff sound here).mp inside)⟩

/-- No key occurs twice in the whole node store. -/
theorem nodup_stored : (store.stored.map (·.node.key)).Nodup := by
  have numbers : (List.range store.stores.size).Nodup := List.nodup_range
  have whole := nodup_keys sound numbers
  rwa [filterMap_range] at whole

/-- The hosts of all stores are their nodes. -/
theorem hosts_eq : store.hosts = (store.stores.toList.map (·.nodes.length)).sum := by
  rw [hosts]
  refine congrArg List.sum (List.map_congr_left fun target listed => ?_)
  obtain ⟨k, here⟩ := List.mem_iff_getElem?.mp listed
  rw [sound.counted k target (by simpa using here)]
  simp [VirtualStore.ids, VirtualStore.nodes]

end Sound

/-- The keys of the nodes that updates bring to the locations of a topology. -/
def submittedKeys (regions partitions : Nat) (updates : List Update) : List (String × Location) :=
  (updates.filter fun update => update.type.carriesState ∧
    update.location.region.index < regions ∧ update.location.partition.index < partitions).map
      fun update => (update.node.id, update.location)

/-- The node store is the map that the updates make, key by key. -/
structure AccountsFor (store : NodeStore) (regions partitions : Nat) (updates : List Update) :
    Prop where
  /-- A node is held exactly when some update brought its state to a location of the topology. -/
  held_iff : ∀ (id : String) (location : Location),
    (∃ stored ∈ store.stored, stored.node.key = (id, some location)) ↔
      (location.region.index < regions ∧ location.partition.index < partitions) ∧
        ∃ update ∈ updates, (update.type = .added ∨ update.type = .modified) ∧
          update.node.id = id ∧ update.location = location
  /-- It is what prevails among its updates, and is held once in the whole node store, in the
  store that it is routed to. -/
  content : ∀ (id : String) (location : Location),
    location.region.index < regions → location.partition.index < partitions →
      ∃ k target, store.route? id location = some k ∧ store.stores[k]? = some target ∧
        target.location = location ∧
        target.stored.filter (fun stored => stored.node.key = (id, some location)) =
          (prevailing (ownUpdates id location updates)).toList ∧
        store.stored.filter (fun stored => stored.node.key = (id, some location)) =
          (prevailing (ownUpdates id location updates)).toList
  /-- Its version is the largest one of its first update and of its modifications. -/
  version : ∀ (id : String) (location : Location), ∀ stored ∈ store.stored,
    stored.node.key = (id, some location) →
      ∃ first rest, ownUpdates id location updates = first :: rest ∧
        stored.version = ((rest.filter (·.type = .modified)).map (·.version)).foldl max
          first.version
  /-- The total is the sum of what the stores count, -/
  total_eq_hosts : store.totalHosts = (store.stores.toList.map (·.hosts)).sum
  /-- of the nodes that the stores list, -/
  total_eq_nodes : store.totalHosts = (store.stores.toList.map (·.nodes.length)).sum
  /-- and of the different keys that were submitted. -/
  total_eq_keys : store.totalHosts = (submittedKeys regions partitions updates).dedup.length

/-- Updates bring a node in exactly when there is one of them. -/
theorem exists_prevailing_iff {updates : List Update} :
    (∃ stored, prevailing (ownUpdates id location updates) = some stored) ↔
      ∃ update ∈ updates, (update.type = .added ∨ update.type = .modified) ∧
        update.node.id = id ∧ update.location = location := by
  rw [← Option.isSome_iff_exists, isSome_prevailing]
  constructor
  · intro nonempty
    obtain ⟨update, member⟩ := List.exists_mem_of_ne_nil _ nonempty
    obtain ⟨came, supported, id, location⟩ := mem_ownUpdates.mp member
    exact ⟨update, came, EventType.carriesState_iff.mp supported, id, location⟩
  · rintro ⟨update, came, type, id, location⟩
    exact List.ne_nil_of_mem
      (mem_ownUpdates.mpr ⟨came, EventType.carriesState_iff.mpr type, id, location⟩)

section Reflects

variable {regions partitions : Nat} {updates : List Update} (reflects : store.Reflects updates)
  (covers : ∀ id location, (∃ k, store.route? id location = some k) ↔
    location.region.index < regions ∧ location.partition.index < partitions)
include reflects covers

/-- What is held of a key is what prevails, and nothing outside the topology. -/
theorem Reflects.mem_iff :
    (stored ∈ store.stored ∧ stored.node.key = (id, some location)) ↔
      (location.region.index < regions ∧ location.partition.index < partitions) ∧
        prevailing (ownUpdates id location updates) = some stored := by
  rw [reflects.sound.mem_iff, ← covers id location]
  constructor
  · rintro ⟨k, routed, found⟩
    exact ⟨⟨k, routed⟩, by rw [← reflects.content routed, found]⟩
  · rintro ⟨⟨k, routed⟩, prevails⟩
    exact ⟨k, routed, by rw [reflects.content routed, prevails]⟩

/-- The keys that are held are those that were submitted. -/
theorem Reflects.keys_perm : (store.stored.map (·.node.key)).Perm
    ((submittedKeys regions partitions updates).dedup.map fun key => (key.1, some key.2)) := by
  have distinct : ((submittedKeys regions partitions updates).dedup.map
      fun key => (key.1, some key.2)).Nodup := by
    refine (List.nodup_dedup _).map ?_
    rintro ⟨id, location⟩ ⟨otherId, otherLocation⟩ same
    simpa using same
  refine (List.perm_ext_iff_of_nodup reflects.sound.nodup_stored distinct).mpr ?_
  rintro ⟨id, place⟩
  simp only [List.mem_map, List.mem_dedup, submittedKeys, List.mem_filter, decide_eq_true_eq,
    Prod.mk.injEq, Prod.exists]
  constructor
  · rintro ⟨stored, member, key⟩
    obtain ⟨asked, location, same⟩ := reflects.sound.exists_key member
    obtain ⟨rfl, rfl⟩ := Prod.mk.inj (same.symm.trans key)
    obtain ⟨inside, prevails⟩ := (reflects.mem_iff covers).mp ⟨member, key⟩
    obtain ⟨update, came, type, rfl, rfl⟩ := exists_prevailing_iff.mp ⟨stored, prevails⟩
    exact ⟨_, _, ⟨update, ⟨came, EventType.carriesState_iff.mpr type, inside⟩, rfl, rfl⟩, rfl, rfl⟩
  · rintro ⟨_, _, ⟨update, ⟨came, supported, inside⟩, rfl, rfl⟩, rfl, rfl⟩
    obtain ⟨stored, prevails⟩ := exists_prevailing_iff.mpr
      ⟨update, came, EventType.carriesState_iff.mp supported, rfl, rfl⟩
    exact ⟨stored, (reflects.mem_iff covers).mpr ⟨inside, prevails⟩⟩

/-- A node store that reflects updates accounts for them. -/
theorem Reflects.accountsFor : store.AccountsFor regions partitions updates where
  held_iff id location := by
    simp only [← exists_prevailing_iff]
    constructor
    · rintro ⟨stored, member, key⟩
      obtain ⟨inside, prevails⟩ := (reflects.mem_iff covers).mp ⟨member, key⟩
      exact ⟨inside, stored, prevails⟩
    · rintro ⟨inside, stored, prevails⟩
      exact ⟨stored, (reflects.mem_iff covers).mpr ⟨inside, prevails⟩⟩
  content id location region partition := by
    have sound := reflects.sound
    obtain ⟨k, routed⟩ := (covers id location).mpr ⟨region, partition⟩
    obtain ⟨target, here, standing⟩ := sound.laid.location_of_locate? routed
    refine ⟨k, target, routed, here, standing, ?_, ?_⟩
    · have distinct := nodup_keys sound (List.nodup_singleton k)
      simp only [List.filterMap_cons, here, List.filterMap_nil, List.flatMap_cons,
        List.flatMap_nil, List.append_nil] at distinct
      refine filter_key_eq distinct fun stored => ?_
      rw [mem_stored_key_iff sound here, reflects.content routed]
      simp [routed]
    · refine filter_key_eq sound.nodup_stored fun stored => ?_
      rw [reflects.mem_iff covers]
      simp [region, partition]
  version id location stored member key := by
    obtain ⟨-, prevails⟩ := (reflects.mem_iff covers).mp ⟨member, key⟩
    cases own : ownUpdates id location updates with
    | nil => simp [own, prevailing] at prevails
    | cons first rest =>
      obtain ⟨last, found, version⟩ := prevailing_cons first rest
      rw [own, found] at prevails
      exact ⟨first, rest, rfl, Option.some.inj prevails ▸ version⟩
  total_eq_hosts := reflects.total
  total_eq_nodes := reflects.total.trans reflects.sound.hosts_eq
  total_eq_keys := by
    have count := (reflects.keys_perm covers).length_eq
    have nodes : store.stored.length = (store.stores.toList.map (·.nodes.length)).sum := by
      simp [NodeStore.stored, List.length_flatMap, VirtualStore.nodes]
    rw [List.length_map, List.length_map] at count
    rw [reflects.total, reflects.sound.hosts_eq, ← nodes, count]

end Reflects

end NodeStore

end FleetRing
