import FleetRing.Proofs.Chained
import FleetRing.Proofs.Store.Batch
import FleetRing.Proofs.Store.Prevailing
import Mathlib.Algebra.BigOperators.Group.List.Basic
import Mathlib.Algebra.GroupWithZero.Nat

/-!
# What its history makes of a node store

`NodeStore.Step` lists what happens to a node store: a batch is processed, a store is
handed to a client, or the queues that are told of changes become something else, in
whatever way. `Reflects` describes the result by the updates that were submitted, in
order, and by nothing else; so owners and queues have no part in it.
-/

namespace FleetRing

/-- The updates that carry the state of the node with an id at a location, in order. -/
def ownUpdates (id : String) (location : Location) (updates : List Update) : List Update :=
  updates.filter fun update =>
    update.type.carriesState ∧ update.node.id = id ∧ update.location = location

section OwnUpdates

variable {id : String} {location : Location} {update : Update} {updates : List Update}

theorem mem_ownUpdates : update ∈ ownUpdates id location updates ↔
    update ∈ updates ∧ update.type.carriesState = true ∧ update.node.id = id ∧
      update.location = location := by
  simp [ownUpdates]

/-- One more update is one of the node's own, or has no part in it. -/
theorem prevailing_concat (id : String) (location : Location) (updates : List Update)
    (update : Update) : prevailing (ownUpdates id location (updates ++ [update])) =
      if update.type.carriesState = true ∧ update.node.id = id ∧ update.location = location then
        Update.prevail (prevailing (ownUpdates id location updates)) update
      else prevailing (ownUpdates id location updates) := by
  by_cases own : update.type.carriesState = true ∧ update.node.id = id ∧ update.location = location
  · simp [ownUpdates, prevailing, own, List.foldl_append]
  · rw [if_neg own]
    congr 1
    simpa [ownUpdates] using own

end OwnUpdates

/-- A store without its owner. -/
def VirtualStore.vacated (store : VirtualStore) : VirtualStore :=
  { store with owner := none }

namespace NodeStore

variable {store next : NodeStore} {id : String} {location : Location} {k : Nat}
  {update : Update} {updates batch : List Update}

/-- A node store without owners. -/
def vacated (store : NodeStore) : NodeStore :=
  { store with stores := store.stores.map (·.vacated) }

theorem getElem?_vacated (store : NodeStore) (k : Nat) :
    store.vacated.stores[k]? = (store.stores[k]?).map (·.vacated) :=
  Array.getElem?_map

@[simp]
theorem find?_vacated (store : NodeStore) (k : Nat) (id : String) :
    store.vacated.find? k id = store.find? k id := by
  simp only [find?, getElem?_vacated]
  cases store.stores[k]? <;> rfl

/-- The hosts of all stores. -/
def hosts (store : NodeStore) : Nat :=
  (store.stores.toList.map (·.hosts)).sum

@[simp]
theorem hosts_vacated (store : NodeStore) : store.vacated.hosts = store.hosts := by
  simp only [hosts, vacated, Array.toList_map, List.map_map]
  rfl

theorem samePlan_vacated (store : NodeStore) : SamePlan store store.vacated :=
  ⟨rfl, rfl, Array.size_map⟩

section Vacated

variable (same : next.vacated = store.vacated)
include same

theorem find?_eq_of_vacated (k : Nat) (id : String) : next.find? k id = store.find? k id := by
  rw [← find?_vacated, same, find?_vacated]

theorem samePlan_of_vacated : SamePlan store next where
  ring := (congrArg ring same : next.vacated.ring = store.vacated.ring)
  perLocation := (congrArg perLocation same : next.vacated.perLocation = store.vacated.perLocation)
  size := by rw [← (samePlan_vacated next).size, same, (samePlan_vacated store).size]

/-- Each store is what it was, up to its owner. -/
theorem exists_of_vacated {target : VirtualStore} (here : next.stores[k]? = some target) :
    ∃ before, store.stores[k]? = some before ∧ target = { before with owner := target.owner } := by
  have empty := getElem?_vacated next k
  rw [same, getElem?_vacated, here, Option.map_some] at empty
  obtain ⟨before, there, equal⟩ := Option.map_eq_some_iff.mp empty
  refine ⟨before, there, ?_⟩
  exact (congrArg (fun vacant : VirtualStore => { vacant with owner := target.owner }) equal).symm

/-- Nothing in the soundness of a store is about owners. -/
theorem Sound.congr (sound : store.Sound) : next.Sound := by
  have plan := samePlan_of_vacated same
  have places : ∀ k : Nat,
      (next.stores[k]?).map (·.location) = (store.stores[k]?).map (·.location) := by
    intro k
    have vacant := congrArg (fun nodes : NodeStore => (nodes.stores[k]?).map (·.location)) same
    simp only [getElem?_vacated, Option.map_map] at vacant
    exact vacant
  refine ⟨⟨plan.perLocation ▸ sound.laid.positive, fun k => ?_⟩, fun k target here => ?_,
    fun k target here => ?_, fun k target id stored here found => ?_⟩
  · rw [places, sound.laid.location_eq, plan.ring, plan.perLocation]
  all_goals obtain ⟨before, there, equal⟩ := exists_of_vacated same here
  · rw [equal]
    exact ⟨(sound.maps k before there).slot, (sound.maps k before there).unique⟩
  · rw [equal]
    exact sound.counted k before there
  · rw [find?_eq_of_vacated same] at found
    rw [plan.route?, equal]
    exact sound.home k before id stored there found

end Vacated

/-- Handing a store to a client changes its owner and nothing else. -/
theorem vacated_assign {target handed : VirtualStore} {client : String} {queue : Nat}
    (here : store.stores[k]? = some target) (given : target.assign? client queue = some handed) :
    ({ store with stores := store.stores.setIfInBounds k handed } : NodeStore).vacated =
      store.vacated := by
  have same : handed.vacated = target.vacated := by
    unfold VirtualStore.assign? at given
    split at given
    · cases given
    · obtain rfl := Option.some.inj given
      rfl
  have whole : (store.stores.setIfInBounds k handed).map (·.vacated) =
      store.stores.map (·.vacated) := by
    refine Array.ext_getElem? fun i => ?_
    rw [Array.getElem?_map, Array.getElem?_map, Array.getElem?_setIfInBounds]
    split
    · next there =>
      subst there
      rw [if_pos (Array.getElem?_eq_some_iff.mp here).1, here, Option.map_some, Option.map_some,
        same]
    · rfl
  simp only [vacated, whole]

/-- An update that there is a store for goes through that store, applied or not. -/
theorem absorb_of_routed {target : VirtualStore}
    (routed : store.route? update.node.id update.location = some k)
    (here : store.stores[k]? = some target) : store.absorb update =
      store.replace k (target.apply (.ofId update.node.id) update).1
        (target.apply (.ofId update.node.id) update).2 := by
  have located : store.locate? (.ofId update.node.id) update.location = some k := routed
  simp only [absorb, submit, Batch.step, located, here]

/-- An update outside the topology changes nothing. -/
theorem absorb_of_unrouted (unrouted : store.route? update.node.id update.location = none) :
    store.absorb update = store := by
  refine absorb_of_refused ?_
  simp only [acceptor?, unrouted]

/-- An update bears on the node that it is about, and on no other one. -/
theorem find?_absorb (sound : store.Sound) (update : Update)
    (routed : store.route? id location = some k) : (store.absorb update).find? k id =
      if update.type.carriesState = true ∧ update.node.id = id ∧ update.location = location then
        Update.prevail (store.find? k id) update
      else store.find? k id := by
  cases goes : store.route? update.node.id update.location with
  | none =>
    rw [absorb_of_unrouted goes, if_neg]
    rintro ⟨-, rfl, rfl⟩
    rw [routed] at goes
    cases goes
  | some j =>
    obtain ⟨target, here, standing⟩ := sound.laid.location_of_locate? goes
    obtain ⟨other, there, place⟩ := sound.laid.location_of_locate? routed
    rw [absorb_of_routed goes here]
    simp only [find?, getElem?_replace here]
    by_cases same : k = j
    · subst same
      obtain rfl := Option.some.inj (here.symm.trans there)
      obtain rfl := place.symm.trans standing
      simp only [if_true, here, Option.bind_some, VirtualStore.find?_apply_eq]
      by_cases asked : update.node.id = id
      · simp [asked]
      · have unequal : ¬ id = update.node.id := fun equal => asked equal.symm
        simp [asked, unequal]
    · rw [if_neg same, if_neg]
      rintro ⟨-, rfl, rfl⟩
      exact same (Option.some.inj (routed.symm.trans goes))

/-- Putting a store in the place of another one exchanges their hosts. -/
theorem sum_hosts_set (stores : List VirtualStore) {target : VirtualStore}
    (here : stores[k]? = some target) (changed : VirtualStore) :
    ((stores.set k changed).map (·.hosts)).sum + target.hosts =
      (stores.map (·.hosts)).sum + changed.hosts := by
  induction stores generalizing k with
  | nil => simp at here
  | cons first rest ih =>
    cases k with
    | zero =>
      obtain rfl : first = target := by simpa using here
      simp only [List.set_cons_zero, List.map_cons, List.sum_cons]
      omega
    | succ k =>
      have later := ih (by simpa using here)
      simp only [List.set_cons_succ, List.map_cons, List.sum_cons]
      omega

/-- The total grows with the hosts of the store that changes. -/
theorem total_absorb (total : store.totalHosts = store.hosts) (update : Update) :
    (store.absorb update).totalHosts = (store.absorb update).hosts := by
  cases accepted : store.acceptor? update with
  | none => rwa [absorb_of_refused accepted]
  | some k =>
    obtain ⟨target, -, here, -, same⟩ := absorb_of_accepted accepted
    have exchanged := sum_hosts_set store.stores.toList (by simpa using here)
      (target.apply (.ofId update.node.id) update).1
    have counts := target.hosts_apply (.ofId update.node.id) update
    rw [same]
    simp only [replace, hosts, Array.toList_setIfInBounds] at total exchanged ⊢
    split at counts
    · next new => rw [if_pos new]; omega
    · next old => rw [if_neg old]; omega

/-- Everything that can happen to a node store and to the queues that it tells of changes. -/
inductive Step : NodeStore × QueueTable → List Update → NodeStore × QueueTable → Prop where
  | process {store : NodeStore} {queues : QueueTable} {updates : List Update}
      (resolved : ∀ update ∈ updates, update.Resolved) :
      Step (store, queues) updates
        ((store.process queues updates).store, (store.process queues updates).queues)
  | assign {store : NodeStore} {queues : QueueTable} {k queue : Nat} {client : String}
      {target handed : VirtualStore} (here : store.stores[k]? = some target)
      (given : target.assign? client queue = some handed) :
      Step (store, queues) [] ({ store with stores := store.stores.setIfInBounds k handed }, queues)
  /-- Clients watch, fall behind, come and go. -/
  | requeue {store : NodeStore} {queues : QueueTable} (other : QueueTable) :
      Step (store, queues) [] (store, other)

/-- Histories of node stores, with the updates that were submitted. -/
abbrev Steps : NodeStore × QueueTable → List Update → NodeStore × QueueTable → Prop :=
  Chained Step

/-- The nodes that are held are those that the updates leave. -/
structure Holds (store : NodeStore) (updates : List Update) : Prop where
  sound : store.Sound
  content : ∀ {id : String} {location : Location} {k : Nat}, store.route? id location = some k →
    store.find? k id = prevailing (ownUpdates id location updates)
  total : store.totalHosts = store.hosts

/-- Nodes and versions are those that the updates leave. -/
structure Reflects (store : NodeStore) (updates : List Update) : Prop extends
    store.Holds updates where
  versions : store.versions.Collects (store.sightings updates)

namespace Holds

/-- Each update does its part. -/
theorem absorb (holds : store.Holds updates) (resolved : update.Resolved) :
    (store.absorb update).Holds (updates ++ [update]) where
  sound := holds.sound.submit {} resolved
  content {id location k} routed := by
    rw [(samePlan_absorb store update).route?] at routed
    rw [find?_absorb holds.sound update routed, prevailing_concat, holds.content routed]
  total := total_absorb holds.total update

theorem foldl_absorb (holds : store.Holds updates) (resolved : ∀ update ∈ batch, update.Resolved) :
    (batch.foldl NodeStore.absorb store).Holds (updates ++ batch) := by
  induction batch generalizing store updates with
  | nil => simpa using holds
  | cons update batch ih =>
    have first := holds.absorb (resolved update List.mem_cons_self)
    have rest := ih first fun other member => resolved other (List.mem_cons_of_mem update member)
    simpa using rest

/-- The versions seen so far have no part in it. -/
theorem withVersions (holds : store.Holds updates) (versions : VersionMap) :
    ({ store with versions } : NodeStore).Holds updates where
  sound :=
    have sound := holds.sound
    ⟨⟨sound.laid.positive, sound.laid.location_eq⟩, sound.maps, sound.counted, sound.home⟩
  content := holds.content
  total := holds.total

end Holds

/-- Owners have no part in what a store reflects. -/
theorem Reflects.congr (reflects : store.Reflects updates) (same : next.vacated = store.vacated) :
    next.Reflects updates where
  sound := reflects.sound.congr same
  content {id location k} routed := by
    rw [(samePlan_of_vacated same).route?] at routed
    rw [find?_eq_of_vacated same, reflects.content routed]
  total := by
    rw [← hosts_vacated, same, hosts_vacated, ← reflects.total]
    exact (congrArg totalHosts same : next.vacated.totalHosts = store.vacated.totalHosts)
  versions := by
    have seen : next.versions = store.versions :=
      (congrArg NodeStore.versions same : next.vacated.versions = store.vacated.versions)
    rw [(samePlan_of_vacated same).sightings, seen]
    exact reflects.versions

variable {state later : NodeStore × QueueTable} {history : List Update}

/-- What happens to a node store leaves its plan. -/
theorem Step.samePlan (transition : Step state batch later) : SamePlan state.1 later.1 := by
  cases transition with
  | @process store queues _ resolved =>
    obtain ⟨same, -⟩ := store.process_spec queues batch
    have plan := samePlan_foldl_absorb store batch
    simp only [same]
    exact ⟨plan.ring, plan.perLocation, plan.size⟩
  | assign here given => exact ⟨rfl, rfl, Array.size_setIfInBounds⟩
  | requeue other => exact ⟨rfl, rfl, rfl⟩

theorem Steps.samePlan (run : Steps state history later) : SamePlan state.1 later.1 := by
  induction run with
  | refl => exact ⟨rfl, rfl, rfl⟩
  | step prior transition ih => exact ih.trans transition.samePlan

/-- What happens to a node store adds to its history. -/
theorem Reflects.step (reflects : state.1.Reflects updates) (transition : Step state batch later) :
    later.1.Reflects (updates ++ batch) := by
  cases transition with
  | @process store queues _ resolved =>
    obtain ⟨same, -⟩ := store.process_spec queues batch
    have seen := reflects.versions.merge (VersionMap.Collects.ofList (store.sightings batch))
    have plan := samePlan_foldl_absorb store batch
    simp only [same]
    refine ⟨(reflects.toHolds.foldl_absorb resolved).withVersions _, ?_⟩
    have sightings : ({ batch.foldl NodeStore.absorb store with
        versions := store.versions.merge (.ofList (store.sightings batch)) } : NodeStore).sightings
          (updates ++ batch) = store.sightings (updates ++ batch) :=
      SamePlan.sightings ⟨plan.ring, plan.perLocation, plan.size⟩ _
    rw [sightings, sightings_append]
    exact seen
  | assign here given =>
    rw [List.append_nil]
    exact reflects.congr (vacated_assign here given)
  | requeue other =>
    rw [List.append_nil]
    exact reflects

theorem Reflects.steps (reflects : state.1.Reflects updates) (run : Steps state history later) :
    later.1.Reflects (updates ++ history) := by
  induction run with
  | refl => simpa using reflects
  | step prior transition ih =>
    rw [← List.append_assoc]
    exact ih.step transition

/-- What creation makes. -/
theorem create_eq_ok {perLocation regions partitions : Nat} :
    create perLocation regions partitions = .ok store ↔
      0 < perLocation ∧ ∃ topology : Topology, topology.regions = regions ∧
        topology.partitions = partitions ∧ store = .ofTopology topology perLocation := by
  unfold create Topology.ofCounts
  constructor
  · intro created
    split at created
    · cases created
    · next positive =>
      split at created
      · next topology made =>
        split at made
        · cases made
        · split at made
          · cases made
          · obtain rfl := Except.ok.inj made
            exact ⟨Nat.pos_of_ne_zero positive, _, rfl, rfl, (Except.ok.inj created).symm⟩
      · cases created
  · rintro ⟨positive, topology, rfl, rfl, rfl⟩
    have regions := topology.regions_pos
    have fewRegions := topology.regions_le
    have partitions := topology.partitions_pos
    have fewPartitions := topology.partitions_le
    rw [if_neg (by omega)]
    simp only [show ¬ (topology.regions = 0 ∨ Region.count < topology.regions) by omega,
      show ¬ (topology.partitions = 0 ∨ Partition.count < topology.partitions) by omega,
      dite_false]

/-- A new node store reflects that nothing was submitted. -/
theorem reflects_ofTopology (topology : Topology) {perLocation : Nat} (positive : 0 < perLocation) :
    (ofTopology topology perLocation).Reflects [] where
  sound := sound_ofTopology topology positive
  content _ := find?_ofTopology topology perLocation _ _
  total := by
    have nothing : ∀ count ∈ (ofTopology topology perLocation).stores.toList.map (·.hosts),
        count = 0 := by
      intro count member
      obtain ⟨target, inside, rfl⟩ := List.mem_map.mp member
      obtain ⟨k, here⟩ := List.mem_iff_getElem?.mp inside
      exact (blank_ofTopology (by simpa using here)).2
    exact (List.sum_eq_zero nothing).symm
  versions := .empty

/-- Exactly the locations of the topology are served. -/
theorem exists_route?_iff {topology : Topology} (ring : store.ring.topology = topology) :
    (∃ k, store.route? id location = some k) ↔
      location.region.index < topology.regions ∧
        location.partition.index < topology.partitions := by
  subst ring
  simp only [route?, locate?]
  cases index : store.ring.topology.indexOf? location with
  | none =>
    have outside : ¬ (location.region.index < store.ring.topology.regions ∧
        location.partition.index < store.ring.topology.partitions) := by
      intro inside
      simp [Topology.indexOf?, inside] at index
    simp [outside]
  | some i =>
    obtain ⟨arc, here⟩ := store.ring.exists_arcOf? index
    have inside : location.region.index < store.ring.topology.regions ∧
        location.partition.index < store.ring.topology.partitions := by
      by_contra outside
      simp [Topology.indexOf?, outside] at index
    simp [here, inside]

/-- A node store reflects its history, and serves the locations of its topology. -/
theorem reflects_of_created {perLocation regions partitions : Nat}
    (created : create perLocation regions partitions = .ok state.1)
    (run : Steps state history later) : later.1.Reflects history ∧
      ∀ id location, (∃ k, later.1.route? id location = some k) ↔
        location.region.index < regions ∧ location.partition.index < partitions := by
  obtain ⟨positive, topology, rfl, rfl, made⟩ := create_eq_ok.mp created
  have start : state.1.Reflects [] := made ▸ reflects_ofTopology topology positive
  refine ⟨by simpa using start.steps run, fun id location => ?_⟩
  refine exists_route?_iff ?_
  rw [(Steps.samePlan run).ring, made]
  rfl

end NodeStore

end FleetRing
