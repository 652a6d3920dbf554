import FleetRing.Proofs.Store.Inventory

/-!
# Where updates are routed

Stores are numbered in blocks of one location each, and a token is served within the block of its
location. The position of the token only chooses within the block, and that choice is cut off at
its ends; so routing leads to a store of the location whatever the positions are, even when they
are no numbers at all.

A batch is carried out here with an eye on the stores: an update that is located where no store is
breaks it off. `routes_truly` says that no batch ever does, and that every node lies at the location
of its store.
-/

namespace FleetRing

/-- The number and the place of a store on the ring. -/
def VirtualStore.site (store : VirtualStore) : Nat × Location × Arc Float :=
  (store.index, store.location, store.arc)

namespace VirtualStore

/-- Taking in an update leaves a store where it is. -/
theorem site_apply (store : VirtualStore) (token : Token) (update : Update) :
    (store.apply token update).1.site = store.site := by
  obtain ⟨index, location, arc, -⟩ := store.apply_frame token update
  simp only [site, index, location, arc]

/-- So does being handed out. -/
theorem site_of_assign? {store handed : VirtualStore} {client : String} {queue : Nat}
    (given : store.assign? client queue = some handed) : handed.site = store.site := by
  unfold assign? at given
  split at given
  · cases given
  · obtain rfl := Option.some.inj given
    rfl

end VirtualStore

namespace NodeStore

variable {store : NodeStore} {location : Location} {updates : List Update}

/-- Process one update of a batch, and break off where it is located at no store. -/
def Batch.step? (batch : Batch) (update : Update) : Option Batch :=
  match batch with
  | ⟨store, queues, observed, stats⟩ =>
    let token := Token.ofId update.node.id
    match store.locate? token update.location with
    | none => some ⟨store, queues, observed, { stats with unroutable := stats.unroutable + 1 }⟩
    | some index =>
      (store.stores[index]?).map fun target =>
        let (changed, mutation) := target.apply token update
        ⟨store.replace index changed mutation, notify queues target.owner mutation update,
          observed.observe update.location update.version, stats.record mutation update.node⟩

/-- Process a batch of updates in order, unless it breaks off. -/
def process? (store : NodeStore) (queues : QueueTable) (updates : List Update) : Option Batch :=
  (updates.foldlM Batch.step? { store, queues }).map Batch.finish

/-- An update leaves stores where the ring puts them. -/
theorem Laid.absorb (laid : store.Laid) (update : Update) : (store.absorb update).Laid where
  positive := (samePlan_absorb store update).perLocation ▸ laid.positive
  location_eq k := by
    have plan := samePlan_absorb store update
    have kept := frame_absorb
      (fun target token update => (target.apply_frame token update).2.1) store update k
    rw [kept, laid.location_eq, plan.ring, plan.perLocation]

/-- One update does not break off. -/
theorem Batch.step?_eq {batch : Batch} (laid : batch.store.Laid) (update : Update) :
    batch.step? update = some (batch.step update) := by
  obtain ⟨store, queues, observed, stats⟩ := batch
  simp only [step?, step]
  cases located : store.locate? (.ofId update.node.id) update.location with
  | none => rfl
  | some index =>
    obtain ⟨target, here, -⟩ := laid.location_of_locate? located
    simp only [here, Option.map_some]

/-- Neither do many of them. -/
theorem Batch.foldlM_step?_eq {batch : Batch} (laid : batch.store.Laid) :
    updates.foldlM Batch.step? batch = some (updates.foldl Batch.step batch) := by
  induction updates generalizing batch with
  | nil => rfl
  | cons update updates ih =>
    have after : (batch.step update).store.Laid := by
      rw [Batch.step_store]
      exact laid.absorb update
    rw [List.foldlM_cons, Batch.step?_eq laid update, Option.bind_eq_bind, Option.bind_some,
      ih after, List.foldl_cons]

/-- So no batch does. -/
theorem Laid.process?_eq (laid : store.Laid) (queues : QueueTable) (updates : List Update) :
    store.process? queues updates = some (store.process queues updates) := by
  have start : (Batch.mk store queues .empty {}).store.Laid := laid
  rw [process?, Batch.foldlM_step?_eq start, Option.map_some, process]

/-- A new node store has a store for each entry of the layout, in order. -/
theorem site_ofTopology (topology : Topology) (perLocation k : Nat) :
    ((ofTopology topology perLocation).stores[k]?).map (·.site) =
      (((Ring.ofTopology topology : Ring Float).layout perLocation)[k]?).map fun entry =>
        (k, entry) := by
  simp only [ofTopology, List.getElem?_toArray, List.getElem?_map, List.getElem?_zipIdx,
    Option.map_map, Nat.zero_add]
  rfl

variable {state later : NodeStore × QueueTable} {history : List Update}

/-- Nothing that happens to a node store moves a store. -/
theorem Step.site_eq (transition : Step state updates later) (k : Nat) :
    (later.1.stores[k]?).map (·.site) = (state.1.stores[k]?).map (·.site) := by
  cases transition with
  | @process store queues _ resolved =>
    simp only [(store.process_spec queues updates).1]
    exact frame_foldl_absorb VirtualStore.site_apply store updates k
  | @assign store queues i queue client target handed here given =>
    have inside := (Array.getElem?_eq_some_iff.mp here).1
    by_cases same : i = k
    · subst same
      simp only [Array.getElem?_setIfInBounds, inside, if_true, here, Option.map_some,
        VirtualStore.site_of_assign? given]
    · simp only [Array.getElem?_setIfInBounds, same, if_false]
  | requeue other => rfl

theorem Steps.site_eq (run : Steps state history later) (k : Nat) :
    (later.1.stores[k]?).map (·.site) = (state.1.stores[k]?).map (·.site) := by
  induction run with
  | refl => rfl
  | step prior transition ih => exact (transition.site_eq k).trans ih

/-- Whatever is computed with positions, and with whichever numbers, it leads to a store of the
location. -/
theorem Laid.exists_storeOf (laid : store.Laid) {α : Type} [Scalar α] {i : Nat}
    (found : store.ring.topology.indexOf? location = some i) (arc : Arc α) (degrees : α) :
    ∃ target, store.stores[arc.storeOf i store.perLocation degrees]? = some target ∧
      target.location = location := by
  obtain ⟨part, placed⟩ :=
    store.ring.getElem?_layout (arc.partOf_lt laid.positive degrees) found
  have same := laid.location_eq (arc.storeOf i store.perLocation degrees)
  rw [Arc.storeOf, placed] at same
  exact Option.map_eq_some_iff.mp same

/-- Routing leads from every location of a topology to a store of that location, from no other
location anywhere, and nodes lie where it led. -/
structure RoutesTruly (store : NodeStore) (perLocation regions partitions : Nat) : Prop where
  /-- There are as many stores for each location, -/
  size_eq : store.stores.size = regions * partitions * perLocation
  /-- which are numbered along the ring. -/
  site : ∀ (k : Nat) (target : VirtualStore), store.stores[k]? = some target →
    target.index = k ∧ store.ring.topology.locationAt? (k / perLocation) = some target.location
  /-- Nothing is routed outside the topology, -/
  route?_eq_none_iff : ∀ (id : String) (location : Location), store.route? id location = none ↔
    ¬ (location.region.index < regions ∧ location.partition.index < partitions)
  /-- and everything within it to a store of its location, -/
  route? : ∀ (id : String) (location : Location),
    location.region.index < regions ∧ location.partition.index < partitions →
      ∃ k target, store.route? id location = some k ∧ k < store.stores.size ∧
        store.stores[k]? = some target ∧ target.location = location
  /-- whatever arc and position are computed, and in whichever arithmetic. -/
  storeOf : ∀ (location : Location) (i : Nat),
    store.ring.topology.indexOf? location = some i →
      ∀ {α : Type} [Scalar α] (arc : Arc α) (degrees : α),
        ∃ target, store.stores[arc.storeOf i perLocation degrees]? = some target ∧
          target.location = location
  /-- So no batch breaks off, -/
  process? : ∀ (queues : QueueTable) (updates : List Update),
    store.process? queues updates = some (store.process queues updates)
  /-- and every node reports the location of its store. -/
  home : ∀ (k : Nat) (target : VirtualStore), store.stores[k]? = some target →
    ∀ stored ∈ target.stored, stored.node.location? = some target.location

/-- Whatever happens to a node store, it routes truly. -/
theorem routes_truly {perLocation regions partitions : Nat} {start nodes : NodeStore}
    {told queues : QueueTable} (created : create perLocation regions partitions = .ok start)
    (run : Steps (start, told) history (nodes, queues)) :
    nodes.RoutesTruly perLocation regions partitions := by
  obtain ⟨reflects, covers⟩ := reflects_of_created created run
  obtain ⟨-, topology, rfl, rfl, rfl⟩ := create_eq_ok.mp created
  have sound := reflects.sound
  have plan : SamePlan (ofTopology topology perLocation) nodes := run.samePlan
  have perLocation_eq : nodes.perLocation = perLocation := plan.perLocation
  have ring : nodes.ring = .ofTopology topology := plan.ring
  refine ⟨?_, fun k target here => ?_, fun id location => ?_, fun id location inside => ?_,
    fun location i found {α} _ arc degrees => ?_, sound.laid.process?_eq,
    fun k target here stored member => ?_⟩
  · rw [plan.size]
    simp only [ofTopology, List.size_toArray, List.length_map, List.length_zipIdx,
      Ring.length_layout]
    rfl
  · have sites := run.site_eq k
    rw [here, site_ofTopology, Option.map_some] at sites
    obtain ⟨entry, placed, same⟩ := Option.map_eq_some_iff.mp sites.symm
    obtain ⟨index, rfl⟩ := Prod.mk.inj same
    have positive := perLocation_eq ▸ sound.laid.positive
    rw [ring]
    exact ⟨index.symm, Ring.locationAt?_of_layout _ positive placed⟩
  · rw [← covers id location, Option.eq_none_iff_forall_ne_some]
    simp
  · obtain ⟨k, routed⟩ := (covers id location).mpr inside
    obtain ⟨target, here, standing⟩ := sound.laid.location_of_locate? routed
    exact ⟨k, target, routed, (Array.getElem?_eq_some_iff.mp here).1, here, standing⟩
  · have placed := sound.laid.exists_storeOf found arc degrees
    rwa [perLocation_eq] at placed
  · have found := (mem_stored_iff sound here).mp member
    exact (sound.home k target _ stored here found).2.1

/-- Sixteen locations with two stores each. -/
def blankHalves : NodeStore :=
  .ofTopology ⟨4, 4, by decide, by decide, by decide, by decide⟩ 2

/-- A node comes to a location of the topology, and another one to a location outside. -/
def scatteredReports : List Update :=
  [{ event := { type := .added, node := .fresh "a" 5 ⟨.guizhou, .rp4⟩ }
     location := ⟨.guizhou, .rp4⟩
     version := 5 },
   { event := { type := .added, node := .fresh "b" 7 ⟨.reserved1, .rp1⟩ }
     location := ⟨.reserved1, .rp1⟩
     version := 7 }]

/-- What they leave. -/
def scatteredBatch : Batch :=
  blankHalves.process {} scatteredReports

/-- The node is in one of the last two stores, the other one is nowhere, and an arc and a position
that are no numbers lead to one of the last two stores as well. -/
theorem routes_truly_scattered :
    scatteredBatch.store.RoutesTruly 2 4 4 ∧ scatteredBatch.stats.unroutable = 1 ∧
      scatteredBatch.store.route? "b" ⟨.reserved1, .rp1⟩ = none ∧
      (scatteredBatch.store.stores.toList.drop 30).map (·.hosts) = [0, 1] ∧
      ∃ target, scatteredBatch.store.stores[
          (Arc.mk (0 / 0 : Float) (0 / 0)).storeOf 15 2 (0 / 0)]? = some target ∧
        target.location = ⟨.guizhou, .rp4⟩ := by
  have resolved : ∀ update ∈ scatteredReports, update.Resolved := by
    simp only [scatteredReports, List.mem_cons, List.not_mem_nil, or_false]
    rintro update (rfl | rfl)
    · exact ⟨by decide +kernel, by decide +kernel⟩
    · exact ⟨by decide +kernel, by decide +kernel⟩
  have created : create 2 4 4 = .ok blankHalves := rfl
  have run : Steps (blankHalves, {}) scatteredReports
      (scatteredBatch.store, scatteredBatch.queues) := .single (.process resolved)
  have whole := routes_truly created run
  have number : scatteredBatch.store.ring.topology.indexOf? ⟨.guizhou, .rp4⟩ = some 15 := by
    decide +kernel
  refine ⟨whole, by decide +kernel, ?_, by decide +kernel,
    whole.storeOf ⟨.guizhou, .rp4⟩ 15 number _ _⟩
  exact (whole.route?_eq_none_iff "b" ⟨.reserved1, .rp1⟩).mpr (by decide)

end NodeStore

end FleetRing
