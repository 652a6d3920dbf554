import FleetRing.Proofs.Store.Ingestion
import FleetRing.Proofs.Version.Collects

/-!
# What a batch comes to

A batch is split into what each of its updates does alone. `absorb` is the store after one
update; neither it nor the choice of the store that applies an update depends on any
queue. `applied` lists what a batch applies, and with `sightings` it says everything else
that a batch leaves: versions, touched nodes, and what the owners of stores are told.
-/

namespace FleetRing

namespace NodeStore

variable {store other : NodeStore} {queues : QueueTable} {update : Update} {updates : List Update}

/-- Is there a store for an update? -/
def routes (store : NodeStore) (update : Update) : Bool :=
  match store.route? update.node.id update.location with
  | some k => decide (k < store.stores.size)
  | none => false

/-- The locations and versions of the updates that there is a store for. -/
def sightings (store : NodeStore) (updates : List Update) : List (Location × Version) :=
  (updates.filter store.routes).map fun update => (update.location, update.version)

theorem sightings_append (store : NodeStore) (earlier later : List Update) :
    store.sightings (earlier ++ later) = store.sightings earlier ++ store.sightings later := by
  simp [sightings]

/-- Nothing that routing looks at differs. -/
structure SamePlan (store other : NodeStore) : Prop where
  ring : other.ring = store.ring
  perLocation : other.perLocation = store.perLocation
  size : other.stores.size = store.stores.size

namespace SamePlan

theorem trans {third : NodeStore} (first : SamePlan store other) (second : SamePlan other third) :
    SamePlan store third :=
  ⟨second.ring.trans first.ring, second.perLocation.trans first.perLocation,
    second.size.trans first.size⟩

variable (same : SamePlan store other)
include same

theorem route? (id : String) (location : Location) :
    other.route? id location = store.route? id location := by
  simp only [NodeStore.route?, locate?, same.ring, same.perLocation]

theorem routes (update : Update) : other.routes update = store.routes update := by
  simp only [NodeStore.routes, same.route?, same.size]

theorem sightings (updates : List Update) : other.sightings updates = store.sightings updates := by
  simp only [NodeStore.sightings, funext same.routes]

end SamePlan

/-- The store after an update. -/
def absorb (store : NodeStore) (update : Update) : NodeStore :=
  (submit (store, {}) update).1

/-- What becomes of a store does not depend on the queues. -/
theorem submit_fst (store : NodeStore) (queues : QueueTable) (update : Update) :
    (submit (store, queues) update).1 = store.absorb update := by
  simp only [absorb, submit, Batch.step]
  split
  · rfl
  · split <;> rfl

/-- An update that nobody applies changes no store. -/
theorem absorb_of_refused (refused : store.acceptor? update = none) :
    store.absorb update = store := by
  rcases submit_cases store {} update with ⟨-, same⟩ | ⟨k, target, accepted, -⟩
  · rw [absorb, same]
  · rw [refused] at accepted
    cases accepted

/-- An update that is applied changes the store that applies it. -/
theorem absorb_of_accepted {k : Nat} (accepted : store.acceptor? update = some k) :
    ∃ target, store.route? update.node.id update.location = some k ∧
      store.stores[k]? = some target ∧
      (target.apply (.ofId update.node.id) update).2.isApplied = true ∧
      store.absorb update = store.replace k (target.apply (.ofId update.node.id) update).1
        (target.apply (.ofId update.node.id) update).2 := by
  rcases submit_cases store {} update with
    ⟨refused, -⟩ | ⟨i, target, accepted', routed, here, applied, same⟩
  · rw [refused] at accepted
    cases accepted
  · obtain rfl := Option.some.inj (accepted'.symm.trans accepted)
    exact ⟨target, routed, here, applied, by rw [absorb, same]⟩

/-- An update is found where it is applied, and every other node as before. -/
theorem find?_absorb_acceptor (store : NodeStore) (update : Update) (k : Nat) (id : String) :
    (store.absorb update).find? k id =
      if store.acceptor? update = some k ∧ id = update.node.id then some update.toStored
      else store.find? k id := by
  cases accepted : store.acceptor? update with
  | none => simp [absorb_of_refused accepted]
  | some i =>
    obtain ⟨target, -, here, applied, same⟩ := absorb_of_accepted accepted
    rw [same, find?_replace here applied]
    simp only [Option.some.injEq, @eq_comm _ k i]

/-- An update is applied over an older node only. -/
theorem older_of_acceptor {k : Nat} {stored : StoredNode}
    (accepted : store.acceptor? update = some k)
    (found : store.find? k update.node.id = some stored) : stored.version < update.version := by
  obtain ⟨target, -, here, applied, -⟩ := absorb_of_accepted accepted
  refine VirtualStore.older_of_applied applied stored ?_
  simpa [find?, here] using found

/-- No update changes the plan. -/
theorem samePlan_absorb (store : NodeStore) (update : Update) :
    SamePlan store (store.absorb update) := by
  cases accepted : store.acceptor? update with
  | none =>
    rw [absorb_of_refused accepted]
    exact ⟨rfl, rfl, rfl⟩
  | some k =>
    obtain ⟨target, -, -, -, same⟩ := absorb_of_accepted accepted
    rw [same]
    exact ⟨rfl, rfl, Array.size_setIfInBounds⟩

/-- The versions seen so far are those of earlier batches. -/
theorem versions_absorb (store : NodeStore) (update : Update) :
    (store.absorb update).versions = store.versions := by
  cases accepted : store.acceptor? update with
  | none => rw [absorb_of_refused accepted]
  | some k =>
    obtain ⟨target, -, -, -, same⟩ := absorb_of_accepted accepted
    rw [same]
    rfl

theorem versions_foldl_absorb (store : NodeStore) (updates : List Update) :
    (updates.foldl absorb store).versions = store.versions := by
  induction updates generalizing store with
  | nil => rfl
  | cons update updates ih => exact (ih _).trans (versions_absorb store update)

theorem samePlan_foldl_absorb (store : NodeStore) (updates : List Update) :
    SamePlan store (updates.foldl absorb store) := by
  induction updates generalizing store with
  | nil => exact ⟨rfl, rfl, rfl⟩
  | cons update updates ih => exact (samePlan_absorb store update).trans (ih _)

/-- An update changes nothing of a store that applying updates leaves. -/
theorem frame_absorb {β : Type} {get : VirtualStore → β}
    (kept : ∀ (target : VirtualStore) (token : Token) (update : Update),
      get (target.apply token update).1 = get target)
    (store : NodeStore) (update : Update) (k : Nat) :
    ((store.absorb update).stores[k]?).map get = (store.stores[k]?).map get := by
  cases accepted : store.acceptor? update with
  | none => rw [absorb_of_refused accepted]
  | some i =>
    obtain ⟨target, -, here, -, same⟩ := absorb_of_accepted accepted
    rw [same, getElem?_replace here]
    split
    · next there =>
      subst there
      rw [Option.map_some, kept, here, Option.map_some]
    · rfl

theorem frame_foldl_absorb {β : Type} {get : VirtualStore → β}
    (kept : ∀ (target : VirtualStore) (token : Token) (update : Update),
      get (target.apply token update).1 = get target)
    (store : NodeStore) (updates : List Update) (k : Nat) :
    ((updates.foldl absorb store).stores[k]?).map get = (store.stores[k]?).map get := by
  induction updates generalizing store with
  | nil => rfl
  | cons update updates ih => exact (ih _).trans (frame_absorb kept store update k)

/-- An update changes no owner. -/
theorem owner_absorb (store : NodeStore) (update : Update) (k : Nat) :
    ((store.absorb update).stores[k]?).map (·.owner) = (store.stores[k]?).map (·.owner) :=
  frame_absorb (fun target token update => (target.apply_frame token update).2.2.2) store update k

theorem routes_eq_true : store.routes update = true ↔ ∃ k target,
    store.route? update.node.id update.location = some k ∧ store.stores[k]? = some target := by
  unfold routes
  cases store.route? update.node.id update.location with
  | none => simp
  | some k => simp [Array.getElem?_eq_some_iff]

/-- Nobody applies an update that there is no store for. -/
theorem acceptor?_of_unrouted (unrouted : store.routes update = false) :
    store.acceptor? update = none := by
  cases accepted : store.acceptor? update with
  | none => rfl
  | some k =>
    obtain ⟨target, located, here, -⟩ := absorb_of_accepted accepted
    rw [routes_eq_true.mpr ⟨k, target, located, here⟩] at unrouted
    cases unrouted

namespace Batch

variable {batch : Batch}

/-- An update that there is no store for is counted, and nothing else. -/
theorem step_unrouted (unrouted : batch.store.routes update = false) :
    batch.step update =
      { batch with stats := { batch.stats with unroutable := batch.stats.unroutable + 1 } } := by
  obtain ⟨store, queues, observed, stats⟩ := batch
  simp only [step]
  split
  · rfl
  · next k located =>
    split
    · rfl
    · next target here =>
      have routed := routes_eq_true.mpr ⟨k, target, located, here⟩
      rw [unrouted] at routed
      cases routed

/-- The version of an update that there is a store for is noted, whatever becomes of it. -/
theorem step_routed (routed : batch.store.routes update = true) :
    ∃ k target, batch.store.route? update.node.id update.location = some k ∧
      batch.store.stores[k]? = some target ∧
      batch.step update =
        { store := (batch.step update).store
          queues := (batch.step update).queues
          observed := batch.observed.observe update.location update.version
          stats := batch.stats.record (target.apply (.ofId update.node.id) update).2
            update.node } := by
  obtain ⟨k, target, located, here⟩ := routes_eq_true.mp routed
  refine ⟨k, target, located, here, ?_⟩
  obtain ⟨store, queues, observed, stats⟩ := batch
  simp only [route?] at located here
  simp only [step, located, here]

/-- Stores and queues are those of the update alone. -/
theorem step_store (batch : Batch) (update : Update) :
    (batch.step update).store = batch.store.absorb update := by
  rw [← submit_fst batch.store batch.queues update]
  exact congrArg Prod.fst (step_eq_submit batch update)

theorem observed_step (batch : Batch) (update : Update) :
    (batch.step update).observed = batch.observed.observeAll (batch.store.sightings [update]) := by
  cases routed : batch.store.routes update with
  | false => rw [step_unrouted routed]; simp [sightings, routed, VersionMap.observeAll]
  | true =>
    obtain ⟨k, target, -, -, same⟩ := step_routed routed
    rw [same]
    simp [sightings, routed, VersionMap.observeAll]

/-- The node of an update is listed if the update is applied. -/
theorem touched_step (batch : Batch) (update : Update) :
    (batch.step update).stats.touched.toList = batch.stats.touched.toList ++
      (batch.store.acceptor? update).toList.map fun _ => update.node := by
  cases routed : batch.store.routes update with
  | false =>
    rw [step_unrouted routed, acceptor?_of_unrouted routed]
    simp
  | true =>
    obtain ⟨k, target, located, here, same⟩ := step_routed routed
    have accepts : batch.store.acceptor? update =
        if (target.apply (.ofId update.node.id) update).2.isApplied then some k else none := by
      simp only [acceptor?, located, here]
    rw [same, accepts]
    cases mutation : (target.apply (.ofId update.node.id) update).2 <;>
      simp [BatchStats.record, Mutation.isApplied]

/-- An update that nobody applies leaves stores and queues, and is counted. -/
theorem step_of_refused (refused : batch.store.acceptor? update = none) :
    batch.step update =
      { store := batch.store
        queues := batch.queues
        observed := batch.observed.observeAll (batch.store.sightings [update])
        stats := if batch.store.routes update = true then
            { batch.stats with ignored := batch.stats.ignored + 1 }
          else { batch.stats with unroutable := batch.stats.unroutable + 1 } } := by
  have alone : ((batch.step update).store, (batch.step update).queues) =
      (batch.store, batch.queues) := by
    rw [step_eq_submit]
    rcases submit_cases batch.store batch.queues update with ⟨-, same⟩ | ⟨k, target, accepted, -⟩
    · exact same
    · rw [refused] at accepted
      cases accepted
  obtain ⟨stores, told⟩ := Prod.mk.inj alone
  have observed := observed_step batch update
  cases routed : batch.store.routes update with
  | false =>
    rw [step_unrouted routed] at observed ⊢
    rw [← observed]
    rfl
  | true =>
    obtain ⟨k, target, located, here, same⟩ := step_routed routed
    simp only [acceptor?, located, here] at refused
    have ignored : batch.stats.record (target.apply (.ofId update.node.id) update).2 update.node =
        { batch.stats with ignored := batch.stats.ignored + 1 } := by
      cases mutation : (target.apply (.ofId update.node.id) update).2 with
      | inserted => simp [mutation, Mutation.isApplied] at refused
      | updated => simp [mutation, Mutation.isApplied] at refused
      | duplicate | stale | unsupported => rfl
    rw [same] at observed ⊢
    rw [stores, told, ← observed, ignored]
    rfl

end Batch

/-- What a batch applies, in order, with the numbers of the stores that apply it. -/
def applied (store : NodeStore) : List Update → List (Nat × Update)
  | [] => []
  | update :: updates =>
    ((store.acceptor? update).toList.map fun k => (k, update)) ++
      (store.absorb update).applied updates

theorem applied_append (store : NodeStore) (earlier later : List Update) :
    store.applied (earlier ++ later) =
      store.applied earlier ++ (earlier.foldl absorb store).applied later := by
  induction earlier generalizing store with
  | nil => rfl
  | cons update earlier ih =>
    rw [List.cons_append, applied, ih, applied, List.append_assoc, List.foldl_cons]

namespace Batch

/-- What the updates of a batch leave, one after the other. -/
theorem foldl_step (batch : Batch) (updates : List Update) :
    (updates.foldl step batch).store = updates.foldl absorb batch.store ∧
      (updates.foldl step batch).observed =
        batch.observed.observeAll (batch.store.sightings updates) ∧
      (updates.foldl step batch).stats.touched.toList =
        batch.stats.touched.toList ++ (batch.store.applied updates).map (·.2.node) := by
  induction updates generalizing batch with
  | nil => exact ⟨rfl, rfl, by simp [applied]⟩
  | cons update updates ih =>
    obtain ⟨stores, observed, touched⟩ := ih (batch.step update)
    rw [step_store] at stores observed touched
    refine ⟨stores, ?_, ?_⟩
    · have first : batch.store.sightings (update :: updates) =
          batch.store.sightings [update] ++ batch.store.sightings updates :=
        sightings_append batch.store [update] updates
      rw [List.foldl_cons, observed, observed_step, (samePlan_absorb _ update).sightings, first]
      simp only [VersionMap.observeAll, List.foldl_append]
    · rw [List.foldl_cons, touched, touched_step, applied]
      simp [Function.comp_def]

end Batch

/-- A batch changes what its updates change, adds the versions that there is a store for, and
lists the nodes of what it applies. -/
theorem process_spec (store : NodeStore) (queues : QueueTable) (updates : List Update) :
    (store.process queues updates).store = { updates.foldl absorb store with
        versions := store.versions.merge (.ofList (store.sightings updates)) } ∧
      (store.process queues updates).stats.touched.toList =
        (store.applied updates).map (·.2.node) := by
  obtain ⟨stores, observed, touched⟩ := Batch.foldl_step { store, queues } updates
  have versions := congrArg NodeStore.versions stores
  rw [versions_foldl_absorb] at versions
  refine ⟨?_, by simpa [process, Batch.finish] using touched⟩
  simp only [process, Batch.finish]
  generalize updates.foldl Batch.step { store, queues } = batch at stores observed versions ⊢
  obtain ⟨⟨ring, perLocation, parts, seen, total⟩, told, noted, stats⟩ := batch
  subst versions observed
  simp only at stores ⊢
  rw [← stores]
  rfl

end NodeStore

end FleetRing
