import FleetRing.Proofs.Distributor.Batches
import FleetRing.Proofs.Distributor.Holdings
import FleetRing.Proofs.Distributor.Listing

/-!
# The versions that a fleet has seen

A node store notes the version of every update that there is a store for, whether the update is
applied or not. `topVersion` is what that comes to at one location: the largest version of all
updates submitted for it, and nothing outside the topology. What is stored came with some update,
and what a client is listed is stored, so neither is ever newer (`versions_submitted`).

Nodes prevail by other rules than versions do. An addition of a node that is there already is
passed over, for one, and its version counts nevertheless.
-/

namespace FleetRing

/-- Is a location part of a topology with so many regions and partitions? -/
def Location.IsWithin (regions partitions : Nat) (location : Location) : Prop :=
  location.region.index < regions ∧ location.partition.index < partitions

instance (regions partitions : Nat) : DecidablePred (Location.IsWithin regions partitions) :=
  fun _ => inferInstanceAs (Decidable (_ ∧ _))

/-- The largest version that updates bring to a location of a topology, if they bring one. -/
def topVersion (regions partitions : Nat) (updates : List Update) (location : Location) :
    Option Version :=
  if location.IsWithin regions partitions then
    ((updatesAt location updates).map (·.version)).max?
  else none

section TopVersion

variable {regions partitions : Nat} {updates : List Update} {location : Location}
  {version : Version}

/-- There is none exactly when no update was for that location, or it is outside. -/
theorem topVersion_eq_none : topVersion regions partitions updates location = none ↔
    ¬ (location.IsWithin regions partitions ∧ ∃ update ∈ updates, update.location = location) := by
  unfold topVersion
  split
  · next inside => simp [inside, List.max?_eq_none_iff, updatesAt]
  · next outside => simp [outside]

/-- More updates never lower it. -/
theorem topVersion_append (found : topVersion regions partitions updates location = some version)
    (more : List Update) : ∃ top,
      topVersion regions partitions (updates ++ more) location = some top ∧ version ≤ top := by
  cases next : topVersion regions partitions (updates ++ more) location with
  | none =>
    refine absurd (topVersion_eq_none.mp next) (not_not.mpr ?_)
    have present : ¬ topVersion regions partitions updates location = none := by simp [found]
    obtain ⟨inside, update, member, place⟩ := not_not.mp (mt topVersion_eq_none.mpr present)
    exact ⟨inside, update, List.mem_append_left more member, place⟩
  | some top =>
    refine ⟨top, rfl, ?_⟩
    unfold topVersion at found next
    split at found
    · next inside =>
      rw [if_pos inside, updatesAt_append, List.map_append] at next
      exact (List.max?_eq_some_iff.mp next).2 version
        (List.mem_append_left _ (List.max?_eq_some_iff.mp found).1)
    · cases found

end TopVersion

namespace NodeStore

variable {store : NodeStore} {regions partitions : Nat} {updates : List Update}
  {location : Location}

section Reflects

variable (reflects : store.Reflects updates)
include reflects

/-- There is a store for exactly the updates of the topology. -/
theorem Reflects.routes_iff
    (covers : ∀ id location, (∃ k, store.route? id location = some k) ↔
      location.region.index < regions ∧ location.partition.index < partitions)
    (update : Update) :
    store.routes update = true ↔ update.location.IsWithin regions partitions := by
  rw [Location.IsWithin, ← covers update.node.id, routes_eq_true]
  constructor
  · rintro ⟨k, -, routed, -⟩
    exact ⟨k, routed⟩
  · rintro ⟨k, routed⟩
    obtain ⟨target, here, -⟩ := reflects.sound.laid.location_of_locate? routed
    exact ⟨k, target, routed, here⟩

/-- The versions that are noted are the largest ones that were submitted. -/
theorem Reflects.versions_eq
    (covers : ∀ id location, (∃ k, store.route? id location = some k) ↔
      location.region.index < regions ∧ location.partition.index < partitions)
    (location : Location) :
    store.versions.get? location = topVersion regions partitions updates location := by
  have routes := reflects.routes_iff covers
  rw [reflects.versions.get?_eq_max?, topVersion, sightings, List.filter_map, List.map_map,
    List.filter_filter]
  split
  · next inside =>
    have same : ∀ update ∈ updates,
        (decide ((update.location, update.version).1 = location) && store.routes update) =
          decide (update.location = location) := by
      intro update _
      by_cases here : update.location = location
      · simp [here, (routes update).mpr (here.symm ▸ inside)]
      · simp [here]
    rw [updatesAt, ← List.filter_congr same]
    rfl
  · next outside =>
    have nothing : ∀ update ∈ updates,
        ¬ (decide ((update.location, update.version).1 = location) && store.routes update) =
          true := by
      intro update _ both
      simp only [Bool.and_eq_true, decide_eq_true_eq] at both
      exact outside (both.1 ▸ (routes update).mp both.2)
    rw [List.max?_eq_none_iff, List.map_eq_nil_iff]
    exact List.filter_eq_nil_iff.mpr nothing

/-- A node that is stored is not newer than what was seen at its store's location. -/
theorem Reflects.le_versions {k : Nat} {target : VirtualStore} {stored : StoredNode}
    (here : store.stores[k]? = some target) (member : stored ∈ target.stored) :
    ∃ top, store.versions.get? target.location = some top ∧ stored.version ≤ top := by
  have found := (mem_stored_iff reflects.sound here).mp member
  obtain ⟨routed, -, -⟩ := reflects.sound.home k target _ stored here found
  obtain ⟨update, own, rfl⟩ := exists_of_prevailing ((reflects.content routed).symm.trans found)
  obtain ⟨came, -, same, place⟩ := mem_ownUpdates.mp own
  refine reflects.versions.le target.location update.version ?_
  refine List.mem_map.mpr ⟨update, List.mem_filter.mpr ⟨came, ?_⟩, by rw [place]⟩
  exact routes_eq_true.mpr ⟨k, target, by rw [same, place]; exact routed, here⟩

end Reflects

end NodeStore

namespace Distributor

/-- The versions that a fleet has seen, when `updates` were submitted to a topology. -/
structure SeesVersions (regions partitions : Nat) (updates : List Update) (dist : Distributor) :
    Prop where
  /-- The entry of a location is the largest version submitted for it, applied or not, -/
  entry : ∀ location,
    dist.nodes.versions.get? location = topVersion regions partitions updates location
  /-- and there is none exactly when nothing was submitted for it. -/
  absent : ∀ location, dist.nodes.versions.get? location = none ↔
    ¬ (location.IsWithin regions partitions ∧ ∃ update ∈ updates, update.location = location)
  /-- No stored node is newer, -/
  stored : ∀ (k : Nat) (store : VirtualStore) (stored : StoredNode),
    dist.nodes.stores[k]? = some store → stored ∈ store.stored →
      ∃ top, dist.nodes.versions.get? store.location = some top ∧ stored.version ≤ top
  /-- and neither is what a client is listed. -/
  listed : ∀ (client : String) (nodes : List Node) (floors : VersionMap) (location : Location)
    (floor : Version), dist.list client = .ok (nodes, floors) → floors.get? location = some floor →
      ∃ top, dist.nodes.versions.get? location = some top ∧ floor ≤ top

variable {start dist : Distributor} {updates : List Update} {perLocation regions partitions : Nat}

/-- A fleet has seen the versions of everything that was submitted. -/
theorem seesVersions
    (created : NodeStore.create perLocation regions partitions = .ok start.nodes)
    (run : Chained Affair start updates dist) : SeesVersions regions partitions updates dist := by
  have created : NodeStore.create perLocation regions partitions =
      .ok (start.nodes, start.queues).1 := created
  obtain ⟨reflects, covers⟩ := NodeStore.reflects_of_created created (history_of_affairs run)
  have entry := reflects.versions_eq covers
  refine ⟨entry, fun location => by rw [entry, topVersion_eq_none],
    fun k store stored here member => reflects.le_versions here member, ?_⟩
  intro client nodes floors location floor listed found
  cases registered : dist.client? client with
  | none => simp [list, registered] at listed
  | some held =>
    rw [list_eq registered] at listed
    obtain ⟨rfl, rfl⟩ := Prod.mk.inj (Except.ok.inj listed)
    obtain ⟨store, mine, share⟩ :=
      List.mem_flatMap.mp ((dist.floors_collects held).mem location floor found)
    obtain ⟨stored, member, same⟩ := List.mem_map.mp share
    obtain ⟨rfl, rfl⟩ := Prod.mk.inj same
    obtain ⟨k, -, here⟩ := mem_storesOf.mp mine
    exact reflects.le_versions here member

/-- Whatever happens to a fleet, the version that it notes for a location is the largest one
submitted for it, so it never decreases, and every batch, brought to the node store itself or to
the distributor, is answered by the versions seen then. -/
theorem versions_submitted
    (created : NodeStore.create perLocation regions partitions = .ok start.nodes)
    (run : Chained Affair start updates dist) :
    SeesVersions regions partitions updates dist ∧
      (∀ {more : List Update} {later : Distributor}, Chained Affair dist more later →
        ∀ location version, dist.nodes.versions.get? location = some version →
          ∃ top, later.nodes.versions.get? location = some top ∧ version ≤ top) ∧
      (∀ (queues : QueueTable) (batch : List Update), (∀ update ∈ batch, update.Resolved) →
        ∀ location, (dist.nodes.process queues batch).store.versions.get? location =
          topVersion regions partitions (updates ++ batch) location) ∧
      ∀ (now : Time) (events : List NodeEvent),
        (dist.ingest now events).versions = (dist.ingest now events).dist.nodes.versions ∧
        SeesVersions regions partitions (updates ++ arrivals now events)
          (dist.ingest now events).dist := by
  have sees := seesVersions created run
  refine ⟨sees, ?_, fun queues batch resolved location => ?_, fun now events => ⟨rfl, ?_⟩⟩
  · intro more later further location version found
    rw [sees.entry] at found
    rw [(seesVersions created (run.trans further)).entry]
    exact topVersion_append found more
  · have told := run.step (.beside (.requeue queues))
    rw [List.append_nil] at told
    exact (seesVersions created (told.step (.beside (.process resolved)))).entry location
  · have taken := run.step (.step (.ingest now events))
    rw [submitted_intake] at taken
    exact seesVersions created taken

/-- In the small fleet, a node is added again under a larger version. The addition is passed over,
so the client is listed the old version, and the new one counts. -/
theorem versions_submitted_small :
    ∃ (updates : List Update) (dist : Distributor),
      Chained Affair smallStart updates dist ∧ SeesVersions 2 1 updates dist ∧
      updates.map (fun update => (update.node.id, update.version)) = [("a", 5), ("a", 9)] ∧
      topVersion 2 1 updates ⟨.shanghai, .rp1⟩ = some 9 ∧
      (dist.list "d").toOption.map (fun listed => listed.2.get? ⟨.shanghai, .rp1⟩) =
        some (some 5) := by
  let events := [reported .added "a" 9 .shanghai]
  let updates := submitted smallTrace ++ arrivals 0 events
  let dist := (smallTaken.ingest 0 events).dist
  have taken : Steps smallStart smallTrace smallTaken := by
    obtain ⟨start, created, run⟩ := smallTaken_reachable
    obtain rfl : smallStart = start := Except.ok.inj created
    exact run
  have run : Chained Affair smallStart updates dist := by
    have whole := (affairs_of_steps taken).step (.step (.ingest 0 events))
    rwa [submitted_intake] at whole
  have created : NodeStore.create 1 2 1 = .ok smallStart.nodes := rfl
  exact ⟨updates, dist, run, (versions_submitted created run).1, by decide +kernel,
    by decide +kernel, by decide +kernel⟩

end Distributor

end FleetRing
