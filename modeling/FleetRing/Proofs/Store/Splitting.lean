import FleetRing.Proofs.Store.Batch
import FleetRing.Proofs.Version.Semilattice

/-!
# Batches end to end

Two batches, one after the other, leave the stores and the versions that one batch of
all their updates leaves, and tell the queues the same (`process_append`). Neither does it
matter which updates without a store a batch holds (`process_routed`), nor when updates
passed their checkpoints, apart from the stamps of what the queues are told.
-/

namespace FleetRing

/-- The update reports again what another one reported; when it passed its checkpoints does not
matter. -/
structure Update.Repeats (update earlier : Update) : Prop where
  type : update.type = earlier.type
  node : update.node = earlier.node
  location : update.location = earlier.location
  version : update.version = earlier.version

/-- Every update repeats itself. -/
theorem Update.Repeats.refl (update : Update) : update.Repeats update :=
  ⟨rfl, rfl, rfl, rfl⟩

/-- A stamp is no news. -/
theorem Update.repeats_stamp (update : Update) (checkpoint : Checkpoint) (now : Time) :
    (update.stamp checkpoint now).Repeats update :=
  ⟨rfl, rfl, rfl, rfl⟩

/-- Chains take updates by what they report. -/
theorem Chain.apply_of_repeats {update earlier : Update} (repeats : update.Repeats earlier)
    (chain : Chain) : Chain.apply chain update = Chain.apply chain earlier := by
  induction chain with
  | nil => simp only [apply, repeats.version, repeats.node]
  | cons stored rest ih =>
    simp only [apply, repeats.version, repeats.node, repeats.type, ih]

/-- So do stores. -/
theorem VirtualStore.apply_of_repeats {update earlier : Update} (repeats : update.Repeats earlier)
    (store : VirtualStore) (token : Token) :
    store.apply token update = store.apply token earlier := by
  simp only [apply, repeats.type, Chain.apply_of_repeats repeats]

namespace QueueTable

variable {table : QueueTable} {number other : Nat}

/-- Changing a queue changes the answer for its number, and for no other one. -/
theorem get?_modify (change : ClientQueue → ClientQueue) :
    (table.modify number change).get? other =
      if other = number then (table.get? number).map change else table.get? other := by
  simp only [get?, modify, Array.getElem?_modify]
  by_cases same : number = other
  · subst same
    simp
  · have unequal : ¬ other = number := fun equal => same equal.symm
    simp [same, unequal]

/-- Deliver updates one by one, each to the queue with its number. -/
def deliverAll (table : QueueTable) (notices : List (Nat × Update)) : QueueTable :=
  notices.foldl (fun table notice => table.deliver notice.1 notice.2) table

theorem deliverAll_append (table : QueueTable) (earlier later : List (Nat × Update)) :
    table.deliverAll (earlier ++ later) = (table.deliverAll earlier).deliverAll later :=
  List.foldl_append

/-- What is addressed to the queue with a number. -/
def addressed (number : Nat) (notices : List (Nat × Update)) : List Update :=
  notices.filterMap fun notice => if notice.1 = number then some notice.2 else none

/-- That is all that is pushed to the queue, as long as anything keeps it alive. -/
theorem get?_deliverAll (table : QueueTable) (notices : List (Nat × Update)) (number : Nat) :
    (table.deliverAll notices).get? number = (table.get? number).map fun queue =>
      (addressed number notices).foldl
        (fun queue update => if queue.isAlive then queue.push update else queue) queue := by
  rw [addressed]
  induction notices generalizing table with
  | nil => simp [deliverAll]
  | cons notice notices ih =>
    have first : table.deliverAll (notice :: notices) =
        (table.deliver notice.1 notice.2).deliverAll notices := rfl
    rw [first, ih, deliver, get?_modify]
    by_cases here : notice.1 = number
    · simp [here, Function.comp_def]
    · have unequal : ¬ number = notice.1 := fun equal => here equal.symm
      simp [here, unequal]

end QueueTable

namespace NodeStore

variable {store : NodeStore} {queues : QueueTable} {update earlier : Update}
  {updates : List Update}

/-- The owner of the store with a number. -/
def owner? (store : NodeStore) (k : Nat) : Option Owner :=
  ((store.stores[k]?).map (·.owner)).join

/-- What the owners of stores are told of updates: the numbers of the queues, and the updates. -/
def notices (store : NodeStore) (updates : List Update) : List (Nat × Update) :=
  (store.applied updates).filterMap fun entry =>
    (store.owner? entry.1).map fun owner => (owner.queue, entry.2)

theorem owner?_foldl_absorb (store : NodeStore) (updates : List Update) (k : Nat) :
    (updates.foldl absorb store).owner? k = store.owner? k :=
  congrArg Option.join (frame_foldl_absorb
    (fun target token update => (target.apply_frame token update).2.2.2) store updates k)

theorem notices_append (store : NodeStore) (first second : List Update) :
    store.notices (first ++ second) =
      store.notices first ++ (first.foldl absorb store).notices second := by
  simp only [notices, applied_append, List.filterMap_append, owner?_foldl_absorb]

/-- One update is told to the owner of the store that applies it. -/
theorem submit_snd (store : NodeStore) (queues : QueueTable) (update : Update) :
    (submit (store, queues) update).2 = queues.deliverAll (store.notices [update]) := by
  rcases submit_cases store queues update with
    ⟨refused, same⟩ | ⟨k, target, accepted, -, here, -, same⟩
  · rw [same]
    simp [notices, applied, refused, QueueTable.deliverAll]
  · have owner : store.owner? k = target.owner := by rw [owner?, here]; rfl
    rw [same]
    cases owns : target.owner <;>
      simp [notices, applied, accepted, owner, owns, QueueTable.deliverAll]

/-- A batch tells the queues its notices, in order. -/
theorem process_queues (store : NodeStore) (queues : QueueTable) (updates : List Update) :
    (store.process queues updates).queues = queues.deliverAll (store.notices updates) := by
  obtain ⟨-, -, same⟩ := store.process_eq queues updates
  rw [same]
  clear same
  induction updates generalizing store queues with
  | nil => rfl
  | cons update updates ih =>
    have left := submit_fst store queues update
    have told := submit_snd store queues update
    rw [List.foldl_cons]
    generalize submit (store, queues) update = next at left told ⊢
    obtain ⟨after, table⟩ := next
    obtain rfl : after = store.absorb update := left
    obtain rfl : table = _ := told
    rw [ih, ← QueueTable.deliverAll_append]
    exact congrArg queues.deliverAll (notices_append store [update] updates).symm

section Versions

variable (store : NodeStore) (versions : VersionMap)

/-- The versions seen so far have no influence on what is applied, -/
theorem absorb_withVersions (update : Update) :
    ({ store with versions } : NodeStore).absorb update =
      { store.absorb update with versions } := by
  have same : ({ store with versions } : NodeStore).acceptor? update = store.acceptor? update := rfl
  cases accepted : store.acceptor? update with
  | none => rw [absorb_of_refused accepted, absorb_of_refused (same.trans accepted)]
  | some k =>
    obtain ⟨target, -, here, -, left⟩ := absorb_of_accepted accepted
    obtain ⟨again, -, there, -, alsoLeft⟩ := absorb_of_accepted (same.trans accepted)
    obtain rfl : target = again := Option.some.inj (here.symm.trans there)
    rw [left, alsoLeft]
    rfl

theorem foldl_absorb_withVersions (updates : List Update) :
    updates.foldl absorb { store with versions } =
      { updates.foldl absorb store with versions } := by
  induction updates generalizing store with
  | nil => rfl
  | cons update updates ih => rw [List.foldl_cons, absorb_withVersions, ih, List.foldl_cons]

/-- nor on who applies it. -/
theorem applied_withVersions (updates : List Update) :
    ({ store with versions } : NodeStore).applied updates = store.applied updates := by
  induction updates generalizing store with
  | nil => rfl
  | cons update updates ih =>
    simp only [applied, absorb_withVersions, ih]
    rfl

end Versions

/-- Two batches leave the stores and versions that one batch of all updates leaves. -/
theorem process_append_store (store : NodeStore) (queues between whole : QueueTable)
    (first second : List Update) :
    ((store.process queues first).store.process between second).store =
      (store.process whole (first ++ second)).store := by
  obtain ⟨left, -⟩ := store.process_spec queues first
  obtain ⟨all, -⟩ := store.process_spec whole (first ++ second)
  obtain ⟨rest, -⟩ := (store.process queues first).store.process_spec between second
  have plan := samePlan_foldl_absorb store first
  have sightings : (store.process queues first).store.sightings second =
      store.sightings second := by
    rw [left]
    exact SamePlan.sightings ⟨plan.ring, plan.perLocation, plan.size⟩ second
  have versions : (store.versions.merge (.ofList (store.sightings first))).merge
        (.ofList (store.sightings second)) =
      store.versions.merge (.ofList (store.sightings (first ++ second))) := by
    rw [VersionMap.merge_assoc, VersionMap.merge_ofList, sightings_append]
  rw [rest, all, sightings, left, foldl_absorb_withVersions, List.foldl_append]
  simp only [versions]

/-- After a batch, updates are applied as after its updates alone. -/
theorem applied_process (store : NodeStore) (queues : QueueTable) (first second : List Update) :
    (store.process queues first).store.applied second =
      (first.foldl absorb store).applied second := by
  obtain ⟨left, -⟩ := store.process_spec queues first
  rw [left]
  exact applied_withVersions _ _ second

/-- They list the same nodes, -/
theorem process_append_touched (store : NodeStore) (queues between whole : QueueTable)
    (first second : List Update) :
    (store.process whole (first ++ second)).stats.touched.toList =
      (store.process queues first).stats.touched.toList ++
        ((store.process queues first).store.process between second).stats.touched.toList := by
  obtain ⟨-, one⟩ := store.process_spec queues first
  obtain ⟨-, all⟩ := store.process_spec whole (first ++ second)
  obtain ⟨-, two⟩ := (store.process queues first).store.process_spec between second
  rw [all, one, two, applied_process, applied_append, List.map_append]

/-- and tell the queues the same. -/
theorem process_append_notices (store : NodeStore) (queues : QueueTable)
    (first second : List Update) : store.notices (first ++ second) =
      store.notices first ++ (store.process queues first).store.notices second := by
  have owners : ∀ k, (store.process queues first).store.owner? k =
      (first.foldl absorb store).owner? k := by
    intro k
    rw [(store.process_spec queues first).1]
    rfl
  rw [notices_append]
  simp only [notices, applied_process, owners]

theorem foldl_absorb_routed (store : NodeStore) (updates : List Update) :
    (updates.filter store.routes).foldl absorb store = updates.foldl absorb store ∧
      store.applied (updates.filter store.routes) = store.applied updates := by
  induction updates generalizing store with
  | nil => exact ⟨rfl, rfl⟩
  | cons update updates ih =>
    obtain ⟨left, applies⟩ := ih (store.absorb update)
    rw [funext (samePlan_absorb store update).routes] at left applies
    cases routed : store.routes update with
    | true => simp only [List.filter_cons, routed, if_true, List.foldl_cons, applied, left, applies,
        and_self]
    | false =>
      have refused := acceptor?_of_unrouted routed
      rw [absorb_of_refused refused] at left applies
      simp [routed, applied, refused, absorb_of_refused refused, left, applies]

/-- Updates without a store can be left out of a batch. -/
theorem process_routed (store : NodeStore) (queues : QueueTable) (updates : List Update) :
    (store.process queues (updates.filter store.routes)).store =
        (store.process queues updates).store ∧
      (store.process queues (updates.filter store.routes)).stats.touched =
        (store.process queues updates).stats.touched ∧
      store.notices (updates.filter store.routes) = store.notices updates := by
  obtain ⟨left, applies⟩ := foldl_absorb_routed store updates
  obtain ⟨part, partTouched⟩ := store.process_spec queues (updates.filter store.routes)
  obtain ⟨whole, wholeTouched⟩ := store.process_spec queues updates
  have sightings : store.sightings (updates.filter store.routes) = store.sightings updates := by
    simp [NodeStore.sightings]
  refine ⟨by rw [part, whole, sightings, left], ?_, by simp only [notices, applies]⟩
  exact Array.toList_inj.mp (by rw [partTouched, wholeTouched, applies])

section Repeats

variable (repeats : update.Repeats earlier)
include repeats

theorem acceptor?_eq_of_repeats (store : NodeStore) :
    store.acceptor? update = store.acceptor? earlier := by
  simp only [acceptor?, repeats.node, repeats.location, VirtualStore.apply_of_repeats repeats]

theorem absorb_of_repeats (store : NodeStore) : store.absorb update = store.absorb earlier := by
  have same := acceptor?_eq_of_repeats repeats store
  cases accepted : store.acceptor? earlier with
  | none => rw [absorb_of_refused accepted, absorb_of_refused (same.trans accepted)]
  | some k =>
    obtain ⟨target, -, here, -, left⟩ := absorb_of_accepted accepted
    obtain ⟨again, -, there, -, alsoLeft⟩ := absorb_of_accepted (same.trans accepted)
    obtain rfl : target = again := Option.some.inj (here.symm.trans there)
    rw [left, alsoLeft, repeats.node, VirtualStore.apply_of_repeats repeats]

end Repeats

section Restating

variable {change : Update → Update} (repeats : ∀ update, (change update).Repeats update)
include repeats

theorem foldl_absorb_map (store : NodeStore) (updates : List Update) :
    (updates.map change).foldl absorb store = updates.foldl absorb store := by
  rw [List.foldl_map]
  simp only [absorb_of_repeats (repeats _)]

theorem applied_map (store : NodeStore) (updates : List Update) :
    store.applied (updates.map change) =
      (store.applied updates).map fun entry => (entry.1, change entry.2) := by
  induction updates generalizing store with
  | nil => rfl
  | cons update updates ih =>
    simp only [List.map_cons, applied, List.map_append, List.map_map,
      acceptor?_eq_of_repeats (repeats update), absorb_of_repeats (repeats update), ih]
    rfl

theorem notices_map (store : NodeStore) (updates : List Update) :
    store.notices (updates.map change) =
      (store.notices updates).map fun notice => (notice.1, change notice.2) := by
  simp only [notices, applied_map repeats, List.filterMap_map, List.map_filterMap, Option.map_map]
  rfl

/-- A batch that reports the same leaves the same stores and versions, and lists the same nodes. -/
theorem process_map (store : NodeStore) (queues other : QueueTable) (updates : List Update) :
    (store.process queues (updates.map change)).store = (store.process other updates).store ∧
      (store.process queues (updates.map change)).stats.touched =
        (store.process other updates).stats.touched := by
  obtain ⟨part, partTouched⟩ := store.process_spec queues (updates.map change)
  obtain ⟨whole, wholeTouched⟩ := store.process_spec other updates
  have routes : store.routes ∘ change = store.routes := funext fun update => by
    simp only [Function.comp_apply, NodeStore.routes, (repeats update).node,
      (repeats update).location]
  have sightings : store.sightings (updates.map change) = store.sightings updates := by
    simp only [NodeStore.sightings, List.filter_map, routes, List.map_map, Function.comp_def,
      (repeats _).location, (repeats _).version]
  refine ⟨by rw [part, whole, sightings, foldl_absorb_map repeats], Array.toList_inj.mp ?_⟩
  rw [partTouched, wholeTouched, applied_map repeats, List.map_map]
  refine List.map_congr_left fun entry _ => ?_
  exact (repeats entry.2).node

end Restating

end NodeStore

end FleetRing
