import FleetRing.Proofs.Store.Agreement
import FleetRing.Proofs.Store.Redelivery
import FleetRing.Proofs.Watch.Retention

/-!
# Locations do not wait for each other

Updates of different locations may reach a node store in any order and in batches that are cut
anywhere. The stores of a location are left as the updates of that location alone leave them
(`agreeOn_updatesAt`), and what is applied there is applied in the same order, so the owners of
these stores are told the same about it. Counts and versions follow. A client queue collects
several locations, but each in a window of its own, so it retains the same of each of them too
(`interleaved`).

The order in which a queue is told of different locations does depend on how they are
interleaved, and so does the order of what a watch streams. Only what is retained is compared here.
-/

namespace FleetRing

namespace ClientQueue

variable {queue next : ClientQueue} {updates : List Update}

/-- What an update leaves of the window of its location. -/
def keep (windowLength : Nat) (held : Option (Window Update)) (update : Update) :
    Option (Window Update) :=
  some ((held.getD (.ofCapacity windowLength)).push update)

/-- The window of a location is a matter of the updates of that location alone. -/
theorem windows_foldl_retain (queue : ClientQueue) (updates : List Update) (location : Location) :
    (updates.foldl retain queue).windows[location]? =
      (updatesAt location updates).foldl (keep queue.windowLength) queue.windows[location]? := by
  induction updates generalizing queue with
  | nil => rfl
  | cons update updates ih =>
    have length : (queue.retain update).windowLength = queue.windowLength := rfl
    rw [List.foldl_cons, ih, windows_retain, length]
    by_cases here : update.location = location
    · simp [updatesAt, here, keep]
    · simp [updatesAt, here]

/-- Queues that differ in their streams retain an update in the same way. -/
theorem SameRetention.retain (same : SameRetention queue next) (update : Update) :
    SameRetention (queue.retain update) (next.retain update) where
  client := same.client
  windowLength := same.windowLength
  windows := by simp only [ClientQueue.retain, same.windows, same.windowLength]
  owned := same.owned

/-- Pushing updates retains them, whatever becomes of the watch. -/
theorem SameRetention.foldl_push (same : SameRetention queue next) (updates : List Update) :
    SameRetention (updates.foldl ClientQueue.retain queue) (updates.foldl push next) := by
  induction updates generalizing queue next with
  | nil => exact same
  | cons update updates ih => exact ih ((same.retain update).trans (sameRetention_push next update))

/-- Whatever is pushed, a queue is kept alive as before. -/
theorem isAlive_push (queue : ClientQueue) (update : Update) :
    (queue.push update).isAlive = queue.isAlive := by
  have owned := (sameRetention_push queue update).owned
  have served : (queue.push update).streams.any (·.serving) = queue.streams.any (·.serving) := by
    have kept : (queue.retain update).streams = queue.streams := rfl
    have found : ∀ id, (queue.retain update).stream? id = queue.stream? id := fun _ => rfl
    simp only [push, offer, found]
    split
    · rfl
    · next watch installed =>
      split
      · next stream here =>
        split
        · next room =>
          -- The stream that takes the update was served before, and still is.
          have serving : stream.serving = true := by
            simp only [WatchStream.hasRoom, Bool.and_eq_true] at room
            exact room.1
          have member : stream ∈ queue.streams := List.mem_of_find?_eq_some here
          have before : queue.streams.any (·.serving) = true :=
            List.any_eq_true.mpr ⟨stream, member, serving⟩
          rw [before, setStream, kept, List.any_map, List.any_eq_true]
          refine ⟨stream, member, ?_⟩
          simp [id_of_stream? here, serving]
        · rfl
      · rfl
  simp only [isAlive, served, owned]
  rfl

/-- What delivering updates to a queue leaves, up to its streams: they are retained as long as
anything keeps it alive. -/
structure Told (queue : ClientQueue) (updates : List Update) (after : ClientQueue) : Prop where
  alive : after.isAlive = queue.isAlive
  retention :
    SameRetention ((if queue.isAlive then updates else []).foldl ClientQueue.retain queue) after

namespace Told

theorem refl (queue : ClientQueue) : Told queue [] queue :=
  ⟨rfl, by simpa using ⟨rfl, rfl, rfl, rfl⟩⟩

/-- More updates are told. -/
theorem deliver (told : Told queue updates next) (more : List Update) :
    Told queue (updates ++ more) (more.foldl
      (fun queue update => if queue.isAlive then queue.push update else queue) next) := by
  cases alive : queue.isAlive with
  | true =>
    have served := told.alive.trans alive
    have pushed : ∀ (next : ClientQueue), next.isAlive = true →
        more.foldl (fun queue update => if queue.isAlive then queue.push update else queue) next =
          more.foldl push next ∧ (more.foldl push next).isAlive = true := by
      induction more with
      | nil => exact fun next served => ⟨rfl, served⟩
      | cons update more ih =>
        intro next served
        have after := (isAlive_push next update).trans served
        simpa [served] using ih (next.push update) after
    have retention := told.retention
    obtain ⟨same, still⟩ := pushed next served
    rw [alive, if_pos rfl] at retention
    rw [same]
    refine ⟨still.trans alive.symm, ?_⟩
    rw [alive, if_pos rfl, List.foldl_append]
    exact retention.foldl_push more
  | false =>
    have gone := told.alive.trans alive
    have ignored : more.foldl
        (fun queue update => if queue.isAlive then queue.push update else queue) next = next := by
      induction more with
      | nil => rfl
      | cons update more ih => simpa [gone] using ih
    have retention := told.retention
    rw [alive] at retention
    rw [ignored]
    exact ⟨told.alive, by rw [alive]; exact retention⟩

/-- A step of the queue that pushes nothing and keeps it as alive as it was has no part in it. -/
theorem serve (told : Told queue updates next) {after : ClientQueue} {occurrence : Occurrence}
    (moved : Step next occurrence after) (quiet : occurrence.update? = none)
    (alive : after.isAlive = next.isAlive) : Told queue updates after := by
  have same := moved.sameRetention
  rw [quiet] at same
  exact ⟨alive.trans told.alive, told.retention.trans same⟩

/-- What is retained depends on what was told of each location. -/
theorem windows_eq {others : List Update} {left right : ClientQueue}
    (one : Told queue updates left) (two : Told queue others right)
    (same : ∀ location, updatesAt location updates = updatesAt location others) :
    left.windows = right.windows := by
  rw [one.retention.windows, two.retention.windows]
  refine Std.ExtTreeMap.ext_getElem? fun location => ?_
  rw [windows_foldl_retain, windows_foldl_retain]
  split
  · rw [same location]
  · rfl

end Told

end ClientQueue

namespace NodeStore

variable {store one two : NodeStore} {location : Location} {k : Nat} {update : Update}
  {updates first second : List Update}

/-- The numbers of the stores of a location. -/
def standing (store : NodeStore) (location : Location) : List Nat :=
  (List.range store.stores.size).filter fun k =>
    (store.stores[k]?).map (·.location) = some location

theorem mem_standing : k ∈ store.standing location ↔
    ∃ target, store.stores[k]? = some target ∧ target.location = location := by
  simp only [standing, List.mem_filter, List.mem_range, decide_eq_true_eq, Option.map_eq_some_iff,
    and_iff_right_iff_imp]
  rintro ⟨target, here, -⟩
  exact (Array.getElem?_eq_some_iff.mp here).1

/-- An update reaches these stores exactly when it is for their location and is routed. -/
theorem reaches_standing (laid : store.Laid) :
    store.reaches (store.standing location) update = true ↔
      update.location = location ∧ ∃ k, store.route? update.node.id update.location = some k := by
  cases routed : store.route? update.node.id update.location with
  | none => simp [reaches, routed]
  | some k =>
    obtain ⟨target, here, place⟩ := laid.location_of_locate? routed
    simp [reaches, routed, mem_standing, here, place]

/-- What the updates of all locations leave of the stores of one, and what is applied there, in
order, is a matter of the updates of that location alone. -/
theorem agreeOn_updatesAt (laid : store.Laid) (plan : SamePlan store one)
    (location : Location) (agree : AgreeOn (store.standing location) one two)
    (updates : List Update) :
    AgreeOn (store.standing location) (updates.foldl absorb one)
        ((updatesAt location updates).foldl absorb two) ∧
      (one.applied updates).filter (fun entry => entry.2.location = location) =
        two.applied (updatesAt location updates) := by
  induction updates generalizing one two with
  | nil => exact ⟨agree, rfl⟩
  | cons update updates ih =>
    have reaches : one.reaches (store.standing location) update = true ↔ _ :=
      reaches_eq plan.ring plan.perLocation (store.standing location) ▸ reaches_standing laid
    have after := plan.trans (samePlan_absorb one update)
    by_cases here : update.location = location
    · have own : updatesAt location (update :: updates) =
          update :: updatesAt location updates := by simp [updatesAt, here]
      -- Routed or not, the update is applied on both sides or on none.
      have both : one.acceptor? update = two.acceptor? update ∧
          AgreeOn (store.standing location) (one.absorb update) (two.absorb update) := by
        cases reached : one.reaches (store.standing location) update with
        | true => exact ⟨agree.acceptor? reached, agree.absorb reached⟩
        | false =>
          have unrouted : store.route? update.node.id update.location = none := by
            cases routed : store.route? update.node.id update.location with
            | none => rfl
            | some k => rw [reaches.mpr ⟨here, k, routed⟩] at reached; cases reached
          have left : one.acceptor? update = none := by
            simp only [acceptor?, plan.route?, unrouted]
          have right : two.acceptor? update = none := by
            simp only [acceptor?, ← agree.route?, plan.route?, unrouted]
          rw [absorb_of_refused left, absorb_of_refused right, left, right]
          exact ⟨rfl, agree⟩
      obtain ⟨same, left⟩ := both
      obtain ⟨stores, applies⟩ := ih after left
      rw [own]
      refine ⟨stores, ?_⟩
      rw [applied, applied, List.filter_append, applies, same]
      cases two.acceptor? update <;> simp [here]
    · have own : updatesAt location (update :: updates) = updatesAt location updates := by
        simp [updatesAt, here]
      have unreached : one.reaches (store.standing location) update = false := by
        simpa [here] using mt reaches.mp fun asked => here asked.1
      obtain ⟨stores, applies⟩ := ih after ((agreeOn_absorb unreached).trans agree)
      rw [own]
      refine ⟨stores, ?_⟩
      rw [applied, List.filter_append, applies]
      cases one.acceptor? update <;> simp [here]

/-- So each store is left as if there were no updates of other locations. -/
theorem stores_updatesAt (laid : store.Laid) {target : VirtualStore}
    (here : store.stores[k]? = some target) (updates : List Update) :
    (updates.foldl absorb store).stores[k]? =
      ((updatesAt target.location updates).foldl absorb store).stores[k]? :=
  (agreeOn_updatesAt laid ⟨rfl, rfl, rfl⟩ target.location (.refl _ store) updates).1.stores k
    (mem_standing.mpr ⟨target, here, rfl⟩)

/-- Updates of a location are applied as if there were no others. -/
theorem applied_updatesAt (laid : store.Laid) (updates : List Update) (location : Location) :
    (store.applied updates).filter (fun entry => entry.2.location = location) =
      store.applied (updatesAt location updates) :=
  (agreeOn_updatesAt laid ⟨rfl, rfl, rfl⟩ location (.refl _ store) updates).2

/-- And their owners are told as if there were no others. -/
theorem updatesAt_addressed (laid : store.Laid) (number : Nat) (updates : List Update)
    (location : Location) :
    updatesAt location (QueueTable.addressed number (store.notices updates)) =
      QueueTable.addressed number (store.notices (updatesAt location updates)) := by
  rw [notices, notices, ← applied_updatesAt laid]
  simp only [updatesAt, QueueTable.addressed, List.filterMap_filterMap, List.filter_filterMap,
    List.filterMap_filter]
  refine List.filterMap_congr fun entry _ => ?_
  cases store.owner? entry.1 with
  | none => simp
  | some owner =>
    by_cases here : owner.queue = number <;> by_cases place : entry.2.location = location <;>
      simp [here, place]

/-- Updates keep the total in step with the hosts of the stores. -/
theorem total_foldl_absorb (total : store.totalHosts = store.hosts) (updates : List Update) :
    (updates.foldl absorb store).totalHosts = (updates.foldl absorb store).hosts := by
  induction updates generalizing store with
  | nil => exact total
  | cons update updates ih => exact ih (total_absorb total update)

section Interleaved

variable (same : ∀ location, updatesAt location first = updatesAt location second)
include same

/-- The same updates, in another order, are seen. -/
theorem mem_sightings_interleaved (store : NodeStore) (pair : Location × Version) :
    pair ∈ store.sightings first ↔ pair ∈ store.sightings second := by
  have members : ∀ update, update ∈ first ↔ update ∈ second := by
    intro update
    have share := congrArg (update ∈ ·) (same update.location)
    simpa only [mem_updatesAt, and_true, eq_iff_iff] using share
  simp only [sightings, List.mem_map, List.mem_filter, members]

/-- Every store is left the same. -/
theorem stores_interleaved (laid : store.Laid) :
    (first.foldl absorb store).stores = (second.foldl absorb store).stores := by
  refine Array.ext_getElem? fun k => ?_
  cases here : store.stores[k]? with
  | none =>
    have outside : store.stores.size ≤ k := Array.getElem?_eq_none_iff.mp here
    rw [Array.getElem?_eq_none, Array.getElem?_eq_none]
    · rwa [(samePlan_foldl_absorb store second).size]
    · rwa [(samePlan_foldl_absorb store first).size]
  | some target =>
    rw [stores_updatesAt laid here first, stores_updatesAt laid here second, same target.location]

/-- So is what a batch of them leaves of the node store. -/
theorem process_interleaved (laid : store.Laid) (total : store.totalHosts = store.hosts)
    (queues other : QueueTable) :
    (store.process queues first).store = (store.process other second).store := by
  have stores := stores_interleaved same laid
  have totals : (first.foldl absorb store).totalHosts = (second.foldl absorb store).totalHosts := by
    rw [total_foldl_absorb total, total_foldl_absorb total, hosts, hosts, stores]
  have versions : store.versions.merge (.ofList (store.sightings first)) =
      store.versions.merge (.ofList (store.sightings second)) :=
    congrArg store.versions.merge (VersionMap.ofList_congr (mem_sightings_interleaved same store))
  have one := samePlan_foldl_absorb store first
  have two := samePlan_foldl_absorb store second
  rw [(store.process_spec queues first).1, (store.process_spec other second).1, versions]
  generalize first.foldl absorb store = left at *
  generalize second.foldl absorb store = right at *
  obtain ⟨ring, perLocation, parts, seen, count⟩ := left
  obtain ⟨ring', perLocation', parts', seen', count'⟩ := right
  obtain rfl : ring = ring' := one.ring.trans two.ring.symm
  obtain rfl : perLocation = perLocation' := one.perLocation.trans two.perLocation.symm
  obtain rfl : parts = parts' := stores
  obtain rfl : count = count' := totals
  rfl

end Interleaved

/-- What happens while updates come in: a batch is processed, or one client queue makes a step of
its own, between a forwarder and its client or because a watch is asked for. -/
inductive Turn : NodeStore × QueueTable → List Update → NodeStore × QueueTable → Prop where
  | process {store : NodeStore} {queues : QueueTable} (updates : List Update) :
      Turn (store, queues) updates
        ((store.process queues updates).store, (store.process queues updates).queues)
  | serve {store : NodeStore} {queues : QueueTable} {number : Nat} {queue next : ClientQueue}
      {occurrence : ClientQueue.Occurrence} (found : queues.get? number = some queue)
      (moved : ClientQueue.Step queue occurrence next) (quiet : occurrence.update? = none)
      (alive : next.isAlive = queue.isAlive) :
      Turn (store, queues) [] (store, queues.modify number fun _ => next)

/-- The queue with a number was told updates, if there is one. -/
def ToldAt (number : Nat) (updates : List Update) (before after : QueueTable) : Prop :=
  Option.Rel (fun queue next => ClientQueue.Told queue updates next)
    (before.get? number) (after.get? number)

namespace ToldAt

variable {number : Nat} {before middle : QueueTable}

theorem refl (number : Nat) (table : QueueTable) : ToldAt number [] table table := by
  unfold ToldAt
  cases table.get? number with
  | none => exact .none
  | some queue => exact .some (.refl queue)

/-- A batch tells it more. -/
theorem deliver (told : ToldAt number updates before middle) (notices : List (Nat × Update)) :
    ToldAt number (updates ++ QueueTable.addressed number notices) before
      (middle.deliverAll notices) := by
  unfold ToldAt at told ⊢
  rw [QueueTable.get?_deliverAll]
  generalize before.get? number = first at told
  generalize middle.get? number = second at told
  cases told with
  | none => exact .none
  | some told => exact .some (told.deliver _)

/-- A step of some queue tells it nothing. -/
theorem serve (told : ToldAt number updates before middle) {other : Nat} {queue next : ClientQueue}
    {occurrence : ClientQueue.Occurrence} (found : middle.get? other = some queue)
    (moved : ClientQueue.Step queue occurrence next) (quiet : occurrence.update? = none)
    (alive : next.isAlive = queue.isAlive) :
    ToldAt number updates before (middle.modify other fun _ => next) := by
  unfold ToldAt at told ⊢
  rw [QueueTable.get?_modify]
  split
  · next here =>
    subst here
    rw [found] at told ⊢
    generalize before.get? number = first at told
    cases told with
    | some told => exact .some (told.serve moved quiet alive)
  · exact told

end ToldAt

/-- A batch without updates changes nothing. -/
theorem process_nil (store : NodeStore) (queues : QueueTable) :
    (store.process queues []).store = store := by
  have versions : store.versions.merge (.ofList (store.sightings [])) = store.versions :=
    store.versions.merge_empty
  rw [(store.process_spec queues []).1, versions]
  rfl

/-- Turns leave the node store as one batch of all updates, and tell every queue its share. -/
theorem turns {queues : QueueTable} {state : NodeStore × QueueTable}
    (run : Chained Turn (store, queues) updates state) :
    state.1 = (store.process {} updates).store ∧
      ∀ number, ToldAt number (QueueTable.addressed number (store.notices updates)) queues
        state.2 := by
  induction run with
  | refl => exact ⟨(process_nil store {}).symm, fun number => .refl number queues⟩
  | @step trace shown middle next prior turn ih =>
    obtain ⟨left, told⟩ := ih
    cases turn with
    | process updates =>
      simp only at left told
      subst left
      refine ⟨process_append_store store {} _ {} trace shown, fun number => ?_⟩
      have more := (told number).deliver ((store.process {} trace).store.notices shown)
      rw [process_append_notices store {} trace shown, QueueTable.addressed,
        List.filterMap_append, process_queues]
      exact more
    | serve found moved quiet alive =>
      rw [List.append_nil]
      exact ⟨left, fun number => (told number).serve found moved quiet alive⟩

/-- Two node stores with their queues that differ in what streams and mailboxes hold at most. -/
structure Converge (left right : NodeStore × QueueTable) : Prop where
  /-- The contents, the counts and the owners of all stores, the total, and the versions. -/
  nodes : left.1 = right.1
  /-- The updates that each queue retains of each location, and the numbers of the first one and of
  the next one. -/
  windows : ∀ number,
    (left.2.get? number).map (·.windows) = (right.2.get? number).map (·.windows)

/-- Whatever state a node store and its queues have reached, updates lead from there to the same
stores, versions and retained updates, in whatever way those of different locations are interleaved,
wherever batches end, and whatever watches do meanwhile. -/
theorem interleaved {perLocation regions partitions : Nat}
    {start state left right : NodeStore × QueueTable} {history : List Update}
    (created : create perLocation regions partitions = .ok start.1)
    (run : Steps start history state) (one : Chained Turn state first left)
    (two : Chained Turn state second right)
    (same : ∀ location, updatesAt location first = updatesAt location second) :
    Converge left right := by
  obtain ⟨reflects, -⟩ := reflects_of_created created run
  obtain ⟨store, queues⟩ := state
  have laid := reflects.sound.laid
  obtain ⟨leftNodes, leftTold⟩ := turns one
  obtain ⟨rightNodes, rightTold⟩ := turns two
  refine ⟨?_, fun number => ?_⟩
  · rw [leftNodes, rightNodes]
    exact process_interleaved same laid reflects.total {} {}
  · have shares : ∀ location,
        updatesAt location (QueueTable.addressed number (store.notices first)) =
          updatesAt location (QueueTable.addressed number (store.notices second)) := by
      intro location
      rw [updatesAt_addressed laid, updatesAt_addressed laid, same location]
    have told := leftTold number
    have alsoTold := rightTold number
    unfold ToldAt at told alsoTold
    generalize queues.get? number = queue at told alsoTold
    generalize left.2.get? number = one at told
    generalize right.2.get? number = two at alsoTold
    cases told with
    | none => cases alsoTold; rfl
    | some told =>
      cases alsoTold with
      | some alsoTold => exact congrArg some (told.windows_eq alsoTold shares)

/-- The node of Shanghai changes again. -/
private def thirdReport : Update where
  event := { type := .modified, node := .fresh "a" 7 ⟨.shanghai, .rp1⟩ }
  location := ⟨.shanghai, .rp1⟩
  version := 7

/-- A node of Beijing comes. -/
private def otherReport : Update where
  event := { type := .added, node := .fresh "b" 1 ⟨.beijing, .rp1⟩ }
  location := ⟨.beijing, .rp1⟩
  version := 1

/-- What the other node leaves when it comes first. -/
private def halfReported : Batch :=
  reportedTwice.store.process reportedTwice.queues [otherReport]

/-- The queue of the client then. -/
private def idleQueue : ClientQueue :=
  (halfReported.queues.get? 0).getD default

/-- The queue when a watch was accepted that has nothing to replay. -/
private def watchedQueue : ClientQueue :=
  { idleQueue with
    watcher := some idleQueue.nextWatch
    nextWatch := idleQueue.nextWatch + 1
    streams := idleQueue.streams ++ [.start idleQueue.nextWatch [] idleQueue.windowLength 4] }

/-- After a node was reported twice, it changes again while another one comes: in one batch, or the
other one first and a watch started in between. -/
theorem interleaved_watched :
    ∃ (left right : NodeStore × QueueTable),
      Chained Turn (reportedTwice.store, reportedTwice.queues) [thirdReport, otherReport] left ∧
      Chained Turn (reportedTwice.store, reportedTwice.queues) [otherReport, thirdReport] right ∧
      Converge left right ∧
      (right.2.get? 0).map (·.retained ⟨.shanghai, .rp1⟩) = some 2 ∧
      (left.2.get? 0).map (·.isWatching) = some false ∧
      (right.2.get? 0).map (·.isWatching) = some true := by
  have nothing : idleQueue.replay [(⟨.shanghai, .rp1⟩, 6)] = .ok [] := by decide +kernel
  have accepted : idleQueue.watchFrom [(⟨.shanghai, .rp1⟩, 6)] 4 =
      .ok (idleQueue.nextWatch, watchedQueue) :=
    (ClientQueue.watchFrom_eq_ok nothing).mpr ⟨by decide +kernel, rfl, rfl⟩
  have present : (halfReported.queues.get? 0).isSome = true := by decide +kernel
  have found : halfReported.queues.get? 0 = some idleQueue := by
    obtain ⟨queue, here⟩ := Option.isSome_iff_exists.mp present
    rw [idleQueue, here, Option.getD_some]
  have one : Chained Turn (reportedTwice.store, reportedTwice.queues)
      [thirdReport, otherReport] _ := .single (.process _)
  have started : Chained Turn (reportedTwice.store, reportedTwice.queues) ([otherReport] ++ [])
      (halfReported.store, halfReported.queues.modify 0 fun _ => watchedQueue) :=
    (Chained.single (.process [otherReport])).step
      (.serve found (.watch nothing accepted) rfl (by decide +kernel))
  have two := started.step (.process [thirdReport])
  have same : ∀ location, updatesAt location [thirdReport, otherReport] =
      updatesAt location [otherReport, thirdReport] := by
    intro location
    by_cases here : (⟨.shanghai, .rp1⟩ : Location) = location
    · subst here
      decide +kernel
    · have elsewhere : updatesAt location [thirdReport] = [] := by
        rw [updatesAt_singleton]
        exact if_neg here
      change updatesAt location ([thirdReport] ++ [otherReport]) =
        updatesAt location ([otherReport] ++ [thirdReport])
      rw [updatesAt_append, updatesAt_append, elsewhere, List.append_nil, List.nil_append]
  have created : create 1 3 3 = .ok blankGrid := rfl
  exact ⟨_, _, one, two, interleaved created reportedTwice_steps one two same, by decide +kernel,
    by decide +kernel, by decide +kernel⟩

end NodeStore

end FleetRing
