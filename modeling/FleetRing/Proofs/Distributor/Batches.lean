import FleetRing.Proofs.Distributor.Retention
import FleetRing.Proofs.Persist.Runs
import FleetRing.Proofs.Store.Splitting
import FleetRing.Proofs.Text.Numeral

/-!
# Where batches end does not matter

Events may come in one batch or in several, and with events among them that no store
takes in. `IsBad` says which events these are, by what they report alone. What is held,
what the clients are told and, as long as persistence succeeds, what is persisted does
not depend on either (`ingest_agrees`).
-/

namespace FleetRing

/-- A raw region or partition stands outside its table, or outside the topology. -/
def Placement.IsOutside (topology : Topology) (placement : Placement) : Prop :=
  placement.region.toInt < 0 ∨ Region.count ≤ placement.region.toInt ∨
    placement.partition.toInt < 0 ∨ Partition.count ≤ placement.partition.toInt ∨
    topology.regions ≤ placement.region.toInt ∨ topology.partitions ≤ placement.partition.toInt

/-- The event is of a type that brings in no state, or reports a location outside the topology, or
a version that is no number. -/
def NodeEvent.IsBad (topology : Topology) (event : NodeEvent) : Prop :=
  (event.type ≠ .added ∧ event.type ≠ .modified) ∨ event.node.placement.IsOutside topology ∨
    ¬ Text.IsWord event.node.versionText

instance (topology : Topology) : DecidablePred (Placement.IsOutside topology) :=
  fun _ => inferInstanceAs (Decidable (_ ∨ _ ∨ _ ∨ _ ∨ _ ∨ _))

instance (topology : Topology) : DecidablePred (NodeEvent.IsBad topology) :=
  fun _ => inferInstanceAs (Decidable (_ ∨ _ ∨ _))

namespace Distributor

variable {dist : Distributor} {now first second : Time} {events xs ys : List NodeEvent}

/-- An event whose update has a store is not bad. -/
theorem not_isBad_of_routed {nodes : NodeStore} {event : NodeEvent} {update : Update}
    (accepted : accept? event = some update) (routed : nodes.routes update = true) :
    ¬ event.IsBad nodes.ring.topology := by
  obtain ⟨supported, made⟩ := accept?_eq_some accepted
  obtain ⟨⟨location, version⟩, same⟩ := Update.resolved_of_ofEvent made
  obtain ⟨k, target, served, -⟩ := NodeStore.routes_eq_true.mp routed
  have node : update.node = event.node := congrArg NodeEvent.node same
  rw [node] at location version
  obtain ⟨region, partition⟩ := Location.index_of_ofRaw? location
  obtain ⟨regionInside, partitionInside⟩ := (NodeStore.exists_route?_iff rfl).mp ⟨k, served⟩
  have regionBound := update.location.region.index_lt
  have partitionBound := update.location.partition.index_lt
  rintro (⟨added, modified⟩ | outside | unread)
  · rcases EventType.carriesState_iff.mp supported with type | type
    · exact added type
    · exact modified type
  · unfold Placement.IsOutside at outside
    omega
  · refine unread (Text.isSome_word?_iff.mp ?_)
    rw [show Text.word? event.node.versionText = some update.version from version]
    rfl

/-- Bad events bring in no update that has a store. -/
theorem filterMap_accept?_kept (nodes : NodeStore) (events : List NodeEvent) :
    ((events.filter fun event => ¬ event.IsBad nodes.ring.topology).filterMap accept?).filter
        nodes.routes = (events.filterMap accept?).filter nodes.routes := by
  induction events with
  | nil => rfl
  | cons event events ih =>
    by_cases bad : event.IsBad nodes.ring.topology
    · have dropped : (accept? event).all (fun update => !nodes.routes update) = true := by
        cases accepted : accept? event with
        | none => rfl
        | some update =>
          cases routed : nodes.routes update with
          | false => simp [routed]
          | true => exact absurd bad (not_isBad_of_routed accepted routed)
      cases accepted : accept? event with
      | none => simpa [bad, accepted] using ih
      | some update =>
        rw [accepted] at dropped
        simpa [bad, accepted, show nodes.routes update = false by simpa using dropped] using ih
    · cases accepted : accept? event with
      | none => simpa [bad, accepted] using ih
      | some update => cases routed : nodes.routes update <;> simpa [bad, accepted, routed] using ih

/-- A second stamp replaces the first one. -/
theorem stamp_stamp (update : Update) (checkpoint : Checkpoint) (earlier later : Time) :
    (update.stamp checkpoint earlier).stamp checkpoint later = update.stamp checkpoint later := by
  cases checkpoint <;> rfl

/-- What is accepted of an event does not depend on when it was received. -/
theorem accept?_stamp (event : NodeEvent) (checkpoint : Checkpoint) (now : Time) :
    accept? (event.stamp checkpoint now) = (accept? event).map (·.stamp checkpoint now) := by
  have made : Update.ofEvent (event.stamp checkpoint now) =
      (Update.ofEvent event).map (·.stamp checkpoint now) := by
    have node : (event.stamp checkpoint now).node = event.node := rfl
    unfold Update.ofEvent
    rw [node]
    cases event.node.location with
    | error error => rfl
    | ok location => cases event.node.version <;> rfl
  have type : (event.stamp checkpoint now).type = event.type := rfl
  rw [accept?, type, made, accept?]
  split
  · cases Update.ofEvent event <;> rfl
  · rfl

/-- The updates that a batch of events brings to the node store. -/
def arrivals (now : Time) (events : List NodeEvent) : List Update :=
  (receive now events).filterMap accept?

theorem arrivals_eq (now : Time) (events : List NodeEvent) :
    arrivals now events = (events.filterMap accept?).map (·.stamp .distributorReceived now) := by
  simp only [arrivals, receive, List.filterMap_map, Function.comp_def, accept?_stamp,
    List.map_filterMap]

/-- What the queues of clients are told of a batch, in order: the number of the queue, and the
update. -/
def notices (dist : Distributor) (now : Time) (events : List NodeEvent) : List (Nat × Update) :=
  dist.nodes.notices (arrivals now events)

/-- Nothing else is pushed to any queue. -/
theorem queues_ingest (dist : Distributor) (now : Time) (events : List NodeEvent) :
    (dist.ingest now events).dist.queues = dist.queues.deliverAll (dist.notices now events) :=
  dist.nodes.process_queues dist.queues (arrivals now events)

/-- What a batch leaves of the node store does not depend on when it was received, nor on the
queues. -/
theorem process_arrivals (nodes : NodeStore) (queues : QueueTable) (now : Time)
    (events : List NodeEvent) :
    (nodes.process queues (arrivals now events)).store =
        (nodes.process {} (events.filterMap accept?)).store ∧
      (nodes.process queues (arrivals now events)).stats.touched =
        (nodes.process {} (events.filterMap accept?)).stats.touched := by
  rw [arrivals_eq]
  exact NodeStore.process_map (fun update => update.repeats_stamp .distributorReceived now) nodes
    queues {} (events.filterMap accept?)

theorem nodes_ingest (dist : Distributor) (now : Time) (events : List NodeEvent) :
    (dist.ingest now events).dist.nodes =
      (dist.nodes.process {} (events.filterMap accept?)).store :=
  (process_arrivals dist.nodes dist.queues now events).1

/-- What the queue with a number is told of a batch, in order. -/
def told (dist : Distributor) (number : Nat) (now : Time) (events : List NodeEvent) :
    List Update :=
  (dist.notices now events).filterMap fun notice =>
    if notice.1 = number then some notice.2 else none

/-- That is all that is pushed to the queue, as long as anything keeps it alive. -/
theorem get?_ingest (dist : Distributor) (now : Time) (events : List NodeEvent) (number : Nat) :
    (dist.ingest now events).dist.queues.get? number = (dist.queues.get? number).map fun queue =>
      (dist.told number now events).foldl
        (fun queue update => if queue.isAlive then queue.push update else queue) queue := by
  rw [queues_ingest]
  exact dist.queues.get?_deliverAll (dist.notices now events) number

/-- The same is told whenever a batch is received, but for the stamp. -/
theorem told_restamped (dist : Distributor) (earlier now : Time) (events : List NodeEvent)
    (number : Nat) : (dist.told number earlier events).map (·.stamp .distributorReceived now) =
      dist.told number now events := by
  have arrived : arrivals now events =
      (arrivals earlier events).map (·.stamp .distributorReceived now) := by
    simp only [arrivals_eq, List.map_map, Function.comp_def, stamp_stamp]
  have restated := NodeStore.notices_map
    (fun update => update.repeats_stamp .distributorReceived now) dist.nodes
    (arrivals earlier events)
  rw [told, told, notices, notices, arrived, restated, List.map_filterMap, List.filterMap_map]
  refine List.filterMap_congr fun notice _ => ?_
  by_cases here : notice.1 = number <;> simp [here]

/-- The run that persists the nodes of a batch that changed. -/
def nodesRun (dist : Distributor) (now : Time) (events : List NodeEvent) : PersistRun Backend :=
  let batch := dist.nodes.process dist.queues (arrivals now events)
  dist.backend.run dist.config.policy dist.breaker now
    (RecordStore.persistNodes batch.stats.touched.toList)

/-- The run that persists the status after a batch. -/
def statusRun (dist : Distributor) (now : Time) (events : List NodeEvent) : PersistRun Backend :=
  let batch := dist.nodes.process dist.queues (arrivals now events)
  let first := dist.nodesRun now events
  first.backend.run dist.config.policy first.breaker first.ended
    (RecordStore.persistStatusIn (first.backend.arrange batch.store.status) batch.store.status)

/-- Both runs of a batch succeed. -/
def Persists (dist : Distributor) (now : Time) (events : List NodeEvent) : Prop :=
  (dist.nodesRun now events).outcome = .persisted ∧ (dist.statusRun now events).outcome = .persisted

instance (dist : Distributor) (now : Time) (events : List NodeEvent) :
    Decidable (dist.Persists now events) :=
  inferInstanceAs (Decidable (_ ∧ _))

/-- A batch changes stores and queues, makes both runs, and counts. -/
theorem dist_ingest (dist : Distributor) (now : Time) (events : List NodeEvent) :
    (dist.ingest now events).dist = { dist with
      nodes := (dist.ingest now events).dist.nodes
      queues := (dist.ingest now events).dist.queues
      breaker := (dist.statusRun now events).breaker
      backend := (dist.statusRun now events).backend
      metrics := (dist.ingest now events).dist.metrics } := rfl

/-- Runs leave it as it is in which order versions are written. -/
theorem arrange_nodesRun (dist : Distributor) (now : Time) (events : List NodeEvent) :
    (dist.nodesRun now events).backend.arrange = dist.backend.arrange :=
  dist.backend.arrange_run ..

theorem arrange_ingest (dist : Distributor) (now : Time) (events : List NodeEvent) :
    (dist.ingest now events).dist.backend.arrange = dist.backend.arrange :=
  (Backend.arrange_run ..).trans (dist.arrange_nodesRun now events)

/-- The text under which the status is persisted. -/
def statusText (dist : Distributor) : String :=
  dist.nodes.status.textOf (dist.backend.arrange dist.nodes.status)

/-- Runs that succeed leave the nodes that changed, and the status after the batch. -/
theorem records_ingest (persists : dist.Persists now events) :
    (dist.ingest now events).dist.backend.records.records =
      RecordStore.putRecord RecordStore.statusKey (dist.ingest now events).dist.statusText
        (RecordStore.putNodes
          (dist.nodes.process {} (events.filterMap accept?)).stats.touched.toList
          dist.backend.records.records) := by
  have touched := (process_arrivals dist.nodes dist.queues now events).2
  let changed := (dist.nodes.process dist.queues (arrivals now events)).stats.touched.toList
  let reached := (dist.ingest now events).dist.nodes.status
  have first : (dist.nodesRun now events).backend.records.contents =
      (Writing.nodes changed).effect dist.backend.records.contents :=
    (Writing.nodes changed).contents_of_persisted dist.config.policy dist.breaker now dist.backend
      persists.1
  have second : (dist.statusRun now events).backend.records.contents =
      (Writing.status reached (dist.backend.arrange reached)).effect
        (dist.nodesRun now events).backend.records.contents := by
    rw [← dist.arrange_nodesRun now events]
    exact (Writing.status reached _).contents_of_persisted dist.config.policy
      (dist.nodesRun now events).breaker (dist.nodesRun now events).ended
      (dist.nodesRun now events).backend persists.2
  rw [first, show changed = _ from congrArg Array.toList touched] at second
  rw [statusText, arrange_ingest]
  exact congrArg Contents.records second

/-- Two ways to take in events leave the same nodes, in the same stores, with the same count, owners
and versions, and return the same map. -/
structure Ingestion.Agrees (one two : Ingestion) : Prop where
  nodes : one.dist.nodes = two.dist.nodes
  versions : one.versions = two.versions

/-- The map that is returned is what the node store has seen then. -/
theorem versions_ingest (dist : Distributor) (now : Time) (events : List NodeEvent) :
    (dist.ingest now events).versions = (dist.ingest now events).dist.nodes.versions := rfl

theorem agrees_of_nodes {other : Distributor} {then_ : Time} {others : List NodeEvent}
    (same : (dist.ingest now events).dist.nodes = (other.ingest then_ others).dist.nodes) :
    (dist.ingest now events).Agrees (other.ingest then_ others) :=
  ⟨same, by rw [versions_ingest, versions_ingest, same]⟩

theorem agrees_append (dist : Distributor) (now first second : Time) (xs ys : List NodeEvent) :
    (dist.ingest now (xs ++ ys)).Agrees ((dist.ingest first xs).dist.ingest second ys) := by
  refine agrees_of_nodes ?_
  rw [nodes_ingest, nodes_ingest, nodes_ingest, List.filterMap_append]
  exact (NodeStore.process_append_store dist.nodes {} {} {} _ _).symm

/-- The second batch is told after the first one, whenever that was received. -/
theorem notices_append (dist : Distributor) (now first : Time) (xs ys : List NodeEvent) :
    dist.notices now (xs ++ ys) =
      dist.notices now xs ++ (dist.ingest first xs).dist.notices now ys := by
  have split := NodeStore.process_append_notices dist.nodes dist.queues (arrivals now xs)
    (arrivals now ys)
  have arrived : arrivals now (xs ++ ys) = arrivals now xs ++ arrivals now ys := by
    simp [arrivals, receive]
  rw [(process_arrivals dist.nodes dist.queues now xs).1] at split
  rw [notices, notices, notices, arrived, split, nodes_ingest]

/-- So the queues are the same, if times are. -/
theorem queues_append (dist : Distributor) (now : Time) (xs ys : List NodeEvent) :
    (dist.ingest now (xs ++ ys)).dist.queues =
      ((dist.ingest now xs).dist.ingest now ys).dist.queues := by
  rw [queues_ingest, queues_ingest, queues_ingest, notices_append dist now now,
    QueueTable.deliverAll_append]

/-- Records are the same, if all runs succeed. -/
theorem records_append (whole : dist.Persists now (xs ++ ys)) (earlier : dist.Persists first xs)
    (later : (dist.ingest first xs).dist.Persists second ys) :
    (dist.ingest now (xs ++ ys)).dist.backend.records.records =
      ((dist.ingest first xs).dist.ingest second ys).dist.backend.records.records := by
  have touched := NodeStore.process_append_touched dist.nodes {} {} {} (xs.filterMap accept?)
    (ys.filterMap accept?)
  rw [← List.filterMap_append] at touched
  rw [records_ingest whole, records_ingest later, records_ingest earlier, statusText, statusText,
    arrange_ingest, arrange_ingest, arrange_ingest,
    (agrees_append dist now first second xs ys).nodes, nodes_ingest dist first xs, touched,
    RecordStore.putNodes_append]
  refine Std.ExtTreeMap.ext_getElem? fun {key} => ?_
  rw [RecordStore.getElem?_putRecord, RecordStore.getElem?_putRecord]
  -- The status that the first batch left is replaced by that of the second one.
  by_cases status : RecordStore.statusKey = key
  · rw [if_pos status, if_pos status]
  · rw [if_neg status, if_neg status]
    simp only [RecordStore.getElem?_putNodes, RecordStore.getElem?_putRecord, if_neg status]

/-- The events of a batch that are not bad. -/
def kept (dist : Distributor) (events : List NodeEvent) : List NodeEvent :=
  events.filter fun event => ¬ event.IsBad dist.nodes.ring.topology

/-- What is left of a batch without bad events brings in the same. -/
theorem process_kept (dist : Distributor) (now : Time) (events : List NodeEvent) :
    (dist.nodes.process dist.queues (arrivals now (dist.kept events))).store =
        (dist.nodes.process dist.queues (arrivals now events)).store ∧
      (dist.nodes.process dist.queues (arrivals now (dist.kept events))).stats.touched =
        (dist.nodes.process dist.queues (arrivals now events)).stats.touched ∧
      dist.notices now (dist.kept events) = dist.notices now events := by
  have routes : dist.nodes.routes ∘ (·.stamp .distributorReceived now) = dist.nodes.routes := rfl
  have same : (arrivals now (dist.kept events)).filter dist.nodes.routes =
      (arrivals now events).filter dist.nodes.routes := by
    rw [arrivals_eq, arrivals_eq, List.filter_map, List.filter_map, routes, kept,
      filterMap_accept?_kept]
  obtain ⟨store, touched, told⟩ := dist.nodes.process_routed dist.queues (arrivals now events)
  obtain ⟨keptStore, keptTouched, keptTold⟩ :=
    dist.nodes.process_routed dist.queues (arrivals now (dist.kept events))
  rw [same] at keptStore keptTouched keptTold
  exact ⟨keptStore.symm.trans store, keptTouched.symm.trans touched, keptTold.symm.trans told⟩

/-- A distributor is the same without the bad events, but for what it counts. -/
theorem dist_kept (dist : Distributor) (now : Time) (events : List NodeEvent) :
    ∃ metrics, (dist.ingest now (dist.kept events)).dist =
      { (dist.ingest now events).dist with metrics } := by
  obtain ⟨store, touched, told⟩ := dist.process_kept now events
  have nodes : (dist.ingest now (dist.kept events)).dist.nodes =
      (dist.ingest now events).dist.nodes := store
  have queues : (dist.ingest now (dist.kept events)).dist.queues =
      (dist.ingest now events).dist.queues := by
    rw [queues_ingest, queues_ingest, told]
  have first : dist.nodesRun now (dist.kept events) = dist.nodesRun now events := by
    simp only [nodesRun, touched]
  have second : dist.statusRun now (dist.kept events) = dist.statusRun now events := by
    simp only [statusRun, first, store]
  refine ⟨(dist.ingest now (dist.kept events)).dist.metrics, ?_⟩
  rw [dist_ingest dist now (dist.kept events), dist_ingest dist now events, nodes, queues, second]

/-- Where batches end and which bad events they hold does not matter to a distributor in any state.
All that is pushed to a queue is what the queue is told. One batch leaves the same nodes and
versions as its two parts, one after the other, and tells each queue the same, but for the stamp
of receipt; if times agree, the queues are the same, and if all persistence runs succeed, so are
the records. Without bad events it leaves the same distributor, but for what this counts. -/
theorem ingest_agrees (dist : Distributor) :
    (∀ (now : Time) (events : List NodeEvent) (number : Nat),
      (dist.ingest now events).dist.queues.get? number =
        (dist.queues.get? number).map fun queue => (dist.told number now events).foldl
          (fun queue update => if queue.isAlive then queue.push update else queue) queue) ∧
    (∀ (now first second : Time) (xs ys : List NodeEvent),
      (dist.ingest now (xs ++ ys)).Agrees ((dist.ingest first xs).dist.ingest second ys) ∧
      (∀ number, dist.told number now (xs ++ ys) =
        (dist.told number first xs ++ (dist.ingest first xs).dist.told number second ys).map
          (·.stamp .distributorReceived now)) ∧
      (now = first → now = second → (dist.ingest now (xs ++ ys)).dist.queues =
        ((dist.ingest first xs).dist.ingest second ys).dist.queues) ∧
      (dist.Persists now (xs ++ ys) → dist.Persists first xs →
        (dist.ingest first xs).dist.Persists second ys →
          (dist.ingest now (xs ++ ys)).dist.backend.records.records =
            ((dist.ingest first xs).dist.ingest second ys).dist.backend.records.records)) ∧
    ∀ (now : Time) (events : List NodeEvent),
      (dist.ingest now (dist.kept events)).Agrees (dist.ingest now events) ∧
      (∀ number, dist.told number now (dist.kept events) = dist.told number now events) ∧
      ∃ metrics, (dist.ingest now (dist.kept events)).dist =
        { (dist.ingest now events).dist with metrics } := by
  refine ⟨dist.get?_ingest, fun now first second xs ys => ⟨dist.agrees_append .., fun number => ?_,
    ?_, records_append⟩, fun now events => ?_⟩
  · rw [told, dist.notices_append now first xs ys, List.filterMap_append, List.map_append]
    exact congrArg₂ (· ++ ·) (dist.told_restamped first now xs number).symm
      ((dist.ingest first xs).dist.told_restamped second now ys number).symm
  · rintro rfl rfl
    exact dist.queues_append now xs ys
  · obtain ⟨store, -, same⟩ := dist.process_kept now events
    exact ⟨agrees_of_nodes store, fun number => by rw [told, told, same], dist.dist_kept now events⟩

/-- Events of the small fleet: the second one is of a type that brings in no state, -/
def smallEarlier : List NodeEvent :=
  [reported .modified "a" 6 .shanghai, reported .deleted "a" 7 .shanghai]

/-- and of these the second one is outside the topology. -/
def smallLater : List NodeEvent :=
  [reported .added "b" 7 .beijing, reported .added "c" 8 .wulan]

/-- In the small fleet, all runs succeed. The client is told of the two events that are not bad, in
one batch or in two, and what is held and persisted is the same. -/
theorem ingest_agrees_small :
    smallTaken.Persists 3 (smallEarlier ++ smallLater) ∧ smallTaken.Persists 1 smallEarlier ∧
    (smallTaken.ingest 1 smallEarlier).dist.Persists 2 smallLater ∧
    smallTaken.kept (smallEarlier ++ smallLater) =
      [reported .modified "a" 6 .shanghai, reported .added "b" 7 .beijing] ∧
    (smallTaken.told 0 3 (smallEarlier ++ smallLater)).map (·.version) = [6, 7] ∧
    (smallTaken.ingest 3 (smallEarlier ++ smallLater)).Agrees
      ((smallTaken.ingest 1 smallEarlier).dist.ingest 2 smallLater) ∧
    (smallTaken.ingest 3 (smallEarlier ++ smallLater)).dist.backend.records.records =
      ((smallTaken.ingest 1 smallEarlier).dist.ingest 2
        smallLater).dist.backend.records.records := by
  have whole : smallTaken.Persists 3 (smallEarlier ++ smallLater) := by decide +kernel
  have earlier : smallTaken.Persists 1 smallEarlier := by decide +kernel
  have later : (smallTaken.ingest 1 smallEarlier).dist.Persists 2 smallLater := by decide +kernel
  obtain ⟨agrees, -, -, records⟩ :=
    (ingest_agrees smallTaken).2.1 3 1 2 smallEarlier smallLater
  exact ⟨whole, earlier, later, by decide +kernel, by decide +kernel, agrees,
    records whole earlier later⟩

end Distributor

end FleetRing
