import FleetRing.Proofs.Simulation.Stages
import FleetRing.Proofs.Simulation.Workload

/-!
# What a simulation reports

A simulation that comes to an end reports figures that its arguments and the stores of its clients
decide (`tallies_of_run`): how many nodes came in and are held, how many updates were sent, what
each client was listed and how many of the updates it received, and how many records there are.

Updates have to fit into the window of a client, since a client receives nothing before all of them
were sent. A simulation whose client does not get its stores or its watch has no report.
-/

namespace FleetRing

namespace Simulation

open Distributor

variable {config : Config} {args : SimulationArgs} {draw : Nat → String}
  {report : SimulationReport} {start : Distributor} {scheduler : Scheduler}

/-- The nodes that are created. -/
def created (start : Distributor) (args : SimulationArgs) : List Node :=
  freshNodes start.nodes.ring.topology.locations args.nodes

/-- The distributor when they came in. -/
def stocked (scheduler : Scheduler) (start : Distributor) (args : SimulationArgs) : Distributor :=
  (batches (created start args)).foldl (fun dist batch =>
    takeIn scheduler dist (batch.map fun node => { type := .added, node })) start

/-- The updates that are sent. -/
def sent (start : Distributor) (args : SimulationArgs) : List NodeEvent :=
  updateEvents (created start args) start.nodes.ring.topology.locations args.updates

/-- The distributor when these came in as well. -/
def finished (scheduler : Scheduler) (start : Distributor) (args : SimulationArgs)
    (watched : Distributor) : Distributor :=
  (batches (sent start args)).foldl (takeIn scheduler) watched

/-- A simulation that comes to an end creates nodes, enlists clients and sends updates. -/
theorem runUnder_eq_ok (ran : runUnder scheduler config args draw = .ok report) :
    ∃ start watchers watched, Simulation.start config args = .ok start ∧
      enlistAll scheduler args.hosts draw args.clients 0 (stocked scheduler start args) =
        .ok (watchers, watched) ∧
      report = {
        nodesIngested := (created start args).length
        totalHosts := (finished scheduler start args watched).nodes.totalHosts
        updatesSent := (sent start args).length
        persistedRecords := (finished scheduler start args watched).backend.records.size
        clients := watchers.map
          (Simulation.report scheduler (finished scheduler start args watched).queues) } := by
  unfold runUnder at ran
  split at ran
  · cases ran
  · next start started =>
    dsimp only at ran
    split at ran
    · cases ran
    · next watchers watched enlisted =>
      exact ⟨start, watchers, watched, started, enlisted, (Except.ok.inj ran).symm⟩

/-- What a client is said to have seen, where `listing` is what it was listed by `registered`, the
distributor when it was registered. -/
structure TalliesClient (args : SimulationArgs) (created : List Node) (registered : Distributor)
    (listing : List Node) (seen : ClientReport) : Prop where
  /-- It is listed the nodes whose virtual store is assigned to it. -/
  assigned : listing.Perm (created.filter fun node =>
    registered.clientOf? node = some seen.client)
  /-- They are counted, -/
  listed : seen.listed = listing.length
  /-- and are as many as were asked for, or more. -/
  enough : args.hosts ≤ seen.listed
  /-- It receives the updates of these nodes. Update `i` is one of node `i` modulo the number of
  nodes. -/
  watched : seen.watched = (List.range args.updates).countP fun i =>
    (created[i % args.nodes]?).any (· ∈ listing)
  /-- So it receives one of each, if one of each was sent. -/
  each : args.updates = args.nodes → seen.watched = seen.listed

/-- What a simulation comes to that starts with a distributor. -/
structure Tallies (scheduler : Scheduler) (start : Distributor) (args : SimulationArgs)
    (draw : Nat → String) (report : SimulationReport) : Prop where
  nodesIngested : report.nodesIngested = args.nodes
  totalHosts : report.totalHosts = args.nodes
  /-- There are no updates without nodes. -/
  updatesSent : report.updatesSent = if 0 < args.nodes then args.updates else 0
  /-- There is a record for each node, one for the status when anything happened, and one for all
  assignments when there is one. -/
  persistedRecords : report.persistedRecords = args.nodes +
    (if 0 < args.nodes ∨ 0 < args.clients then 1 else 0) + if 0 < args.clients then 1 else 0
  /-- Clients are reported in the order in which they were registered. -/
  clients : report.clients.map (·.client) = (List.range args.clients).map draw
  client : ∀ (i : Nat) (seen : ClientReport), report.clients[i]? = some seen →
    ∃ earlier before registered listing floors,
      enlistAll scheduler args.hosts draw i 0 (stocked scheduler start args) =
        .ok (earlier, before) ∧
      before.register 0 seen.client args.hosts = .ok registered ∧
      (settle scheduler registered).list seen.client = .ok (listing, floors) ∧
      TalliesClient args (created start args) registered listing seen
  /-- No node is listed to two of them. -/
  sum_listed : (report.clients.map (·.listed)).sum ≤ args.nodes

section Course

/-- What comes in when nodes are created. -/
abbrev arrived (start : Distributor) (args : SimulationArgs) : List Update :=
  additions start.nodes.ring.topology.locations args.nodes

/-- What comes in when updates are sent. -/
abbrev changed (start : Distributor) (args : SimulationArgs) : List Update :=
  changes start.nodes.ring.topology.locations args.nodes args.updates

/-- A simulation starts with a new distributor. -/
theorem start_eq_ok (started : Simulation.start config args = .ok start) :
    Distributor.create config = .ok start ∧ fits args = true := by
  unfold Simulation.start at started
  split at started
  · cases started
  · split at started
    · cases started
    · next dist made =>
      split at started
      · next fit =>
        obtain rfl := Except.ok.inj started
        exact ⟨made, fit⟩
      · cases started

/-- There is a location in every topology. -/
theorem locations_ne_nil (topology : Topology) : topology.locations ≠ [] := by
  have positive : 0 < topology.size := Nat.mul_pos topology.regions_pos topology.partitions_pos
  obtain ⟨location, found⟩ := topology.exists_locationAt? positive
  rw [← topology.getElem?_locations] at found
  exact List.ne_nil_of_mem (List.mem_of_getElem? found)

/-- As many nodes are created as asked for. -/
theorem length_created (start : Distributor) (args : SimulationArgs) :
    (created start args).length = args.nodes := by
  rw [created, ← additions_node, List.length_map, length_additions _ _ (locations_ne_nil _)]

/-- No more updates are sent than asked for. -/
theorem length_changed_le (start : Distributor) (args : SimulationArgs) :
    (changed start args).length ≤ args.updates := by
  have turned := congrArg List.length (changes_key start.nodes.ring.topology.locations args.nodes
    args.updates (locations_ne_nil _))
  rw [List.length_map] at turned
  exact turned ▸ length_inTurn_le _ _

/-- Nodes come in batch by batch. -/
theorem stocked_run (fair : scheduler.Fair) (calm : Calm config [] start) :
    Chained Undisturbed start (arrived start args) (stocked scheduler start args) := by
  have run := takeInAll_run fair calm ((batches (created start args)).map
    fun batch => batch.map fun node => { type := .added, node })
  rwa [← List.map_flatten, flatten_batches, List.foldl_map] at run

/-- So do updates. -/
theorem finished_run (fair : scheduler.Fair) {updates : List Update} {watched : Distributor}
    (calm : Calm config updates watched) :
    Chained Undisturbed watched (changed start args) (finished scheduler start args watched) := by
  have run := takeInAll_run fair calm (batches (sent start args))
  rwa [flatten_batches] at run

variable {watchers : List Watcher} {watched : Distributor} (fair : scheduler.Fair)
  (started : Simulation.start config args = .ok start)
  (enlisted : enlistAll scheduler args.hosts draw args.clients 0 (stocked scheduler start args) =
    .ok (watchers, watched))
include fair started

theorem calm_stocked : Calm config (arrived start args) (stocked scheduler start args) := by
  have calm : Calm config [] start := ⟨start, (start_eq_ok started).1, .refl⟩
  exact calm.trans (stocked_run fair calm)

include enlisted

theorem calm_watched : Calm config (arrived start args) watched :=
  (calm_stocked fair started).quietly (enlistAll_run fair (calm_stocked fair started) enlisted)

/-- A simulation is an undisturbed run from beginning to end. -/
theorem calm_finished :
    Calm config (arrived start args ++ changed start args)
      (finished scheduler start args watched) :=
  (calm_watched fair started enlisted).trans
    (finished_run fair (calm_watched fair started enlisted))

/-- As many nodes are held as were created. -/
theorem length_stored_finished :
    (finished scheduler start args watched).nodes.stored.length = args.nodes := by
  have nonempty := locations_ne_nil start.nodes.ring.topology
  have calm := calm_finished fair started enlisted
  have ring := calm.ring_eq (start_eq_ok started).1
  have count := calm.length_stored
    (nodup_keys_additions start.nodes.ring.topology.locations args.nodes) (fun key => ?_) ?_
  · rw [count, List.length_map, length_additions _ _ nonempty]
  · constructor
    · intro listed
      obtain ⟨update, member, rfl⟩ := List.mem_map.mp listed
      exact ⟨update, List.mem_append_left _ member, rfl⟩
    · rintro ⟨update, member, rfl⟩
      rcases List.mem_append.mp member with added | sent
      · exact List.mem_map.mpr ⟨update, added, rfl⟩
      · exact key_mem_of_changes _ _ _ nonempty update sent
  · intro key listed
    obtain ⟨update, member, rfl⟩ := List.mem_map.mp listed
    rw [ring]
    exact additions_location _ _ update member

/-- Each client was enlisted when the nodes had come in, and before updates did. -/
theorem exists_enlists {i : Nat} {watcher : Watcher} (found : watchers[i]? = some watcher) :
    watcher.client = draw i ∧ ∃ earlier before registered held opened capacity,
      enlistAll scheduler args.hosts draw i 0 (stocked scheduler start args) =
        .ok (earlier, before) ∧
      Enlists scheduler config before args.hosts watcher registered held opened capacity ∧
      Calm config (arrived start args) registered ∧
      Chained Undisturbed opened (changed start args)
        (finished scheduler start args watched) := by
  have calm := calm_stocked fair started
  obtain ⟨earlier, before, after, later, prior, here, further⟩ :=
    (enlistAll_split enlisted).2 i watcher found
  rw [Nat.zero_add] at here
  have calmBefore := calm.quietly (enlistAll_run fair calm prior)
  obtain ⟨name, registered, held, opened, capacity, enlists, settled⟩ :=
    enlist_spec fair calmBefore here
  have registers : Chained Undisturbed before [] registered := .single (.register enlists.accepted)
  have calmAfter := calmBefore.quietly (enlist_run fair calmBefore here)
  have rest := settled.trans (enlistAll_run fair calmAfter further)
  exact ⟨name, earlier, before, registered, held, opened, capacity, prior, enlists,
    calmBefore.quietly registers,
    rest.trans (finished_run fair (calm_watched fair started enlisted))⟩

/-- Clients are known exactly when some were enlisted. -/
theorem isEmpty_clients_finished :
    (finished scheduler start args watched).clients.isEmpty = decide (args.clients = 0) := by
  by_cases nobody : args.clients = 0
  · rw [nobody] at enlisted
    obtain ⟨-, rfl⟩ := Prod.mk.inj (Except.ok.inj enlisted)
    have last : (finished scheduler start args (stocked scheduler start args)).clients =
        (stocked scheduler start args).clients := clients_takeInAll _ _ _
    have first : (stocked scheduler start args).clients = start.clients := by
      have taken := clients_takeInAll scheduler ((batches (created start args)).map
        fun batch => batch.map fun node => { type := .added, node }) start
      rwa [List.foldl_map] at taken
    obtain ⟨-, topology, -, rfl⟩ := create_eq_ok (start_eq_ok started).1
    simp [last, first, nobody]
  · have length := (enlistAll_split enlisted).1
    obtain ⟨watcher, found⟩ : ∃ watcher, watchers[0]? = some watcher :=
      ⟨_, List.getElem?_eq_getElem (by omega)⟩
    obtain ⟨-, earlier, before, registered, held, opened, capacity, -, enlists, -, run⟩ :=
      exists_enlists fair started enlisted found
    have known := client?_of_run (enlists.begun.trans run) enlists.known
    have inhabited : (finished scheduler start args watched).clients ≠ [] := by
      intro empty
      rw [client?, empty] at known
      cases known
    simp [inhabited, nobody]

omit fair started in
/-- A simulation without nodes and clients ends as it started. -/
theorem finished_eq_start (nodes : args.nodes = 0) (clients : args.clients = 0) :
    finished scheduler start args watched = start := by
  have nothing : created start args = [] := by
    rw [created, nodes]
    rfl
  have silent : sent start args = [] := by
    refine List.length_eq_zero_iff.mp ?_
    rw [sent, created, nodes, length_updateEvents _ _ _ (locations_ne_nil _)]
    rfl
  rw [clients] at enlisted
  obtain ⟨-, rfl⟩ := Prod.mk.inj (Except.ok.inj enlisted)
  rw [finished, silent, stocked, nothing]
  rfl

/-- There are the records that are to be expected. -/
theorem size_records_finished :
    (finished scheduler start args watched).backend.records.size = args.nodes +
      (if 0 < args.nodes ∨ 0 < args.clients then 1 else 0) +
        if 0 < args.clients then 1 else 0 := by
  have calm := calm_finished fair started enlisted
  obtain ⟨deeds, accounts, persisted⟩ := calm.accounts
  have stored := length_stored_finished fair started enlisted
  have clients := isEmpty_clients_finished fair started enlisted
  by_cases happens : 0 < args.nodes ∨ 0 < args.clients
  · have wrote : deeds ≠ [] := by
      refine accounts.deeds_ne_nil calm.sound (happens.imp (fun nodes => ?_) fun enlists => ?_)
      · exact List.ne_nil_of_length_pos (by omega)
      · rw [← List.isEmpty_eq_false_iff, clients]
        simpa using Nat.ne_of_gt enlists
    rw [accounts.size_records calm.sound persisted, stored, clients, if_pos happens]
    simp [wrote, Nat.pos_iff_ne_zero]
  · have nothing : args.nodes = 0 ∧ args.clients = 0 := by omega
    rw [finished_eq_start enlisted nothing.1 nothing.2]
    obtain ⟨-, topology, -, rfl⟩ := create_eq_ok (start_eq_ok started).1
    simp [nothing]
    rfl

end Course

section Client

variable {before registered opened final : Distributor} {watcher : Watcher} {held : Client}
  {capacity : Nat} (calm : Calm config (arrived start args) registered)
include calm

/-- Nodes that were created reach the client that they are assigned to. -/
theorem reaches_of_created (known : registered.client? watcher.client = some held) :
    ∀ update ∈ arrived start args, registered.nodes.reaches held.stores update =
      decide (registered.clientOf? update.node = some watcher.client) := by
  intro update member
  obtain ⟨trace, reached, -⟩ := calm.reachable
  exact reached.reaches_eq known (resolved_of_received 0 _ update member)

/-- The client is listed these nodes. -/
theorem listing_perm_created (known : registered.client? watcher.client = some held) :
    (registered.listing held).Perm ((created start args).filter fun node =>
      registered.clientOf? node = some watcher.client) := by
  refine (calm.listing_perm known (nodup_additions _ _)).trans (.of_eq ?_)
  rw [created, ← additions_node, List.filter_map]
  exact congrArg _ (List.filter_congr (reaches_of_created calm known))

/-- A client receives the updates that are routed to its stores, if they fit into its window. -/
theorem watched_eq_countP (fair : scheduler.Fair)
    (enlists : Enlists scheduler config before args.hosts watcher registered held opened capacity)
    (run : Chained Undisturbed opened (changed start args) final)
    (fit : fits args = true) (within : args.updates ≤ config.windowLength.toNat) :
    (Simulation.report scheduler final.queues watcher).watched =
      (changed start args).countP (registered.nodes.reaches held.stores) := by
  have calmOpened := calm.quietly enlists.begun
  have known := client?_of_run enlists.begun enlists.known
  have few := length_changed_le start args
  have left : args.nodes + args.updates < UInt64.size := by
    have window := enlists.window
    simp only [fits, Limit.listFits, Bool.and_eq_true, decide_eq_true_eq] at fit
    simp only [Limit.bytes, Limit.entries] at fit window
    simp only [UInt64.size]
    omega
  have newer : Orderly (arrived start args ++ changed start args) :=
    orderly _ _ _ (locations_ne_nil _) left
  have fewer := List.length_filter_le (opened.nodes.reaches held.stores) (changed start args)
  obtain ⟨queue, here, carries⟩ := calmOpened.carries known enlists.carries run newer (by omega)
  obtain ⟨shown, steps, -, -⟩ := exists_steps enlists.begun
  have plan := plan_of_moves steps.moves
  obtain ⟨trace, reached, -⟩ := (calmOpened.trans run).reachable
  obtain ⟨stream, standing, -⟩ := id carries
  have received :=
    carries.length_of_drains enlists.room (fair.receives reached here standing enlists.room)
  rw [Nat.zero_add, NodeStore.reaches_eq plan.1 plan.2, ← List.countP_eq_length_filter] at received
  simpa only [Simulation.report, enlists.queue, here] using received

/-- These are the updates of the nodes that it is listed. -/
theorem countP_reaches (known : registered.client? watcher.client = some held) :
    (changed start args).countP (registered.nodes.reaches held.stores) =
      (List.range args.updates).countP fun i =>
        ((created start args)[i % args.nodes]?).any (· ∈ registered.listing held) := by
  refine (countP_changes start.nodes.ring.topology.locations args.nodes args.updates
    (locations_ne_nil _) fun key =>
      (registered.nodes.route? key.1 key.2).any (· ∈ held.stores)).trans ?_
  refine List.countP_congr fun i _ => ?_
  rw [created, ← additions_node, List.getElem?_map, List.getElem?_map]
  cases found : (arrived start args)[i % args.nodes]? with
  | none => rfl
  | some update =>
    have arrives := List.mem_of_getElem? found
    have assigned := reaches_of_created calm known update arrives
    have present : update.node ∈ created start args := by
      rw [created, ← additions_node]
      exact List.mem_map.mpr ⟨update, arrives, rfl⟩
    have listed := (listing_perm_created calm known).mem_iff (a := update.node)
    rw [List.mem_filter] at listed
    have reaches : registered.nodes.reaches held.stores update = true ↔
        update.node ∈ registered.listing held := by
      rw [assigned, listed, and_iff_right present]
    rw [Option.map_some, Option.map_some, Option.any_some, Option.any_some, decide_eq_true_iff]
    exact reaches

/-- What a client is said to have seen is what it was to see. -/
theorem talliesClient (fair : scheduler.Fair)
    (enlists : Enlists scheduler config before args.hosts watcher registered held opened capacity)
    (run : Chained Undisturbed opened (changed start args) final)
    (fit : fits args = true) (within : args.updates ≤ config.windowLength.toNat) :
    TalliesClient args (created start args) registered (registered.listing held)
      (Simulation.report scheduler final.queues watcher) := by
  have assigned := listing_perm_created calm enlists.known
  have watched := (watched_eq_countP calm fair enlists run fit within).trans
    (countP_reaches calm enlists.known)
  refine ⟨assigned, enlists.count, enlists.enough, watched, fun same => ?_⟩
  have turns := countP_inTurn (created start args) (created start args).length
    (· ∈ registered.listing held)
  rw [inTurn_length, length_created] at turns
  have mine : ∀ node ∈ created start args, decide (node ∈ registered.listing held) = true ↔
      decide (registered.clientOf? node = some watcher.client) = true := by
    intro node present
    rw [decide_eq_true_iff, assigned.mem_iff, List.mem_filter, and_iff_right present]
  calc (Simulation.report scheduler final.queues watcher).watched
      = (created start args).countP (· ∈ registered.listing held) := by rw [watched, same, turns]
    _ = ((created start args).filter fun node =>
          registered.clientOf? node = some watcher.client).length := by
        rw [List.countP_congr mine, List.countP_eq_length_filter]
    _ = watcher.listed := by rw [← assigned.length_eq, enlists.count]

end Client

/-- Where each item is of one name at most, no more items are of some different names than there
are. -/
theorem sum_countP_le {α : Type} (owner : α → Option String) {names : List String}
    (distinct : names.Nodup) (items : List α) :
    (names.map fun name => items.countP fun item => owner item = some name).sum ≤ items.length := by
  induction names generalizing items with
  | nil => exact Nat.zero_le _
  | cons name rest ih =>
    obtain ⟨other, distinct⟩ := List.nodup_cons.mp distinct
    have others := ih distinct (items.filter fun item => ¬ owner item = some name)
    have split := List.length_eq_countP_add_countP (fun item => decide (owner item = some name))
      (l := items)
    have same : (rest.map fun other => (items.filter fun item =>
        ¬ owner item = some name).countP fun item => owner item = some other) =
          rest.map fun other => items.countP fun item => owner item = some other := by
      refine List.map_congr_left fun next member => ?_
      rw [List.countP_filter]
      refine List.countP_congr fun item _ => ?_
      have apart : next ≠ name := fun equal => other (equal ▸ member)
      simp only [Bool.and_eq_true, decide_eq_true_eq]
      exact and_iff_left_of_imp fun owns also => apart (Option.some.inj (owns.symm.trans also))
    rw [same, ← List.countP_eq_length_filter] at others
    rw [List.map_cons, List.sum_cons, split]
    simpa using others

section Clients

variable {watchers : List Watcher} {watched : Distributor} (fair : scheduler.Fair)
  (started : Simulation.start config args = .ok start)
  (enlisted : enlistAll scheduler args.hosts draw args.clients 0 (stocked scheduler start args) =
    .ok (watchers, watched))
include fair started enlisted

/-- Clients are enlisted under the ids that were drawn for them. -/
theorem clients_watchers : watchers.map (·.client) = (List.range args.clients).map draw := by
  have length := (enlistAll_split enlisted).1
  refine List.ext_getElem? fun i => ?_
  rw [List.getElem?_map, List.getElem?_map]
  cases found : watchers[i]? with
  | none =>
    have outside := List.getElem?_eq_none_iff.mp found
    rw [List.getElem?_eq_none (by rw [List.length_range]; omega)]
    rfl
  | some watcher =>
    have within := (List.getElem?_eq_some_iff.mp found).1
    rw [List.getElem?_range (by omega), Option.map_some, Option.map_some,
      (exists_enlists fair started enlisted found).1]

/-- A client is listed no more nodes than are assigned to it when all is done. -/
theorem listed_le {watcher : Watcher} (member : watcher ∈ watchers) :
    watcher.listed ≤ (created start args).countP fun node =>
      (finished scheduler start args watched).clientOf? node = some watcher.client := by
  obtain ⟨i, found⟩ := List.mem_iff_getElem?.mp member
  obtain ⟨-, earlier, before, registered, held, opened, capacity, -, enlists, calm, run⟩ :=
    exists_enlists fair started enlisted found
  obtain ⟨shown, steps, -, -⟩ := exists_steps (enlists.begun.trans run)
  rw [enlists.count, (listing_perm_created calm enlists.known).length_eq,
    ← List.countP_eq_length_filter]
  refine List.countP_mono_left fun node _ assigned => ?_
  rw [decide_eq_true_iff] at assigned ⊢
  exact clientOf?_of_moves steps.moves assigned

/-- No node is listed to two of them. -/
theorem sum_listed_le : (watchers.map (·.listed)).sum ≤ args.nodes := by
  have distinct := (nodup_enlistAll fair (calm_stocked fair started) enlisted).2
  have bound :=
    sum_countP_le (finished scheduler start args watched).clientOf? distinct (created start args)
  rw [List.map_map, length_created] at bound
  exact Nat.le_trans (List.sum_le_sum fun _ member => listed_le fair started enlisted member) bound

end Clients

/-- A simulation that sends no more updates than fit into the window of a client reports what it is
to report, however forwarders take their turns. -/
theorem tallies_of_run (fair : scheduler.Fair)
    (ran : runUnder scheduler config args draw = .ok report)
    (within : args.updates ≤ config.windowLength.toNat) :
    ∃ start, Simulation.start config args = .ok start ∧
      Tallies scheduler start args draw report := by
  obtain ⟨start, watchers, watched, started, enlisted, rfl⟩ := runUnder_eq_ok ran
  obtain ⟨trace, reached, -⟩ := (calm_finished fair started enlisted).reachable
  refine ⟨start, started, {
    nodesIngested := length_created start args
    totalHosts := reached.totalHosts_eq.trans (length_stored_finished fair started enlisted)
    updatesSent := length_updateEvents _ _ _ (locations_ne_nil _)
    persistedRecords := size_records_finished fair started enlisted
    clients := ?_
    client := fun i seen found => ?_
    sum_listed := ?_ }⟩
  · rw [List.map_map]
    exact clients_watchers fair started enlisted
  · rw [List.getElem?_map] at found
    obtain ⟨watcher, here, rfl⟩ := Option.map_eq_some_iff.mp found
    obtain ⟨-, earlier, before, registered, held, opened, capacity, prior, enlists, calm, run⟩ :=
      exists_enlists fair started enlisted here
    exact ⟨earlier, before, registered, _, _, prior, enlists.accepted, enlists.listed,
      talliesClient calm fair enlists run (start_eq_ok started).2 within⟩
  · rw [List.map_map]
    exact sum_listed_le fair started enlisted

/-- A small simulation: two clients share three nodes, two of which are updated. -/
def smallArgs : SimulationArgs where
  nodes := 3
  clients := 2
  hosts := 1
  updates := 2

/-- What comes of it. -/
def smallReport : SimulationReport where
  nodesIngested := 3
  totalHosts := 3
  updatesSent := 2
  persistedRecords := 5
  clients := [⟨"d", 2, 1⟩, ⟨"e", 1, 1⟩]

/-- The first client holds two nodes, but the second one of them is not updated. -/
theorem tallies_of_run_small :
    run smallFleet smallArgs (fun i => if i = 0 then "d" else "e") = .ok smallReport ∧
      smallArgs.updates ≤ smallFleet.windowLength.toNat ∧
      ∃ start, Simulation.start smallFleet smallArgs = .ok start ∧
        Tallies .eager start smallArgs (fun i => if i = 0 then "d" else "e") smallReport := by
  have ran : run smallFleet smallArgs (fun i => if i = 0 then "d" else "e") = .ok smallReport := by
    decide +kernel
  exact ⟨ran, by decide, tallies_of_run Scheduler.eager_fair ran (by decide)⟩

end Simulation

end FleetRing
