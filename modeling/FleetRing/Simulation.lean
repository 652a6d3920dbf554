import FleetRing.Distributor

/-!
# Simulation

A simulation takes in fresh nodes spread over all locations, registers clients
that list their nodes and start a watch, sends updates of the nodes in turn, and
reports how many of them each client received. Versions count the changes of
each location from one on.

Forwarders take their turns meanwhile. A `Scheduler` says what they have done whenever
the simulation goes on, and what each client has received in the end.
-/

namespace FleetRing

/-- The extent of a simulation. -/
structure SimulationArgs where
  /-- Nodes to create. -/
  nodes : Nat := 10000
  /-- Clients to register. -/
  clients : Nat := 1
  /-- Hosts that each client asks for. -/
  hosts : Nat := 500
  /-- Updates to send while the clients watch. -/
  updates : Nat := 1000
  deriving DecidableEq, Repr, Inhabited

/-- What a client saw. -/
structure ClientReport where
  client : String
  listed : Nat
  watched : Nat
  deriving DecidableEq, Repr

/-- What a simulation came to. -/
structure SimulationReport where
  nodesIngested : Nat
  totalHosts : Nat
  updatesSent : Nat
  persistedRecords : Nat
  clients : List ClientReport
  deriving DecidableEq, Repr

/-- What a simulation was about when it failed. -/
inductive SimulationStage where
  | creating
  | registering
  | listing
  | watching
  deriving DecidableEq, Repr

/-- Why a simulation failed. -/
inductive SimulationError where
  | refused (stage : SimulationStage) (refusal : Refusal)
  /-- Something does not fit into the machine. -/
  | tooLarge
  deriving DecidableEq, Repr

/-- The wording of a failure: the stage, where that says something, and the refusal. -/
def SimulationError.message : SimulationError → String
  | refused .creating refusal => "creating distributor: " ++ refusal.message
  | refused .registering refusal => "registering client: " ++ refusal.message
  | refused .listing refusal | refused .watching refusal => refusal.message
  | tooLarge => "the simulation does not fit into the machine"

namespace Simulation

/-- How many events are taken in at once. -/
def batchSize : Nat := 1000

/-- Hand out the next version of each location in turn. -/
def number (seen : VersionMap) : List Location → List (Location × Version)
  | [] => []
  | location :: rest =>
    let version := (seen.get? location).getD 0 + 1
    (location, version) :: number (seen.put location version) rest

/-- The first `count` elements of a nonempty list that is repeated for ever. -/
def inTurn {α : Type} (items : Array α) (count : Nat) : List α :=
  (List.range count).filterMap fun i => items[i % items.size]?

/-- The nodes of a simulation, spread over the locations in turn. -/
def freshNodes (locations : List Location) (count : Nat) : List Node :=
  (number .empty (inTurn locations.toArray count)).zipIdx.map fun entry =>
    .fresh ("sim-node-" ++ toString entry.2) entry.1.2 entry.1.1

/-- A node with another version. -/
def withVersion (node : Node) (version : Version) : Node :=
  { node with versionText := toString version }

/-- The updates of a simulation: the nodes in turn, each with the next version. -/
def updateEvents (nodes : List Node) (locations : List Location) (count : Nat) :
    List NodeEvent :=
  let seen := VersionMap.ofList (number .empty (inTurn locations.toArray nodes.length))
  let turn := inTurn nodes.toArray count
  let numbered := number seen (turn.filterMap (·.location?))
  (turn.zip numbered).map fun entry =>
    { type := .modified, node := withVersion entry.1 entry.2.2 }

/-- Parts of at most `batchSize` elements, in order. -/
def batches {α : Type} (items : List α) : List (List α) :=
  (List.range ((items.length + batchSize - 1) / batchSize)).map fun i =>
    (items.drop (i * batchSize)).take batchSize

/-- How forwarders take their turns. What they do may depend on all that there is, and at no two
moments of a simulation that is the same. -/
structure Scheduler where
  /-- What they made of the queues by the time the simulation goes on. -/
  settle : Distributor → QueueTable
  /-- What a client received of a watch by the time nothing comes any more. -/
  receive : ClientQueue → Nat → List NodeEvent

/-- Every forwarder runs until it has to wait. -/
def Scheduler.eager : Scheduler where
  settle dist := dist.queues.settle 0
  receive queue watch := (queue.receiveAll 0 watch).1

section Stages

variable (scheduler : Scheduler)

/-- Let forwarders take their turns. -/
def settle (dist : Distributor) : Distributor :=
  { dist with queues := scheduler.settle dist }

/-- Take in a batch of events. -/
def takeIn (dist : Distributor) (events : List NodeEvent) : Distributor :=
  settle scheduler (dist.ingest 0 events).dist

/-- A client that watches: its id, what it listed, its queue and its watch. -/
structure Watcher where
  client : String
  listed : Nat
  queue : Nat
  watch : Nat

/-- Register a client, let it list its nodes and start its watch. -/
def enlist (dist : Distributor) (client : String) (hosts : Nat) :
    Except SimulationError (Watcher × Distributor) :=
  match dist.register 0 client hosts with
  | .error refusal => .error (.refused .registering refusal)
  | .ok dist =>
    let dist := settle scheduler dist
    match dist.list client with
    | .error refusal => .error (.refused .listing refusal)
    | .ok (nodes, versions) =>
      let capacity := dist.config.watchCapacity.toNat
      if !Limit.queueFits capacity then .error .tooLarge
      else
        match dist.watch client versions capacity with
        | .error refusal => .error (.refused .watching refusal)
        | .ok (queue, watch, dist) =>
          if dist.queues.watchFits queue watch then
            .ok (⟨client, nodes.length, queue, watch⟩, settle scheduler dist)
          else .error .tooLarge

/-- Enlist a number of clients one by one, under the ids drawn from the `first` one on. -/
def enlistAll (hosts : Nat) (draw : Nat → String) : Nat → Nat → Distributor →
    Except SimulationError (List Watcher × Distributor)
  | 0, _, dist => .ok ([], dist)
  | count + 1, first, dist =>
    match enlist scheduler dist (draw first) hosts with
    | .error error => .error error
    | .ok (watcher, dist) =>
      match enlistAll hosts draw count (first + 1) dist with
      | .error error => .error error
      | .ok (watchers, dist) => .ok (watcher :: watchers, dist)

/-- Count what a watcher receives. -/
def report (queues : QueueTable) (watcher : Watcher) : ClientReport :=
  let watched :=
    match queues.get? watcher.queue with
    | some queue => (scheduler.receive queue watcher.watch).length
    | none => 0
  ⟨watcher.client, watcher.listed, watched⟩

end Stages

/-- Do the nodes and the watchers of a simulation fit into lists? A node occupies 216 bytes
of its list, a watcher 48. -/
def fits (args : SimulationArgs) : Bool :=
  Limit.listFits args.nodes 216 && Limit.listFits args.clients 48

/-- A distributor to simulate with, if it and the nodes and watchers fit. -/
def start (config : Config) (args : SimulationArgs) : Except SimulationError Distributor :=
  if !Distributor.fits config then .error .tooLarge
  else
    match Distributor.create config with
    | .error refusal => .error (.refused .creating refusal)
    | .ok dist => if fits args then .ok dist else .error .tooLarge

/-- Run a simulation; `draw` gives the ids of the clients, counted from zero. -/
def runUnder (scheduler : Scheduler) (config : Config) (args : SimulationArgs)
    (draw : Nat → String) : Except SimulationError SimulationReport :=
  match start config args with
  | .error error => .error error
  | .ok dist =>
    let locations := dist.nodes.ring.topology.locations
    let nodes := freshNodes locations args.nodes
    let dist := (batches nodes).foldl (fun dist batch =>
      takeIn scheduler dist (batch.map fun node => { type := .added, node })) dist
    match enlistAll scheduler args.hosts draw args.clients 0 dist with
    | .error error => .error error
    | .ok (watchers, dist) =>
      let updates := updateEvents nodes locations args.updates
      let dist := (batches updates).foldl (takeIn scheduler) dist
      .ok {
        nodesIngested := nodes.length
        totalHosts := dist.nodes.totalHosts
        updatesSent := updates.length
        persistedRecords := dist.backend.records.size
        clients := watchers.map (report scheduler dist.queues) }

/-- Run a simulation in which forwarders run as far as they can. -/
def run (config : Config) (args : SimulationArgs) (draw : Nat → String) :
    Except SimulationError SimulationReport :=
  runUnder .eager config args draw

end Simulation

/-- The JSON of what a client saw. -/
def ClientReport.toJson (report : ClientReport) : Json :=
  .object [
    ("client_id", .string report.client),
    ("listed_nodes", .count report.listed),
    ("watched_events", .count report.watched)]

/-- The JSON of a report with its fields sorted by name, and how long it took if given. -/
def SimulationReport.toJson (report : SimulationReport) (elapsed : Option Nat) : Json :=
  .object (
    ("clients", .array (report.clients.map (·.toJson))) ::
    ((match elapsed with
      | some elapsed => [("elapsed_ms", .count elapsed)]
      | none => []) ++ [
    ("nodes_ingested", .count report.nodesIngested),
    ("persisted_records", .count report.persistedRecords),
    ("total_hosts", .count report.totalHosts),
    ("updates_sent", .count report.updatesSent)]))

end FleetRing
