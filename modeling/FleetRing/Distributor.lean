import FleetRing.Distributor.Error
import FleetRing.Persist.Backend

/-!
# The distributor

The distributor hands out the virtual stores of a node store to clients, lists
their nodes, serves their watches and takes in events. A registration is given
whole stores, cyclically from a place that depends on the client's id, until
they hold as many hosts as requested. What changes is persisted with bounded
retry; persistence never changes what is served.
-/

namespace FleetRing

/-- What the distributor holds for a registered client. -/
structure Client where
  /-- The number of its queue. -/
  queue : Nat
  /-- The numbers of its stores, in the order in which they were handed out. -/
  stores : List Nat
  deriving DecidableEq, Repr, Inhabited

/-- Figures reported so far; one that was never reported is missing. -/
structure Metrics where
  clientsRegistered : Option Nat := none
  eventsIngested : Option Nat := none
  eventsSkipped : Option Nat := none
  totalHosts : Option Nat := none
  /-- How many events had both receipts stamped. -/
  receiveLatencies : Option Nat := none
  deriving DecidableEq, Repr

/-- Add to a figure; the first report makes it appear. -/
def Metrics.add (figure : Option Nat) (amount : Nat) : Option Nat :=
  some (figure.getD 0 + amount)

/-- Figures after a batch: `sampled` receipts, `received` events, `skipped` of them. -/
def Metrics.ofBatch (metrics : Metrics) (sampled received skipped hosts : Nat) : Metrics where
  clientsRegistered := metrics.clientsRegistered
  eventsIngested := Metrics.add metrics.eventsIngested received
  eventsSkipped := Metrics.add metrics.eventsSkipped skipped
  totalHosts := some hosts
  receiveLatencies :=
    if sampled = 0 then metrics.receiveLatencies else Metrics.add metrics.receiveLatencies sampled

/-- The figures that were reported, under the names they are published by. -/
def Metrics.named (metrics : Metrics) : List (String × Nat) :=
  let figures := [
    ("clients_registered_total", metrics.clientsRegistered),
    ("events_ingested_total", metrics.eventsIngested),
    ("events_skipped_total", metrics.eventsSkipped),
    ("total_hosts", metrics.totalHosts),
    ("receive_latency_seconds", metrics.receiveLatencies)]
  figures.filterMap fun figure =>
    figure.2.map fun value => ("grs_distributor_" ++ figure.1, value)

/-- The node store, the clients and what stands behind them. -/
structure Distributor where
  config : Config
  nodes : NodeStore
  queues : QueueTable := {}
  /-- Registered clients, the latest one first. -/
  clients : List (String × Client) := []
  breaker : Breaker := {}
  backend : Backend := {}
  metrics : Metrics := {}

/-- The limits of persistence runs. -/
def Config.policy (config : Config) : PersistPolicy where
  retryLimit := config.retryLimit.toNat
  timeout := config.persistTimeout.toNat
  threshold := config.breakerThreshold.toNat
  cooldown := config.breakerCooldown.toNat

namespace Distributor

/-- A distributor without nodes and clients. -/
def create (config : Config) : Except Refusal Distributor :=
  match config.fault? with
  | some fault => .error (.config fault)
  | none =>
    match NodeStore.create config.virtualStores.toNat config.regions.toNat
        config.partitions.toNat with
    | .ok nodes => .ok { config, nodes }
    | .error error => .error (.core error)

/-- Do the virtual stores of a configuration fit into a list? One that is out of bounds
has none. -/
def fits (config : Config) : Bool :=
  config.fault?.isSome ||
    NodeStore.fits config.virtualStores.toNat config.regions.toNat config.partitions.toNat

/-- Run a persistence call, starting at a time. -/
def persist (dist : Distributor) (now : Time) (write : RecordStore → Bool × RecordStore) :
    PersistOutcome × Time × Distributor :=
  match dist with
  | ⟨config, nodes, queues, clients, breaker, backend, metrics⟩ =>
    let run := backend.run config.policy breaker now write
    (run.outcome, run.ended, ⟨config, nodes, queues, clients, run.breaker, run.backend, metrics⟩)

/-- Run a call that persists the status of the node store. -/
def persistStatus (dist : Distributor) (now : Time) : PersistOutcome × Time × Distributor :=
  let status := dist.nodes.status
  dist.persist now (RecordStore.persistStatusIn (dist.backend.arrange status) status)

/-- What is held for a client. -/
def client? (dist : Distributor) (client : String) : Option Client :=
  dist.clients.lookup client

/-- The stores of a client, in the order in which they were handed out. -/
def storesOf (dist : Distributor) (client : Client) : List VirtualStore :=
  client.stores.filterMap fun index => dist.nodes.stores[index]?

/-- The numbers of the stores to hand out: those without owner, in the given order, until
they hold as many hosts as requested. `held` hosts are held by earlier ones. -/
def select (stores : Array VirtualStore) (requested : Nat) : Nat → List Nat → List Nat
  | _, [] => []
  | held, index :: rest =>
    match stores[index]? with
    | none => select stores requested held rest
    | some store =>
      if store.isAssigned then select stores requested held rest
      else if requested ≤ held + store.hosts then [index]
      else index :: select stores requested (held + store.hosts) rest

/-- All numbers below `count`, cyclically from `offset` on. -/
def cycle (count offset : Nat) : List Nat :=
  (List.range count).map fun i => (offset + i) % count

/-- The place from which stores are handed out to a client. -/
def offsetOf (client : String) (count : Nat) : Nat :=
  (Token.ofId client).value.toNat % count

/-- Push one bookmark for each distinct location, in the order of first occurrence. -/
def seed (queue : ClientQueue) (locations : List Location) : ClientQueue :=
  locations.eraseDups.foldl (fun queue location => queue.push (.bookmark location)) queue

/-- Hand out one store to a client; its number is returned if that was possible. -/
def assignOne (client : String) (queue : Nat) (state : Array VirtualStore × List Nat)
    (index : Nat) : Array VirtualStore × List Nat :=
  match state with
  | (stores, assigned) =>
    match stores[index]? with
    | none => (stores, assigned)
    | some store =>
      match store.assign? client queue with
      | some store => (stores.setIfInBounds index store, index :: assigned)
      | none => (stores, assigned)

/-- Hand out stores to a client, and list those that could be handed out, in order. -/
def assignAll (client : String) (queue : Nat) (stores : Array VirtualStore)
    (indices : List Nat) : Array VirtualStore × List Nat :=
  let (stores, assigned) := indices.foldl (assignOne client queue) (stores, [])
  (stores, assigned.reverse)

/-- Why a registration is refused, if it is. -/
def refusal? (dist : Distributor) (client : String) (requested : Nat) : Option Refusal :=
  let minimum := dist.config.minimalRequest.toNat
  if requested ≤ minimum then some (.notAboveMinimum requested minimum)
  else if dist.nodes.totalHosts < requested then
    some (.aboveTotal requested dist.nodes.totalHosts)
  else if !dist.nodes.hasFree requested then some (.aboveFree requested)
  else if (dist.client? client).isSome then some (.clientExists client)
  else none

/-- Hand out stores to a new client, and give it a queue with a bookmark for each of
their locations. -/
def allocate (dist : Distributor) (client : String) (requested : Nat) :
    Assignment × Distributor :=
  match dist with
  | ⟨config, nodes, queues, clients, breaker, backend, metrics⟩ =>
    let count := nodes.stores.size
    let selected := select nodes.stores requested 0 (cycle count (offsetOf client count))
    let locations := selected.filterMap fun index => (nodes.stores[index]?).map (·.location)
    let queue := seed { client, windowLength := config.windowLength.toNat } locations
    let (number, queues) := queues.add queue
    let (stores, assigned) := assignAll client number nodes.stores selected
    let listed := assigned.filterMap fun index => (stores[index]?).map (·.assigned)
    (⟨client, listed⟩,
      ⟨config, { nodes with stores := stores }, queues,
        (client, ⟨number, assigned⟩) :: clients, breaker, backend, metrics⟩)

/-- Register a client under an id that was drawn for it. -/
def register (dist : Distributor) (now : Time) (client : String) (requested : Nat) :
    Except Refusal Distributor :=
  match dist.refusal? client requested with
  | some refusal => .error refusal
  | none =>
    let (assignment, dist) := dist.allocate client requested
    let dist := { dist with
      metrics := { dist.metrics with
        clientsRegistered := Metrics.add dist.metrics.clientsRegistered 1 } }
    let (_, now, dist) := dist.persist now (RecordStore.persistAssignment assignment)
    let (_, _, dist) := dist.persistStatus now
    .ok dist

/-- The nodes of a client, and the versions to start a watch from. -/
def list (dist : Distributor) (client : String) :
    Except Refusal (List Node × VersionMap) :=
  match dist.client? client with
  | none => .error (.clientNotFound client)
  | some held =>
    let stores := dist.storesOf held
    .ok (stores.flatMap (·.nodes),
      stores.foldl (fun versions store => versions.merge store.versions) .empty)

/-- Start a watch of a client that replays what is newer than the floors, in their order; the
number of its queue and the id of the watch say which one it is. -/
def watchFrom (dist : Distributor) (client : String) (floors : List (Location × Version))
    (outputCapacity : Nat) : Except Refusal (Nat × Nat × Distributor) :=
  match dist.client? client with
  | none => .error (.clientNotFound client)
  | some held =>
    if floors.isEmpty then .error .noVersions
    else
      match dist.queues.get? held.queue with
      | none => .error (.clientNotFound client)
      | some queue =>
        match queue.watchFrom floors outputCapacity with
        | .error error => .error (.core error)
        | .ok (id, queue) =>
          .ok (held.queue, id,
            { dist with queues := dist.queues.modify held.queue fun _ => queue })

/-- Start a watch of a client from the floors of a version map. -/
def watch (dist : Distributor) (client : String) (floors : VersionMap) (outputCapacity : Nat) :
    Except Refusal (Nat × Nat × Distributor) :=
  dist.watchFrom client floors.toList outputCapacity

/-- The events of a batch after their receipt was stamped. -/
def receive (now : Time) (events : List NodeEvent) : List NodeEvent :=
  events.map (·.stamp .distributorReceived now)

/-- How many events have both receipts stamped. -/
def latencies (events : List NodeEvent) : Nat :=
  events.countP fun event =>
    (event.stamps.elapsed? .aggregatorReceived .distributorReceived).isSome

/-- The update that an event brings in, if it is of a supported type, at a known location
and with a proper version. -/
def accept? (event : NodeEvent) : Option Update :=
  if event.type.carriesState then (Update.ofEvent event).toOption else none

/-- What a batch of events came to. -/
structure Ingestion where
  /-- False only when a persistence call crashed. -/
  sound : Bool
  versions : VersionMap
  dist : Distributor

/-- Take in a batch of events, and persist the nodes that changed and the status. -/
def ingest (dist : Distributor) (now : Time) (events : List NodeEvent) : Ingestion :=
  match dist with
  | ⟨config, nodes, queues, clients, breaker, backend, metrics⟩ =>
    let events := receive now events
    let updates := events.filterMap accept?
    let batch := nodes.process queues updates
    let skipped := events.length - updates.length + batch.stats.unroutable
    let metrics := Metrics.ofBatch metrics (latencies events) events.length skipped
      batch.store.totalHosts
    let dist : Distributor :=
      ⟨config, batch.store, batch.queues, clients, breaker, backend, metrics⟩
    let (first, now, dist) := dist.persist now
      (RecordStore.persistNodes batch.stats.touched.toList)
    let (second, _, dist) := dist.persistStatus now
    ⟨first != .crashed && second != .crashed, batch.store.versions, dist⟩

end Distributor

end FleetRing
