import FleetRing.Distributor

/-!
# Sessions

A session keeps client queues and watches of them under names. Behind them stand
nothing, a node store, or a distributor with its node store. Whoever starts a
watch holds two ends of it, a stop handle and a receiving end; a name that is
given away again lets go of what it stood for.
-/

namespace FleetRing

/-- What stands behind the queues of a session. -/
inductive Backing where
  | nothing (queues : QueueTable)
  /-- A node store, with records that nothing but the session writes. -/
  | store (nodes : NodeStore) (queues : QueueTable) (records : RecordStore)
  | distributor (dist : Distributor)

/-- Where a named watch is found, and which of its ends are still held. -/
structure WatchHandle where
  queue : Nat
  watch : Nat
  holdsStop : Bool := true
  holdsReceiver : Bool := true
  deriving DecidableEq, Repr

/-- Why a session cannot do what it is asked for. -/
inductive SessionError where
  | unknownQueue
  | unknownWatch
  /-- The stop handle was fired or dropped before. -/
  | stopSpent
  | noStore
  | noDistributor
  /-- Something does not fit into the machine. -/
  | tooLarge
  | failed (error : Error)
  | refused (refusal : Refusal)
  deriving DecidableEq, Repr

/-- Named queues and watches, and what stands behind them. -/
structure Session where
  backing : Backing
  queueNames : List (String × Nat) := []
  watchNames : List (String × WatchHandle) := []
  /-- The versions that were listed last. -/
  listed : VersionMap := .empty

namespace Session

/-- A session with nothing behind it. -/
def empty : Session :=
  { backing := .nothing {} }

/-- A session with an empty node store behind it. -/
def ofCounts (perLocation regions partitions : Nat) : Except SessionError Session :=
  if NodeStore.fits perLocation regions partitions then
    match NodeStore.create perLocation regions partitions with
    | .ok nodes => .ok { backing := .store nodes {} {} }
    | .error error => .error (.failed error)
  else .error .tooLarge

/-- A session with a distributor behind it that has neither nodes nor clients. -/
def ofConfig (config : Config) : Except SessionError Session :=
  if Distributor.fits config then
    match Distributor.create config with
    | .ok dist => .ok { backing := .distributor dist }
    | .error refusal => .error (.refused refusal)
  else .error .tooLarge

/-- The queues of a session, by number. -/
def queues (session : Session) : QueueTable :=
  match session.backing with
  | .nothing queues => queues
  | .store _ queues _ => queues
  | .distributor dist => dist.queues

/-- Change the queues. -/
def mapQueues (session : Session) (change : QueueTable → QueueTable) : Session :=
  match session with
  | ⟨.nothing queues, names, watches, listed⟩ =>
    ⟨.nothing (change queues), names, watches, listed⟩
  | ⟨.store nodes queues records, names, watches, listed⟩ =>
    ⟨.store nodes (change queues) records, names, watches, listed⟩
  | ⟨.distributor dist, names, watches, listed⟩ =>
    ⟨.distributor { dist with queues := change dist.queues }, names, watches, listed⟩

/-- Change the queue with a number. -/
def mapQueue (session : Session) (number : Nat) (change : ClientQueue → ClientQueue) : Session :=
  session.mapQueues (·.modify number change)

/-- Let every forwarder run until it has to wait. -/
def settle (session : Session) (now : Time) : Session :=
  session.mapQueues (·.settle now)

/-- Every forwarder vanishes where it stands. -/
def abort (session : Session) : Session :=
  session.mapQueues (·.abort)

/-- The node store, also that of a distributor. -/
def nodes (session : Session) : Except SessionError NodeStore :=
  match session.backing with
  | .nothing _ => .error .noStore
  | .store nodes _ _ => .ok nodes
  | .distributor dist => .ok dist.nodes

/-- The distributor. -/
def distributor (session : Session) : Except SessionError Distributor :=
  match session.backing with
  | .distributor dist => .ok dist
  | .nothing _ | .store _ _ _ => .error .noDistributor

/-- Put the distributor back after a change. -/
def withDistributor (session : Session) (dist : Distributor) : Session :=
  { session with backing := .distributor dist }

/-- Put a virtual store back after a change. -/
def withStore (session : Session) (index : Nat) (store : VirtualStore) : Session :=
  let put (nodes : NodeStore) : NodeStore :=
    { nodes with stores := nodes.stores.setIfInBounds index store }
  match session.backing with
  | .nothing _ => session
  | .store nodes queues records => { session with backing := .store (put nodes) queues records }
  | .distributor dist => session.withDistributor { dist with nodes := put dist.nodes }

/-- The records that are kept, those of the distributor if there is one. -/
def records (session : Session) : Except SessionError RecordStore :=
  match session.backing with
  | .nothing _ => .error .noStore
  | .store _ _ records => .ok records
  | .distributor dist => .ok dist.backend.records

/-- Put the records back after a change. -/
def withRecords (session : Session) (records : RecordStore) : Session :=
  match session.backing with
  | .nothing _ => session
  | .store nodes queues _ => { session with backing := .store nodes queues records }
  | .distributor dist =>
    session.withDistributor { dist with backend := { dist.backend with records } }

/-- The number of the queue with a name. -/
def queueNumber (session : Session) (name : String) : Except SessionError Nat :=
  match session.queueNames.lookup name with
  | some number => .ok number
  | none => .error .unknownQueue

/-- The queue with a name. -/
def queue (session : Session) (name : String) : Except SessionError ClientQueue :=
  match session.queueNames.lookup name with
  | some number =>
    match session.queues.get? number with
    | some queue => .ok queue
    | none => .error .unknownQueue
  | none => .error .unknownQueue

/-- Let go of the queue with a name, and say whether there was one. -/
def dropQueue (session : Session) (name : String) : Bool × Session :=
  match session.queueNames.lookup name with
  | none => (false, session)
  | some number =>
    let session := session.mapQueue number (·.disown)
    (true, { session with queueNames := session.queueNames.filter (·.1 != name) })

/-- Open a queue under a name. -/
def openQueue (session : Session) (name client : String) (windowLength : Nat) : Session :=
  let (_, session) := session.dropQueue name
  let number := session.queues.queues.size
  let session := session.mapQueues fun queues => (queues.add { client, windowLength }).2
  { session with queueNames := (name, number) :: session.queueNames }

/-- Push updates to the queue with a name. -/
def pushAll (session : Session) (name : String) (updates : List Update) :
    Except SessionError Session :=
  (session.queueNumber name).map fun number =>
    session.mapQueue number fun queue => updates.foldl ClientQueue.push queue

/-- Assign a virtual store to a client and the queue with a name, and say whether that was
possible; nothing is said about an index that is none of a store. -/
def assign (session : Session) (index : Nat) (client name : String) :
    Except SessionError (Option Bool × Session) := do
  let nodes ← session.nodes
  match nodes.stores[index]? with
  | none => return (none, session)
  | some store =>
    match store.assign? client (← session.queueNumber name) with
    | some store => return (some true, session.withStore index store)
    | none => return (some false, session)

/-- The handle of the watch with a name. -/
def handle (session : Session) (name : String) : Except SessionError WatchHandle :=
  match session.watchNames.lookup name with
  | some handle => .ok handle
  | none => .error .unknownWatch

/-- Let go of what is still held of the watch with a name. -/
def release (session : Session) (name : String) : Session :=
  match session.watchNames.lookup name with
  | none => session
  | some ⟨queue, watch, holdsStop, holdsReceiver⟩ =>
    let session :=
      if holdsStop then session.mapQueue queue (·.signal watch .dropped) else session
    if holdsReceiver then session.mapQueue queue (·.dropReceiver watch) else session

/-- Put a handle under a name. -/
def setHandle (session : Session) (name : String) (handle : WatchHandle) : Session :=
  { session with
    watchNames := (name, handle) :: session.watchNames.filter (·.1 != name) }

/-- Put a watch that was started under a name, if its queues can be made. -/
def nameWatch (session : Session) (name : String) (handle : WatchHandle) :
    Except SessionError Session :=
  if session.queues.watchFits handle.queue handle.watch then
    .ok ((session.release name).setHandle name handle)
  else .error .tooLarge

/-- Start a watch of a queue under a name. -/
def watchQueue (session : Session) (name queueName : String) (floors : VersionMap)
    (outputCapacity : Nat) : Except SessionError Session := do
  if !Limit.queueFits outputCapacity then throw .tooLarge
  let number ← session.queueNumber queueName
  let queue ← session.queue queueName
  match queue.watch floors outputCapacity with
  | .error error => throw (.failed error)
  | .ok (watch, queue) =>
    (session.mapQueue number fun _ => queue).nameWatch name { queue := number, watch }

/-- Start a watch of a client of the distributor under a name. -/
def watchClient (session : Session) (name client : String) (floors : VersionMap)
    (outputCapacity : Nat) : Except SessionError Session := do
  if !Limit.queueFits outputCapacity then throw .tooLarge
  let dist ← session.distributor
  match dist.watch client floors outputCapacity with
  | .error refusal => throw (.refused refusal)
  | .ok (queue, watch, dist) =>
    (session.withDistributor dist).nameWatch name { queue, watch }

/-- Receive events of the watch with a name, at most `limit` of them if that is given. A
watch whose receiving end was let go is unknown. -/
def receive (session : Session) (name : String) (limit : Option Nat) (now : Time) :
    Except SessionError (List NodeEvent × Supply × Session) := do
  let handle ← session.handle name
  match session.queues.get? handle.queue, handle.holdsReceiver with
  | some queue, true =>
    let (events, supply, queue) :=
      match limit with
      | some limit => queue.receiveAtMost now handle.watch limit []
      | none => queue.receiveAll now handle.watch
    return (events, supply, session.mapQueue handle.queue fun _ => queue)
  | _, _ => throw .unknownWatch

/-- Fire or drop the stop handle of the watch with a name, and say whether it was fired
while the forwarder was there. -/
def stop (session : Session) (name : String) (signal : StopSignal) :
    Except SessionError (Bool × Session) := do
  let handle ← session.handle name
  if handle.holdsStop then
    let served :=
      match session.queues.get? handle.queue with
      | some queue => queue.isServed handle.watch
      | none => false
    let session := session.mapQueue handle.queue (·.signal handle.watch signal)
    return (signal == .fired && served, session.setHandle name { handle with holdsStop := false })
  else throw .stopSpent

/-- Let go of the receiving end of the watch with a name, and say whether it was still held. -/
def dropReceiver (session : Session) (name : String) : Except SessionError (Bool × Session) := do
  let handle ← session.handle name
  let session := session.mapQueue handle.queue (·.dropReceiver handle.watch)
  return (handle.holdsReceiver, session.setHandle name { handle with holdsReceiver := false })

end Session

end FleetRing
