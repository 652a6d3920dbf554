import FleetRing.Watch.Stream
import FleetRing.Window

/-!
# Client queues

A client queue retains the last updates of each location that its client is
concerned with, and feeds at most one watch. An update is retained first and
then offered to the mailbox of the installed watch; when it does not fit, the
watch is cut off, drains what it has, and ends. Nothing that is retained or
streamed depends on anything outside the queue.
-/

namespace FleetRing

/-- Retained updates by location. -/
abbrev Windows := Std.ExtTreeMap Location (Window Update)

/-- What is retained and streamed for one client. -/
structure ClientQueue where
  client : String
  /-- Updates retained for each location. -/
  windowLength : Nat
  windows : Windows := ∅
  /-- The watch whose mailbox new updates enter. -/
  watcher : Option Nat := none
  nextWatch : Nat := 1
  /-- Every watch that was accepted, by id. -/
  streams : List WatchStream := []
  /-- Does anyone but its forwarders hold the queue? -/
  owned : Bool := true

namespace ClientQueue

instance : Inhabited ClientQueue := ⟨{ client := "", windowLength := 1 }⟩

/-- The stream with an id. -/
def stream? (queue : ClientQueue) (id : Nat) : Option WatchStream :=
  queue.streams.find? fun stream => stream.id == id

/-- Replace the stream with an id. -/
def setStream (queue : ClientQueue) (id : Nat) (stream : WatchStream) : ClientQueue :=
  { queue with
    streams := queue.streams.map fun other => if other.id = id then stream else other }

/-- Is the forwarder of the watch with an id still there? -/
def isServed (queue : ClientQueue) (id : Nat) : Bool :=
  match queue.stream? id with
  | some stream => stream.serving
  | none => false

/-- Is a watch installed whose forwarder is still there? -/
def isWatching (queue : ClientQueue) : Bool :=
  match queue.watcher with
  | some id => queue.isServed id
  | none => false

/-- Does anything keep the queue alive: an owner, or a forwarder? -/
def isAlive (queue : ClientQueue) : Bool :=
  queue.owned || queue.streams.any (·.serving)

/-- The locations that the queue retains updates of. -/
def locations (queue : ClientQueue) : List Location :=
  queue.windows.keys

/-- The number of updates retained of a location. -/
def retained (queue : ClientQueue) (location : Location) : Nat :=
  match queue.windows[location]? with
  | some window => window.size
  | none => 0

/-- Retain an update; the first one of a location opens its window. -/
def retain (queue : ClientQueue) (update : Update) : ClientQueue :=
  match queue with
  | ⟨client, windowLength, windows, watcher, nextWatch, streams, owned⟩ =>
    let windows := windows.alter update.location fun
      | some window => some (window.push update)
      | none => some ((Window.ofCapacity windowLength).push update)
    ⟨client, windowLength, windows, watcher, nextWatch, streams, owned⟩

/-- Offer an update to the installed watch; one that cannot take it is cut off. -/
def offer (queue : ClientQueue) (update : Update) : ClientQueue :=
  match queue.watcher with
  | none => queue
  | some id =>
    match queue.stream? id with
    | some stream =>
      if stream.hasRoom then queue.setStream id (stream.post update)
      else { queue with watcher := none }
    | none => { queue with watcher := none }

/-- Retain an update and offer it to the installed watch. -/
def push (queue : ClientQueue) (update : Update) : ClientQueue :=
  (queue.retain update).offer update

/-- The updates to replay, location by location: all that are newer than each floor. -/
def replay (queue : ClientQueue) : List (Location × Version) → Except Error (List Update)
  | [] => .ok []
  | (location, floor) :: floors =>
    match queue.windows[location]? with
    | none => .error (.locationNotWatched queue.client location)
    | some window =>
      match window.since floor with
      | .error error => .error error
      | .ok updates =>
        match replay queue floors with
        | .error error => .error error
        | .ok rest => .ok (updates ++ rest)

/-- Start a watch that replays what is newer than the floors, in their order, and then
streams what is pushed. -/
def watchFrom (queue : ClientQueue) (floors : List (Location × Version))
    (outputCapacity : Nat) : Except Error (Nat × ClientQueue) :=
  if queue.isWatching then .error (.alreadyWatching queue.client)
  else
    match queue.replay floors with
    | .error error => .error error
    | .ok updates =>
      let id := queue.nextWatch
      let stream := WatchStream.start id updates queue.windowLength outputCapacity
      .ok (id, { queue with
        watcher := some id
        nextWatch := id + 1
        streams := queue.streams ++ [stream] })

/-- Start a watch from the floors of a version map, location by location in order. A map has no
order of its own, so what is said of watches is said of `watchFrom`. -/
def watch (queue : ClientQueue) (floors : VersionMap) (outputCapacity : Nat) :
    Except Error (Nat × ClientQueue) :=
  queue.watchFrom floors.toList outputCapacity

/-- Store a stream after a step. A forwarder that took leave took its watch off, unless another
one was installed by then. -/
def putStream (queue : ClientQueue) (id : Nat) (stream : WatchStream) : ClientQueue :=
  let queue := queue.setStream id stream
  if !stream.serving && queue.watcher == some id then { queue with watcher := none } else queue

/-- Let the forwarder of one watch run until it has to wait. -/
def settleStream (queue : ClientQueue) (now : Time) (id : Nat) : ClientQueue :=
  match queue.stream? id with
  | none => queue
  | some stream =>
    if stream.serving then
      queue.putStream id (stream.settle (queue.watcher == some id) now)
    else queue

/-- Let every forwarder run until it has to wait. -/
def settle (queue : ClientQueue) (now : Time) : ClientQueue :=
  if queue.streams.any (·.serving) then
    (queue.streams.map (·.id)).foldl (fun queue id => queue.settleStream now id) queue
  else queue

/-- Change the stream with an id, if there is one. -/
def withStream (queue : ClientQueue) (id : Nat) (change : WatchStream → WatchStream) :
    ClientQueue :=
  match queue.stream? id with
  | some stream => queue.setStream id (change stream)
  | none => queue

/-- Fire or drop the stop handle of a watch. -/
def signal (queue : ClientQueue) (id : Nat) (signal : StopSignal) : ClientQueue :=
  queue.withStream id (·.signal signal)

/-- Let go of the receiving end of a watch. -/
def dropReceiver (queue : ClientQueue) (id : Nat) : ClientQueue :=
  queue.withStream id (·.dropReceiver)

/-- The client receives an event of a watch. -/
def receive? (queue : ClientQueue) (id : Nat) : Option (NodeEvent × ClientQueue) :=
  match queue.stream? id with
  | none => none
  | some stream =>
    match stream.receive? with
    | none => none
    | some (event, stream) => some (event, queue.setStream id stream)

/-- Every forwarder vanishes where it stands; the installed watch stays installed. -/
def abort (queue : ClientQueue) : ClientQueue :=
  { queue with
    streams := queue.streams.map fun stream => if stream.serving then stream.ended else stream }

/-- Whoever holds the queue lets go of it. -/
def disown (queue : ClientQueue) : ClientQueue :=
  { queue with owned := false }

end ClientQueue

/-- What a client finds when it asks for more events. -/
inductive Supply where
  /-- As many as it asked for. -/
  | more
  /-- There is nothing now. -/
  | pending
  /-- There will be nothing any more. -/
  | closed
  deriving DecidableEq, Repr

namespace ClientQueue

/-- Receive up to `limit` events, the first of them put on `received` last; whenever the
output is empty the forwarder runs until it has to wait. -/
def receiveAtMost (now : Time) (id : Nat) : Nat → ClientQueue → List NodeEvent →
    List NodeEvent × Supply × ClientQueue
  | 0, queue, received => (received.reverse, .more, queue)
  | limit + 1, queue, received =>
    match queue.receive? id with
    | some (event, queue) => receiveAtMost now id limit queue (event :: received)
    | none =>
      let queue := queue.settleStream now id
      match queue.receive? id with
      | some (event, queue) => receiveAtMost now id limit queue (event :: received)
      | none =>
        (received.reverse, if queue.isServed id then .pending else .closed, queue)

/-- How many events a stream can still yield without new updates. -/
def backlog (queue : ClientQueue) (id : Nat) : Nat :=
  match queue.stream? id with
  | some stream => stream.output.size + stream.mailbox.size + 1
  | none => 0

/-- Receive all events that come, letting the forwarder run. -/
def receiveAll (queue : ClientQueue) (now : Time) (id : Nat) :
    List NodeEvent × Supply × ClientQueue :=
  receiveAtMost now id (queue.backlog id + 1) queue []

end ClientQueue

/-- The client queues of a fleet, by number. -/
structure QueueTable where
  queues : Array ClientQueue := #[]

namespace QueueTable

/-- Add a queue; its number is the number of queues before it. -/
def add (table : QueueTable) (queue : ClientQueue) : Nat × QueueTable :=
  (table.queues.size, ⟨table.queues.push queue⟩)

/-- The queue with a number. -/
def get? (table : QueueTable) (number : Nat) : Option ClientQueue :=
  table.queues[number]?

/-- Change the queue with a number. -/
def modify (table : QueueTable) (number : Nat) (change : ClientQueue → ClientQueue) :
    QueueTable :=
  ⟨table.queues.modify number change⟩

/-- Can the queues of a watch be made? -/
def watchFits (table : QueueTable) (number watch : Nat) : Bool :=
  match table.get? number with
  | some queue => (queue.stream? watch).all (·.fits)
  | none => true

/-- Deliver an update to a queue, if anything keeps that queue alive. -/
def deliver (table : QueueTable) (number : Nat) (update : Update) : QueueTable :=
  table.modify number fun queue => if queue.isAlive then queue.push update else queue

/-- Let every forwarder run until it has to wait. -/
def settle (table : QueueTable) (now : Time) : QueueTable :=
  ⟨table.queues.map (·.settle now)⟩

/-- Every forwarder vanishes where it stands. -/
def abort (table : QueueTable) : QueueTable :=
  ⟨table.queues.map (·.abort)⟩

end QueueTable

end FleetRing
