import FleetRing.Event
import FleetRing.Fifo
import FleetRing.Limit

/-!
# Watch streams

A watch is served by a forwarder between two bounded queues: updates enter its
`mailbox`, the forwarder takes them one at a time, stamps them and sends them to
`output`, from where the client receives them. The forwarder makes five kinds of
steps, each a partial function on the stream: it takes an update, delivers the
event that it holds, quits when it is told to stop, finishes when its mailbox is
closed and empty, and in the end takes leave of its queue. Between the last two
its mailbox is still there, so updates may enter that nobody will take. Any order
of enabled steps is a possible run; `advance?` picks one.
-/

namespace FleetRing

/-- What became of the handle that stops a watch. -/
inductive StopSignal where
  /-- Somebody can still stop the watch. -/
  | armed
  | fired
  /-- The handle is gone, which stops the watch as well. -/
  | dropped
  deriving DecidableEq, Repr

/-- What a forwarder is about. -/
inductive Forwarder where
  /-- It passes events on. -/
  | running
  /-- It stopped passing events on, and let go of what it held; its queue does not know yet. -/
  | leaving
  | gone
  deriving DecidableEq, Repr

/-- One watch, from its mailbox to the client. -/
structure WatchStream where
  id : Nat
  /-- Updates that the forwarder has not taken yet. -/
  mailbox : Fifo Update
  mailboxCapacity : Nat
  /-- The event that the forwarder holds until there is room for it. -/
  held : Option NodeEvent
  /-- Events that the client has not received yet. -/
  output : Fifo NodeEvent
  outputCapacity : Nat
  stop : StopSignal
  /-- Does the client still hold the receiving end? -/
  receiver : Bool
  forwarder : Forwarder
  deriving DecidableEq

namespace WatchStream

/-- Is the forwarder still there, and with it the mailbox? -/
def serving (stream : WatchStream) : Bool :=
  stream.forwarder != .gone

/-- A stream that starts with updates to replay; its mailbox holds `retention` updates,
or as many as are replayed. -/
def start (id : Nat) (replay : List Update) (retention outputCapacity : Nat) : WatchStream where
  id := id
  mailbox := .ofList replay
  mailboxCapacity := max (max retention replay.length) 1
  held := none
  output := .empty
  outputCapacity := outputCapacity
  stop := .armed
  receiver := true
  forwarder := .running

/-- Can both queues of the stream be made? -/
def fits (stream : WatchStream) : Bool :=
  Limit.queueFits stream.mailboxCapacity && Limit.queueFits stream.outputCapacity

/-- Can an update enter the mailbox? Not when it is full or nobody empties it. -/
def hasRoom (stream : WatchStream) : Bool :=
  stream.serving && decide (stream.mailbox.size < stream.mailboxCapacity)

/-- Put an update into the mailbox. -/
def post (stream : WatchStream) (update : Update) : WatchStream :=
  { stream with mailbox := stream.mailbox.push update }

/-- The forwarder passes nothing on any more, and what it held is gone. -/
def halted (stream : WatchStream) : WatchStream :=
  { stream with forwarder := .leaving, held := none }

/-- The forwarder is gone, and with it what it held and its mailbox. -/
def ended (stream : WatchStream) : WatchStream :=
  { stream with forwarder := .gone, held := none, mailbox := .empty }

/-- Quit, once the stop signal was fired or dropped. -/
def quit? (stream : WatchStream) : Option WatchStream :=
  if stream.forwarder = .running ∧ stream.stop ≠ .armed then some stream.halted else none

/-- Take an update and stamp it. -/
def take? (stream : WatchStream) (now : Time) : Option WatchStream :=
  if stream.forwarder = .running ∧ stream.held = none then
    match stream.mailbox.pop? with
    | some (update, mailbox) =>
      some { stream with
        mailbox := mailbox
        held := some (update.event.stamp .distributorSending now) }
    | none => none
  else none

/-- Send the event that is held, when there is room; without a receiver, give up. -/
def deliver? (stream : WatchStream) : Option WatchStream :=
  if stream.forwarder = .running then
    match stream.held with
    | none => none
    | some event =>
      if stream.receiver then
        if stream.output.size < stream.outputCapacity then
          some { stream with output := stream.output.push event, held := none }
        else none
      else some stream.halted
  else none

/-- Finish, once the mailbox is empty and closed, that is no longer `fed`. -/
def finish? (stream : WatchStream) (fed : Bool) : Option WatchStream :=
  if stream.forwarder = .running ∧ stream.held = none ∧ stream.mailbox.isEmpty ∧ fed = false then
    some stream.halted
  else none

/-- Take leave of the queue, after passing on the last event. -/
def leave? (stream : WatchStream) : Option WatchStream :=
  if stream.forwarder = .leaving then some stream.ended else none

/-- The next step of a forwarder that looks at its stop signal first. -/
def advance? (stream : WatchStream) (fed : Bool) (now : Time) : Option WatchStream :=
  match stream.leave? with
  | some next => some next
  | none =>
    match stream.quit? with
    | some next => some next
    | none =>
      match stream.deliver? with
      | some next => some next
      | none =>
        match stream.take? now with
        | some next => some next
        | none => stream.finish? fed

/-- Up to `fuel` steps. -/
def advanceAtMost (fed : Bool) (now : Time) : Nat → WatchStream → WatchStream
  | 0, stream => stream
  | fuel + 1, stream =>
    match stream.advance? fed now with
    | some next => advanceAtMost fed now fuel next
    | none => stream

/-- Steps until the forwarder has to wait: every update is taken and delivered at most
once, and there is at most one event to deliver before, and an end and a leave after. -/
def settle (stream : WatchStream) (fed : Bool) (now : Time) : WatchStream :=
  advanceAtMost fed now (2 * stream.mailbox.size + 3) stream

/-- The client receives an event, if there is one. -/
def receive? (stream : WatchStream) : Option (NodeEvent × WatchStream) :=
  match stream.output.pop? with
  | some (event, output) => some (event, { stream with output := output })
  | none => none

/-- The client fires the stop signal or lets go of it. -/
def signal (stream : WatchStream) (signal : StopSignal) : WatchStream :=
  { stream with stop := signal }

/-- The client lets go of the receiving end, and of what waits there. -/
def dropReceiver (stream : WatchStream) : WatchStream :=
  { stream with receiver := false, output := .empty }

end WatchStream

end FleetRing
