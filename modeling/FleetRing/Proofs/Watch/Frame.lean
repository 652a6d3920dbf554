import FleetRing.Proofs.Watch.Schedule

/-!
# What a step of a client queue leaves alone

A step changes at most one stream, and only a push changes what is retained.
The lemmas say this field by field, so later proofs about streams never look
into windows and proofs about windows never look into streams.
-/

namespace FleetRing

/-- The event as it was before the forwarder stamped it. -/
def NodeEvent.unsent (event : NodeEvent) : NodeEvent :=
  { event with stamps := { event.stamps with distributorSending := none } }

@[simp]
theorem NodeEvent.unsent_stamp (event : NodeEvent) (now : Time) :
    (event.stamp .distributorSending now).unsent = event.unsent := rfl

namespace WatchStream

variable {stream next : WatchStream} {fed : Bool}

/-- The events that are on their way through a stream, oldest first. -/
def underway (stream : WatchStream) : List NodeEvent :=
  stream.output.toList ++ stream.held.toList ++ stream.mailbox.toList.map (·.event)

@[simp]
theorem serving_post (stream : WatchStream) (update : Update) :
    (stream.post update).serving = stream.serving := rfl

/-- A forwarder that passes events on is there. -/
theorem serving_of_running (running : stream.forwarder = .running) : stream.serving = true := by
  simp [serving, running]

/-- Nothing is held when an update is taken from the mailbox. -/
theorem take?_eq_some {now : Time} (taken : stream.take? now = some next) :
    stream.forwarder = .running ∧ stream.held = none ∧ ∃ (update : Update) (mailbox : Fifo Update),
      stream.mailbox.toList = update :: mailbox.toList ∧
      next = { stream with
        mailbox := mailbox
        held := some (update.event.stamp .distributorSending now) } := by
  unfold take? at taken
  split at taken
  · next ready =>
    obtain ⟨running, free⟩ := ready
    split at taken
    · next update mailbox popped =>
      obtain rfl := Option.some.inj taken
      exact ⟨running, free, update, mailbox, Fifo.pop?_eq_some popped, rfl⟩
    · cases taken
  · cases taken

/-- What is held is sent to a receiver; without one the forwarder halts. -/
theorem deliver?_eq_some (delivered : stream.deliver? = some next) :
    stream.forwarder = .running ∧ ∃ event, stream.held = some event ∧
      (stream.receiver = true ∧ stream.output.size < stream.outputCapacity ∧
          next = { stream with output := stream.output.push event, held := none } ∨
        stream.receiver = false ∧ next = stream.halted) := by
  unfold deliver? at delivered
  split at delivered
  · next running =>
    split at delivered
    · cases delivered
    · next event held =>
      refine ⟨running, event, held, ?_⟩
      split at delivered
      · next attached =>
        split at delivered
        · next room => exact .inl ⟨attached, room, (Option.some.inj delivered).symm⟩
        · cases delivered
      · next detached =>
        exact .inr ⟨by simpa using detached, (Option.some.inj delivered).symm⟩
  · cases delivered

theorem quit?_eq_some (stopped : stream.quit? = some next) :
    stream.forwarder = .running ∧ next = stream.halted := by
  unfold quit? at stopped
  split at stopped
  · next ready => exact ⟨ready.1, (Option.some.inj stopped).symm⟩
  · cases stopped

theorem finish?_eq_some (drained : stream.finish? fed = some next) :
    stream.forwarder = .running ∧ next = stream.halted := by
  unfold finish? at drained
  split at drained
  · next ready => exact ⟨ready.1, (Option.some.inj drained).symm⟩
  · cases drained

theorem leave?_eq_some (left : stream.leave? = some next) :
    stream.forwarder = .leaving ∧ next = stream.ended := by
  unfold leave? at left
  split at left
  · next halted => exact ⟨halted, (Option.some.inj left).symm⟩
  · cases left

/-- A forwarder that runs either halts, or moves one event on, apart from its stamp; one that
halted takes leave. Only a stream with a receiving end has its output changed. -/
theorem Forwards.cases (moved : stream.Forwards fed next) :
    (stream.forwarder = .running ∧
      (next = stream.halted ∨
        next.forwarder = .running ∧ next.id = stream.id ∧ next.receiver = stream.receiver ∧
          (stream.receiver = false → next.output = stream.output) ∧
          next.underway.map (·.unsent) = stream.underway.map (·.unsent))) ∨
      stream.forwarder = .leaving ∧ next = stream.ended := by
  cases moved with
  | take now taken =>
    obtain ⟨running, free, update, mailbox, front, rfl⟩ := take?_eq_some taken
    refine .inl ⟨running, .inr ⟨running, rfl, rfl, fun _ => rfl, ?_⟩⟩
    simp [underway, free, front]
  | deliver delivered =>
    obtain ⟨running, event, held, ⟨attached, -, rfl⟩ | ⟨-, rfl⟩⟩ := deliver?_eq_some delivered
    · refine .inl ⟨running, .inr ⟨running, rfl, rfl, fun gone => ?_, ?_⟩⟩
      · exact absurd (gone.symm.trans attached) (by decide)
      · simp [underway, held]
    · exact .inl ⟨running, .inl rfl⟩
  | quit stopped =>
    obtain ⟨running, rfl⟩ := quit?_eq_some stopped
    exact .inl ⟨running, .inl rfl⟩
  | finish drained =>
    obtain ⟨running, rfl⟩ := finish?_eq_some drained
    exact .inl ⟨running, .inl rfl⟩
  | leave left => exact .inr (leave?_eq_some left)

/-- A forwarder serves the watch that it was made for. -/
theorem Forwards.id_eq (moved : stream.Forwards fed next) : next.id = stream.id := by
  obtain ⟨-, rfl | ⟨-, same, -⟩⟩ | ⟨-, rfl⟩ := moved.cases
  · rfl
  · exact same
  · rfl

/-- A forwarder that stopped passing events on never takes that up again. -/
theorem Forwards.running_before (moved : stream.Forwards fed next)
    (running : next.forwarder = .running) : stream.forwarder = .running := by
  obtain ⟨ran, -⟩ | ⟨-, rfl⟩ := moved.cases
  · exact ran
  · cases running

/-- The client receives the oldest event of the output, and nothing else changes. -/
theorem receive?_eq_some {event : NodeEvent} (given : stream.receive? = some (event, next)) :
    ∃ output : Fifo NodeEvent, stream.output.toList = event :: output.toList ∧
      next = { stream with output := output } := by
  unfold receive? at given
  split at given
  · next first output popped =>
    obtain ⟨rfl, rfl⟩ := Prod.mk.inj (Option.some.inj given)
    exact ⟨output, Fifo.pop?_eq_some popped, rfl⟩
  · cases given

end WatchStream

namespace ClientQueue

variable {queue next : ClientQueue} {watch other : Nat} {update : Update}

/-- A stream is found under its own id. -/
theorem id_of_stream? {stream : WatchStream} (found : queue.stream? watch = some stream) :
    stream.id = watch := by
  have holds := List.find?_some found
  simpa using holds

/-- A watch is served when it is installed and its forwarder is there. -/
theorem isWatching_iff : queue.isWatching = true ↔
    ∃ watch stream, queue.watcher = some watch ∧ queue.stream? watch = some stream ∧
      stream.serving = true := by
  simp only [isWatching, isServed]
  cases queue.watcher with
  | none => simp
  | some watch => cases found : queue.stream? watch <;> simp [found]

/-- Replacing a stream changes the answer for its id, and for no other one. -/
theorem stream?_setStream {stream : WatchStream} (same : stream.id = watch) :
    (queue.setStream watch stream).stream? other =
      if other = watch then (queue.stream? watch).map fun _ => stream else queue.stream? other := by
  simp only [stream?, setStream]
  induction queue.streams with
  | nil => simp
  | cons first rest ih =>
    rw [List.map_cons, List.find?_cons, List.find?_cons, List.find?_cons]
    by_cases here : first.id = watch
    · by_cases asked : other = watch
      · simp [here, asked, same]
      · have unequal : ¬ watch = other := fun equal => asked equal.symm
        simp only [here, same, ↓reduceIte, beq_eq_false_iff_ne.mpr unequal, asked]
        simpa [asked] using ih
    · by_cases asked : other = watch
      · simp only [here, asked, ↓reduceIte, beq_eq_false_iff_ne.mpr here]
        simpa [asked] using ih
      · simp only [here, asked, ↓reduceIte]
        by_cases matched : first.id = other
        · simp [matched]
        · simpa [beq_eq_false_iff_ne.mpr matched, asked] using ih

/-- A stored stream is found afterwards. -/
theorem stream?_putStream {stream old : WatchStream} (found : queue.stream? watch = some old)
    (same : stream.id = watch) (other : Nat) :
    (queue.putStream watch stream).stream? other =
      if other = watch then some stream else queue.stream? other := by
  have stored : (queue.putStream watch stream).stream? other =
      (queue.setStream watch stream).stream? other := by
    simp only [putStream]
    split <;> rfl
  rw [stored, stream?_setStream same, found]
  rfl

/-- Changing a stream changes the answer for its id, and for no other one. -/
theorem stream?_withStream {change : WatchStream → WatchStream}
    (same : ∀ stream : WatchStream, (change stream).id = stream.id) :
    (queue.withStream watch change).stream? other =
      if other = watch then (queue.stream? watch).map change else queue.stream? other := by
  simp only [withStream]
  cases found : queue.stream? watch with
  | none =>
    by_cases asked : other = watch
    · simp [asked, found]
    · simp [asked]
  | some stream =>
    simp only [stream?_setStream ((same stream).trans (id_of_stream? found)), found]
    rfl

@[simp]
theorem watcher_withStream (change : WatchStream → WatchStream) :
    (queue.withStream watch change).watcher = queue.watcher := by
  simp only [withStream]
  split <;> rfl

@[simp]
theorem nextWatch_withStream (change : WatchStream → WatchStream) :
    (queue.withStream watch change).nextWatch = queue.nextWatch := by
  simp only [withStream]
  split <;> rfl

@[simp]
theorem nextWatch_putStream (stream : WatchStream) :
    (queue.putStream watch stream).nextWatch = queue.nextWatch := by
  simp only [putStream]
  split <;> rfl

@[simp]
theorem nextWatch_push (update : Update) : (queue.push update).nextWatch = queue.nextWatch := by
  have kept : (queue.retain update).nextWatch = queue.nextWatch := rfl
  simp only [push, offer]
  split
  · exact kept
  · split
    · split <;> exact kept
    · exact kept

/-- Receiving moves one event out of one stream. -/
theorem receive?_eq_some {event : NodeEvent}
    (received : queue.receive? watch = some (event, next)) :
    ∃ stream moved, queue.stream? watch = some stream ∧
      stream.receive? = some (event, moved) ∧ next = queue.setStream watch moved := by
  unfold receive? at received
  split at received
  · cases received
  · next stream found =>
    split at received
    · cases received
    · next first moved given =>
      obtain ⟨rfl, rfl⟩ := Prod.mk.inj (Option.some.inj received)
      exact ⟨stream, moved, found, given, rfl⟩

/-- The stream that was received from is found without the event. -/
theorem stream?_of_receive? {event : NodeEvent} {stream moved : WatchStream}
    (found : queue.stream? watch = some stream) (given : stream.receive? = some (event, moved))
    (other : Nat) :
    (queue.setStream watch moved).stream? other =
      if other = watch then some moved else queue.stream? other := by
  have kept : moved.id = stream.id := by
    obtain ⟨output, -, rfl⟩ := WatchStream.receive?_eq_some given
    rfl
  have same : moved.id = watch := kept.trans (id_of_stream? found)
  rw [stream?_setStream same, found]
  rfl

/-- A stream that is stored takes the place of the one that was there. -/
theorem stream?_map_of_stored {stream moved : WatchStream}
    (found : queue.stream? watch = some stream)
    (stored : ∀ other, next.stream? other =
      if other = watch then some moved else queue.stream? other) (other : Nat) :
    next.stream? other =
      if other = watch then (queue.stream? watch).map fun _ => moved else queue.stream? other := by
  rw [stored, found]
  rfl

theorem stream?_signal (queue : ClientQueue) (watch : Nat) (signal : StopSignal) (other : Nat) :
    (queue.signal watch signal).stream? other =
      if other = watch then (queue.stream? watch).map (·.signal signal)
      else queue.stream? other :=
  stream?_withStream fun _ => rfl

theorem stream?_dropReceiver (queue : ClientQueue) (watch other : Nat) :
    (queue.dropReceiver watch).stream? other =
      if other = watch then (queue.stream? watch).map (·.dropReceiver)
      else queue.stream? other :=
  stream?_withStream fun _ => rfl

/-- Storing a stream takes its watch off once the forwarder is gone, and no other one. -/
theorem watcher_putStream {stream : WatchStream} :
    (queue.putStream watch stream).watcher =
      if stream.serving = false ∧ queue.watcher = some watch then none else queue.watcher := by
  simp only [putStream, setStream]
  by_cases serving : stream.serving = false <;> by_cases installed : queue.watcher = some watch <;>
    simp [serving, installed]

/-- An update that fits enters the mailbox of the installed watch, and of no other one. -/
theorem stream?_push_of_room (room : queue.hasRoom = true) :
    (queue.push update).stream? other = (queue.stream? other).map fun stream =>
      if queue.watcher = some other then stream.post update else stream := by
  have kept : ∀ id, (queue.retain update).stream? id = queue.stream? id := fun _ => rfl
  have installed : (queue.retain update).watcher = queue.watcher := rfl
  simp only [push, offer, installed, kept]
  cases watcher : queue.watcher with
  | none => simp [kept]
  | some watch =>
    simp only [hasRoom, watcher, Option.any_eq_true] at room
    obtain ⟨stream, found, fits⟩ := room
    have posted : stream.id = watch := id_of_stream? found
    simp only [found, fits, if_true]
    rw [stream?_setStream (show (stream.post update).id = watch from posted), kept]
    by_cases asked : other = watch
    · subst asked
      simp [found]
    · have unequal : ¬ watch = other := fun equal => asked equal.symm
      simp [kept, asked, unequal]

/-- An update that fits leaves the watch installed. -/
theorem watcher_push_of_room (room : queue.hasRoom = true) :
    (queue.push update).watcher = queue.watcher := by
  have installed : (queue.retain update).watcher = queue.watcher := rfl
  have kept : ∀ id, (queue.retain update).stream? id = queue.stream? id := fun _ => rfl
  simp only [push, offer, installed, kept]
  cases watcher : queue.watcher with
  | none => simp [installed, watcher]
  | some watch =>
    simp only [hasRoom, watcher, Option.any_eq_true] at room
    obtain ⟨stream, found, fits⟩ := room
    simp [found, fits, setStream, installed, watcher]

/-- An update that does not fit takes the watch off and changes no stream. -/
theorem push_of_full (full : queue.hasRoom = false) :
    queue.push update = { queue.retain update with watcher := none } := by
  have installed : (queue.retain update).watcher = queue.watcher := rfl
  have kept : ∀ id, (queue.retain update).stream? id = queue.stream? id := fun _ => rfl
  simp only [push, offer, installed, kept]
  cases watcher : queue.watcher with
  | none => simp [hasRoom, watcher] at full
  | some watch =>
    cases found : queue.stream? watch with
    | none => simp only [found]
    | some stream =>
      simp only [hasRoom, watcher, found, Option.any_some] at full
      simp [found, full]

/-- A watch that is accepted gets the next id, a stream of its own, and takes the place of one
that is not served any more. -/
theorem watchFrom_eq_ok {floors : List (Location × Version)} {capacity : Nat}
    {replay : List Update} (replayed : queue.replay floors = .ok replay) :
    queue.watchFrom floors capacity = .ok (watch, next) ↔
      queue.isWatching = false ∧ watch = queue.nextWatch ∧
        next = { queue with
          watcher := some queue.nextWatch
          nextWatch := queue.nextWatch + 1
          streams := queue.streams ++
            [.start queue.nextWatch replay queue.windowLength capacity] } := by
  simp only [watchFrom, replayed]
  split
  · next watching => simp [watching]
  · next idle =>
    simp only [Bool.not_eq_true] at idle
    simp only [Except.ok.injEq, Prod.mk.injEq, idle, true_and]
    exact and_congr eq_comm eq_comm

/-- Two queues that differ at most in their streams. -/
structure SameRetention (queue next : ClientQueue) : Prop where
  client : next.client = queue.client
  windowLength : next.windowLength = queue.windowLength
  windows : next.windows = queue.windows
  owned : next.owned = queue.owned

theorem SameRetention.trans {first second third : ClientQueue}
    (earlier : SameRetention first second) (later : SameRetention second third) :
    SameRetention first third where
  client := later.client.trans earlier.client
  windowLength := later.windowLength.trans earlier.windowLength
  windows := later.windows.trans earlier.windows
  owned := later.owned.trans earlier.owned

theorem sameRetention_setStream (stream : WatchStream) :
    SameRetention queue (queue.setStream watch stream) :=
  ⟨rfl, rfl, rfl, rfl⟩

theorem sameRetention_putStream (stream : WatchStream) :
    SameRetention queue (queue.putStream watch stream) := by
  simp only [putStream]
  split <;> exact ⟨rfl, rfl, rfl, rfl⟩

theorem sameRetention_withStream (change : WatchStream → WatchStream) :
    SameRetention queue (queue.withStream watch change) := by
  simp only [withStream]
  split <;> exact ⟨rfl, rfl, rfl, rfl⟩

/-- What a push retains does not depend on the watch it is offered to. -/
theorem sameRetention_push (queue : ClientQueue) (update : Update) :
    SameRetention (queue.retain update) (queue.push update) := by
  simp only [push, offer]
  split
  · exact ⟨rfl, rfl, rfl, rfl⟩
  · split
    · split <;> exact ⟨rfl, rfl, rfl, rfl⟩
    · exact ⟨rfl, rfl, rfl, rfl⟩

/-- A step that pushes nothing changes nothing that is retained; one that pushes an update
retains it. -/
theorem Step.sameRetention {occurrence : Occurrence} (transition : Step queue occurrence next) :
    match occurrence.update? with
    | some update => SameRetention (queue.retain update) next
    | none => SameRetention queue next := by
  cases transition with
  | push update room => exact sameRetention_push queue update
  | overflow update installed full => exact sameRetention_push queue update
  | watch replayed accepted =>
    obtain ⟨-, -, rfl⟩ := (watchFrom_eq_ok replayed).mp accepted
    exact ⟨rfl, rfl, rfl, rfl⟩
  | refuse refused =>
    obtain ⟨-, rfl⟩ := watching_refused.mp refused
    exact ⟨rfl, rfl, rfl, rfl⟩
  | forward found moved => exact sameRetention_putStream _
  | receive received =>
    obtain ⟨-, -, -, -, rfl⟩ := receive?_eq_some received
    exact sameRetention_setStream _
  | signal watch signal spent => exact sameRetention_withStream _
  | release found => exact sameRetention_withStream _

end ClientQueue

end FleetRing
