import FleetRing.Proofs.Distributor.Listing
import FleetRing.Proofs.Distributor.Operations
import FleetRing.Proofs.Version.Semilattice
import FleetRing.Proofs.Watch.Ledger

/-!
# A watch from a listing

A client that is listed and starts a watch from the listing at once is accepted, and
nothing is replayed (`list_then_watch`): the floors are at least as large as every
version that is retained, in whatever order versions came. From then on the listing
and the events received make up the listing of the later state, at every point where
the watch is installed and nothing is on its way.

Two things take an event off its way without the client receiving it: its receiving
end is let go while the event waits there, or the forwarder stops while it holds the
event. In both cases the watch stays installed for a while, and the listing overlaid
with the events received falls short (`unreceived_update_missing`).
-/

namespace FleetRing

namespace Distributor

variable {config : Config} {dist : Distributor} {client : String} {held : Client} {trace : Trace}

/-- Has the client a watch that is still served? -/
def isWatching (dist : Distributor) (client : String) : Bool :=
  match dist.client? client with
  | none => false
  | some held => (dist.queues.get? held.queue).any (·.isWatching)

/-- The stream of a watch of the queue with a number. -/
def stream? (dist : Distributor) (number watch : Nat) : Option WatchStream :=
  (dist.queues.get? number).bind (·.stream? watch)

/-- Every update that the client's stores applied at a location is covered by the floor of a
listing there. -/
theorem le_floor (reached : Reachable config trace dist) {location : Location} {floor : Version}
    (listed : (dist.floors held).get? location = some floor) {update : Update}
    (applied : update ∈ acceptedBy (dist.storesAt held location) trace) :
    update.version ≤ floor := by
  have sound := reached.sound
  obtain ⟨start, created, run⟩ := reached
  obtain ⟨k, mine, shown⟩ := mem_acceptedBy.mp applied
  obtain ⟨member, place⟩ := List.mem_filter.mp mine
  obtain ⟨stored, found, newer⟩ := stored_of_submitted run.moves shown
  have share : (location, stored.version) ∈ dist.shares held :=
    (mem_shares sound.nodes).mpr ⟨k, member, by simpa using place, _, stored, found, rfl⟩
  exact UInt64.le_trans newer ((dist.floors_collects held).le_of_get? listed share)

/-- So is everything that the client was told of the location. -/
theorem told_le_floor (reached : Reachable config trace dist) {location : Location}
    {floor : Version} (listed : (dist.floors held).get? location = some floor) {update : Update}
    (told : update ∈ dist.toldAt client held trace location) : update.version ≤ floor := by
  rcases List.mem_cons.mp told with rfl | applied
  · exact UInt64.zero_le
  · exact le_floor reached listed (((since_suffix client trace).sublist.filterMap _).subset applied)

/-- A location with a floor is one where the client has a store. -/
theorem standing_of_floor (sound : dist.Sound) {location : Location} {floor : Version}
    (listed : (dist.floors held).get? location = some floor) :
    ∃ store ∈ dist.storesOf held, store.location = location := by
  have share := (dist.floors_collects held).mem location floor listed
  obtain ⟨k, member, place, -⟩ := (mem_shares sound.nodes).mp share
  exact exists_store_iff.mpr ⟨k, member, place⟩

/-- A client with an id is always listed some floor. -/
theorem floors_ne_nil (sound : dist.Sound) (named : client ≠ "")
    (registered : dist.client? client = some held) : (dist.floors held).toList ≠ [] := by
  obtain ⟨k, member, id, stored, found⟩ := sound.stocked client held named registered
  obtain ⟨store, here, -⟩ := Option.bind_eq_some_iff.mp found
  have share : (store.location, stored.version) ∈ dist.shares held :=
    (mem_shares sound.nodes).mpr ⟨k, member, by simp [placeOf, here], id, stored, found, rfl⟩
  exact (dist.floors_collects held).toList_ne_nil (List.ne_nil_of_mem share)

/-- Nothing that is retained is above the floors of a listing, in whatever order they are asked
for. -/
theorem replay_floors (reached : Reachable config trace dist) (named : client ≠ "")
    (registered : dist.client? client = some held) {order : List (Location × Version)}
    (all : (dist.floors held).Enumerates order) :
    ∃ (queue : ClientQueue) (steps : List ClientQueue.Occurrence),
      dist.queues.get? held.queue = some queue ∧
      ClientQueue.Steps { client, windowLength := config.windowLength.toNat } steps queue ∧
      queue.replay order = .ok [] := by
  obtain ⟨queue, steps, here, schedule, retained, told⟩ := exists_retention reached named registered
  have sound := reached.sound
  refine ⟨queue, steps, here, schedule, ?_⟩
  have nothing : (order.flatMap fun _ => ([] : List Update)) = [] :=
    List.flatMap_eq_nil_iff.mpr fun _ _ => rfl
  rw [← nothing]
  refine ClientQueue.replay_eq ?_
  rintro ⟨location, floor⟩ member
  have listed := (all.mem_iff location floor).mp member
  have here := told location
  rw [if_pos (standing_of_floor sound listed)] at here
  have nonempty : updatesAt location (ClientQueue.pushes steps) ≠ [] := by
    rw [here]
    exact List.cons_ne_nil _ _
  obtain ⟨window, found, -, items⟩ := retained.window nonempty
  refine ⟨window, found, items.since_eq_nil nonempty fun update kept => ?_⟩
  rw [items.toList_eq, here] at kept
  exact UInt64.not_lt.mpr (told_le_floor reached listed (List.mem_of_mem_drop kept))

open WatchStream (unsent)

/-- What a client got of a watch that was fed some updates, apart from the forwarder's stamp. -/
structure Feeds (fed : List Update) (number watch : Nat) (shown : Trace) (queue : ClientQueue)
    (stream : WatchStream) : Prop where
  /-- A client that holds its end has lost nothing. -/
  attached : stream.receiver = true → lost number watch shown = []
  /-- What the client received is where the updates begin, whatever became of the watch. -/
  delivered : unsent (received number watch shown) <+: unsent (fed.map (·.event))
  /-- Nothing is missing while the watch is installed and its forwarder passes events on. -/
  installed : queue.watcher = some watch → stream.forwarder = .running →
    unsent (received number watch shown ++ lost number watch shown ++ stream.underway) =
      unsent (fed.map (·.event))

/-- A client gets of a watch what its ledger says: the replay, and then what its stores apply. -/
theorem Mirrors.feeds {watch : Nat} {shown : Trace} {replay : List Update} {queue : ClientQueue}
    {stream : WatchStream} {steps : List ClientQueue.Occurrence}
    (mirrors : Mirrors held shown steps)
    (ledger : ClientQueue.Ledger watch replay steps queue stream) :
    Feeds (replay ++ acceptedBy held.stores shown) held.queue watch shown queue stream where
  attached := by
    rw [← mirrors.lost]
    exact ledger.balanced.attached
  delivered := by
    have admitted := ClientQueue.admitted_prefix_pushes watch steps
    have longer := ((List.prefix_append_right_inj replay).mpr admitted).map (·.event)
    have whole := ledger.balanced.delivered.trans (longer.map (·.unsent))
    rw [← mirrors.received, ← mirrors.pushes]
    refine List.IsPrefix.trans ?_ whole
    simp only [unsent, List.map_append, List.append_assoc]
    exact List.prefix_append _ _
  installed := by
    intro watching running
    obtain ⟨-, uncut⟩ := ledger.installed watching
    rw [← mirrors.received, ← mirrors.lost, ← mirrors.pushes, ledger.balanced.running running,
      ClientQueue.admitted_eq_pushes uncut]

/-- What a client received of an installed watch, when nothing of it is on its way and nothing
was let go. -/
theorem Feeds.received_eq {fed : List Update} {number watch : Nat} {shown : Trace}
    {queue : ClientQueue} {stream : WatchStream} (feeds : Feeds fed number watch shown queue stream)
    (installed : queue.watcher = some watch) (running : stream.forwarder = .running)
    (settled : stream.underway = []) (kept : lost number watch shown = []) :
    (received number watch shown).map (·.node) = fed.map (·.node) := by
  have whole := feeds.installed installed running
  rw [kept, settled, List.append_nil, List.append_nil] at whole
  have nodes := congrArg (List.map fun event : NodeEvent => event.node) whole
  simpa [unsent, Function.comp_def, NodeEvent.unsent, Update.node] using nodes

/-- A watch whose floors are answered is accepted, and feeds its client along every later run. -/
theorem exists_watch (sound : dist.Sound) (registered : dist.client? client = some held)
    {queue : ClientQueue} (here : dist.queues.get? held.queue = some queue)
    (fresh : queue.Fresh) (idle : dist.isWatching client = false)
    {floors : List (Location × Version)} (nonempty : floors.isEmpty = false)
    {replay : List Update} (replayed : queue.replay floors = .ok replay) (capacity : Nat) :
    ∃ (watch : Nat) (opened : Distributor),
      dist.watchFrom client floors capacity = .ok (held.queue, watch, opened) ∧
      opened.stream? held.queue watch =
        some (.start watch replay queue.windowLength capacity) ∧
      ∀ (shown : Trace) (later : Distributor), Steps opened shown later →
        ∃ (after : ClientQueue) (stream : WatchStream),
          later.queues.get? held.queue = some after ∧ after.stream? watch = some stream ∧
          Feeds (replay ++ acceptedBy held.stores shown) held.queue watch shown after stream := by
  have unwatched : queue.isWatching = false := by
    simpa [isWatching, registered, here] using idle
  have accepted : queue.watchFrom floors capacity = .ok (queue.nextWatch, _) :=
    (ClientQueue.watchFrom_eq_ok replayed).mpr ⟨unwatched, rfl, rfl⟩
  have granted := watchFrom_eq_ok.mpr
    ⟨held, queue, _, registered, nonempty, here, accepted, rfl, rfl⟩
  have ledger := ClientQueue.Ledger.opened fresh replayed accepted
  refine ⟨queue.nextWatch, _, granted, ?_, fun shown later run => ?_⟩
  · simp only [stream?, QueueTable.get?_modify, if_true, here, Option.map_some, Option.bind_some]
    exact ledger.found
  · have soundOpened := sound.move (.watch granted)
    obtain ⟨found, after, steps, there, further, mirrors⟩ := soundOpened.follows
      (by exact registered) (by simp [QueueTable.get?_modify, here]; rfl) run.moves
    obtain ⟨stream, kept⟩ := ClientQueue.Ledger.steps ⟨_, ledger⟩ further
    exact ⟨after, stream, there, kept.found, mirrors.feeds kept⟩

/-- A watch from a listing is accepted at once and replays nothing, in whatever order it names the
floors. Whatever happens then, as long as it is installed and its forwarder passes events on, and
whenever nothing of it is on its way or was let go, the listing overlaid with the nodes of the
events received is the listing of that moment. -/
theorem list_then_watch (reached : Reachable config trace dist) (named : client ≠ "")
    (registered : dist.client? client = some held) (idle : dist.isWatching client = false)
    (capacity : Nat) :
    ∃ (nodes : List Node) (floors : VersionMap), dist.list client = .ok (nodes, floors) ∧
      ∀ order : List (Location × Version), order.Perm floors.toList →
        ∃ (watch : Nat) (opened : Distributor),
          dist.watchFrom client order capacity = .ok (held.queue, watch, opened) ∧
          (∃ stream, opened.stream? held.queue watch = some stream ∧ stream.underway = [] ∧
            stream.mailboxCapacity = config.windowLength.toNat) ∧
          ∀ (shown : Trace) (later : Distributor) (queue : ClientQueue) (stream : WatchStream),
            Steps opened shown later → later.queues.get? held.queue = some queue →
            queue.watcher = some watch → queue.stream? watch = some stream →
            stream.forwarder = .running → stream.underway = [] →
            lost held.queue watch shown = [] →
              ∃ laterNodes laterFloors, later.list client = .ok (laterNodes, laterFloors) ∧
                (overlay nodes ((received held.queue watch shown).map (·.node))).Perm
                  laterNodes := by
  refine ⟨dist.listing held, dist.floors held, list_eq registered, fun order walked => ?_⟩
  have all := VersionMap.enumerates_iff_perm.mpr walked
  obtain ⟨queue, steps, here, schedule, replayed⟩ := replay_floors reached named registered all
  have sound := reached.sound
  have nonempty := all.isEmpty_eq_false (floors_ne_nil sound named registered)
  obtain ⟨watch, opened, granted, starts, kept⟩ := exists_watch sound registered here
    (schedule.fresh (ClientQueue.fresh_new _ _)) idle nonempty replayed capacity
  have size : max (max queue.windowLength 0) 1 = config.windowLength.toNat := by
    have positive := reached.windowLength_pos
    rw [schedule.settings.1]
    simp only
    omega
  refine ⟨watch, opened, granted,
    ⟨_, starts, by simp [WatchStream.underway, WatchStream.start], size⟩, ?_⟩
  intro shown later after stream run there installed found running settled nothingLost
  obtain ⟨_, _, thereToo, foundToo, feeds⟩ := kept shown later run
  obtain rfl := Option.some.inj (there.symm.trans thereToo)
  obtain rfl := Option.some.inj (found.symm.trans foundToo)
  obtain ⟨stays, same⟩ := sound.overlay_moves registered
    ((Chained.single (Move.watch granted)).trans run.moves)
  refine ⟨later.listing held, later.floors held, list_eq stays, ?_⟩
  rw [feeds.received_eq installed running settled nothingLost]
  exact same

/-- In the small fleet, the client that has taken both stores is listed and watches at once. Then a
node that it was listed changes, and another one comes to its other store. Once it received both,
it has put together what it would be listed. -/
theorem list_then_watch_small :
    ∃ (nodes laterNodes : List Node) (floors laterFloors : VersionMap) (opened later : Distributor)
        (shown : Trace),
      smallTaken.list "d" = .ok (nodes, floors) ∧
      smallTaken.watchFrom "d" floors.toList 4 = .ok (0, 1, opened) ∧
      Steps opened shown later ∧
      (submitted shown).map (fun update => (update.node.id, update.version)) =
        [("a", 9), ("b", 7)] ∧
      (received 0 1 shown).map (fun event => (event.node.id, event.node.version?)) =
        [("a", some 9), ("b", some 7)] ∧
      later.list "d" = .ok (laterNodes, laterFloors) ∧
      (overlay nodes ((received 0 1 shown).map (·.node))).Perm laterNodes := by
  have idle : smallTaken.isWatching "d" = false := by decide +kernel
  obtain ⟨nodes, floors, listed, watches⟩ :=
    list_then_watch smallTaken_reachable (by decide) smallTaken_client idle 4
  obtain ⟨watch, _, granted, -, resumes⟩ := watches floors.toList (.refl _)
  obtain ⟨rfl, rfl⟩ : smallTaken.listing ⟨0, [0, 1]⟩ = nodes ∧
      smallTaken.floors ⟨0, [0, 1]⟩ = floors := by
    simpa [list_eq smallTaken_client] using listed
  let order := (smallTaken.floors ⟨0, [0, 1]⟩).toList
  let opened := (smallTaken.perform (.watch "d" order 4)).2
  have alsoGranted : smallTaken.watchFrom "d" order 4 = .ok (0, 1, opened) :=
    watchFrom_eq_perform (by decide +kernel)
  have agree := Prod.mk.inj (Prod.mk.inj (Except.ok.inj (granted.symm.trans alsoGranted))).2
  rw [agree.1, agree.2] at resumes
  let operations := [.ingest 1 [reported .modified "a" 9 .shanghai, reported .added "b" 7 .beijing]]
    ++ fetch "d" 1 ++ fetch "d" 1
  have run := opened.performAll_steps operations
  let later := (opened.performAll operations).2
  have standing : (later.queues.get? 0).any (fun queue => queue.watcher == some 1 &&
      (queue.stream? 1).any fun stream =>
        stream.forwarder == .running && stream.underway.isEmpty) = true := by
    decide +kernel
  obtain ⟨queue, here, installed, found⟩ := by
    simpa only [Option.any_eq_true, Bool.and_eq_true, beq_iff_eq] using standing
  obtain ⟨stream, there, running, settled⟩ := found
  obtain ⟨laterNodes, laterFloors, alsoListed, same⟩ :=
    resumes _ later queue stream run here installed there running
      (List.isEmpty_iff.mp settled) (by decide +kernel)
  exact ⟨_, laterNodes, _, laterFloors, opened, later, _, listed, alsoGranted, run,
    by decide +kernel, by decide +kernel, alsoListed, same⟩

/-- What makes a client miss the next event of a watch: it lets go of the receiving end when the
event is there, or it stops the watch when the forwarder holds the event. -/
def misses (client : String) (watch : Nat) : List (List Operation) :=
  [[.serve client (.take watch 0), .serve client (.deliver watch), .serve client (.release watch)],
    [.serve client (.take watch 0), .serve client (.signal watch .fired),
      .serve client (.quit watch)]]

/-- In the small fleet, a node changes that the client is listed, and the client misses the event.
Either way its watch is installed and nothing is on its way, but the listing overlaid with what it
received is not what it would be listed. -/
theorem unreceived_update_missing :
    ∃ (nodes : List Node) (floors : VersionMap) (opened : Distributor),
      Reachable smallFleet smallTrace smallTaken ∧
      smallTaken.client? "d" = some ⟨0, [0, 1]⟩ ∧ smallTaken.isWatching "d" = false ∧
      smallTaken.list "d" = .ok (nodes, floors) ∧
      smallTaken.watchFrom "d" floors.toList 4 = .ok (0, 1, opened) ∧
      ∀ missing ∈ misses "d" 1, ∃ shown later queue stream laterNodes laterFloors,
        opened.performAll (.ingest 1 [reported .modified "a" 9 .shanghai] :: missing) =
          (shown, later) ∧
        Steps opened shown later ∧ later.queues.get? 0 = some queue ∧
        queue.watcher = some 1 ∧ queue.stream? 1 = some stream ∧ stream.serving = true ∧
        stream.underway = [] ∧ later.list "d" = .ok (laterNodes, laterFloors) ∧
        ¬ (overlay nodes ((received 0 1 shown).map (·.node))).Perm laterNodes := by
  let missed : Operation := .ingest 1 [reported .modified "a" 9 .shanghai]
  obtain ⟨order, walked⟩ : ∃ order, order = (smallTaken.floors ⟨0, [0, 1]⟩).toList := ⟨_, rfl⟩
  obtain ⟨opened, performed⟩ :
      ∃ opened, opened = (smallTaken.perform (.watch "d" order 4)).2 := ⟨_, rfl⟩
  have granted : smallTaken.watchFrom "d" order 4 = .ok (0, 1, opened) := by
    rw [performed, walked]
    exact watchFrom_eq_perform (by decide +kernel)
  have standing : ∀ missing ∈ misses "d" 1, ((opened.performAll (missed :: missing)).2.queues.get?
      0).any (fun queue => queue.watcher == some 1 && (queue.stream? 1).any fun stream =>
        stream.serving && stream.underway.isEmpty) = true := by
    rw [performed, walked]
    decide +kernel
  have known : ∀ missing ∈ misses "d" 1,
      (opened.performAll (missed :: missing)).2.client? "d" = some ⟨0, [0, 1]⟩ := by
    rw [performed, walked]
    decide +kernel
  have short : ∀ missing ∈ misses "d" 1, ¬ (overlay (smallTaken.listing ⟨0, [0, 1]⟩)
      ((received 0 1 (opened.performAll (missed :: missing)).1).map (·.node))).Perm
        ((opened.performAll (missed :: missing)).2.listing ⟨0, [0, 1]⟩) := by
    rw [performed, walked]
    decide +kernel
  refine ⟨_, _, opened, smallTaken_reachable, smallTaken_client, by decide +kernel,
    list_eq smallTaken_client, walked ▸ granted, fun missing member => ?_⟩
  obtain ⟨queue, here, installed, stream, there, serving, settled⟩ := by
    simpa only [Option.any_eq_true, Bool.and_eq_true, beq_iff_eq] using standing missing member
  exact ⟨(opened.performAll (missed :: missing)).1, (opened.performAll (missed :: missing)).2,
    queue, stream, _, _, rfl, opened.performAll_steps _, here, installed, there, serving,
    List.isEmpty_iff.mp settled, list_eq (known missing member), short missing member⟩

end Distributor

end FleetRing
