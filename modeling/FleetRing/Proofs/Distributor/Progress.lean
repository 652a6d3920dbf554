import FleetRing.Proofs.Distributor.Resumption

/-!
# A watch moves forward only

In whatever order versions are ingested, a store applies an update over an older node only.
So the updates that a client's stores applied have increasing versions for each node, and
what a watch is fed keeps their order at each location: the replay is the end of what was
retained there, never with the bookmark in front, and what is applied later comes behind it.
`watch_progresses` says what a client sees of this.
-/

namespace FleetRing

/-- What holds in order at each location holds in order of all updates of one location. -/
theorem pairwise_of_updatesAt {relation : Update → Update → Prop} {updates : List Update}
    (each : ∀ location, (updatesAt location updates).Pairwise relation) :
    updates.Pairwise fun earlier later => earlier.location = later.location →
      relation earlier later := by
  induction updates with
  | nil => exact .nil
  | cons update updates ih =>
    refine List.pairwise_cons.mpr ⟨fun later member same => ?_, ih fun location => ?_⟩
    · have here := each update.location
      rw [updatesAt, List.filter_cons_of_pos (by simp)] at here
      exact (List.pairwise_cons.mp here).1 later (mem_updatesAt.mpr ⟨member, same.symm⟩)
    · exact (each location).sublist ((List.sublist_cons_self update updates).filter _)

namespace Distributor

open WatchStream (unsent)

variable {config : Config} {start dist later opened : Distributor} {client : String}
  {held : Client} {before shown trace : Trace} {update : Update} {k : Nat}

/-- The update states a node that a store serves, as the node reports itself. -/
structure Serves (dist : Distributor) (k : Nat) (update : Update) : Prop where
  resolved : update.Resolved
  supported : update.type.carriesState = true
  routed : dist.nodes.route? update.node.id update.location = some k

/-- Whatever a store applied, it serves for ever. -/
theorem serves_of_submitted (run : Moves start trace dist)
    (applied : .submitted update (some k) ∈ trace) : dist.Serves k update := by
  induction run with
  | refl => cases applied
  | @step trace shown state next prior transition ih =>
    obtain ⟨ring, perLocation⟩ := plan_of_move transition
    have route : next.nodes.route? update.node.id update.location =
        state.nodes.route? update.node.id update.location := by
      simp only [NodeStore.route?, NodeStore.locate?, ring, perLocation]
    rcases List.mem_append.mp applied with earlier | last
    · obtain ⟨resolved, supported, routed⟩ := ih earlier
      exact ⟨resolved, supported, route.trans routed⟩
    · rcases submits_or_keeps transition with ⟨other, resolved, rfl, rfl⟩ | ⟨-, silent⟩
      · obtain ⟨rfl, accepted⟩ : update = other ∧ some k = _ := by simpa using last
        obtain ⟨target, routed, -, taken, -⟩ := NodeStore.absorb_of_accepted accepted.symm
        exact ⟨resolved, (VirtualStore.applied_chain taken).1, route.trans routed⟩
      · exact absurd last (silent update (some k))

/-- A move that submits nothing is nothing to any store. -/
theorem acceptedBy_of_silent (silent : ∀ update acceptor, .submitted update acceptor ∉ shown)
    (stores : List Nat) : acceptedBy stores shown = [] := by
  refine List.eq_nil_iff_forall_not_mem.mpr fun update member => ?_
  obtain ⟨k, -, applied⟩ := mem_acceptedBy.mp member
  exact silent update (some k) applied

/-- The updates of one node that stores applied have increasing versions. -/
theorem pairwise_acceptedBy (run : Moves start trace dist) (stores : List Nat) :
    (acceptedBy stores trace).Pairwise fun earlier later =>
      earlier.node.id = later.node.id → earlier.location = later.location →
        earlier.version < later.version := by
  induction run with
  | refl => exact .nil
  | @step trace shown state next prior transition ih =>
    rw [acceptedBy_append]
    rcases submits_or_keeps transition with ⟨update, -, rfl, rfl⟩ | ⟨-, silent⟩
    · refine List.pairwise_append.mpr ⟨ih, ?_, fun earlier member last single id place => ?_⟩
      · rw [acceptedBy_submitted]
        split
        · exact List.pairwise_singleton _ _
        · exact .nil
      · obtain ⟨k, -, applied⟩ := mem_acceptedBy.mp member
        obtain ⟨i, -, now⟩ := mem_acceptedBy.mp single
        obtain ⟨rfl, accepted⟩ : last = update ∧ some i = _ := by simpa using now
        -- Both went to the store that the node is routed to, which holds the earlier one
        -- or something newer.
        have routed := (serves_of_submitted prior applied).routed
        obtain ⟨-, alsoRouted, -⟩ := NodeStore.absorb_of_accepted accepted.symm
        rw [id, place, alsoRouted] at routed
        obtain rfl := Option.some.inj routed
        obtain ⟨stored, found, newer⟩ := stored_of_submitted prior applied
        exact UInt64.lt_of_le_of_lt newer (NodeStore.older_of_acceptor accepted.symm (id ▸ found))
    · rw [acceptedBy_of_silent silent, List.append_nil]
      exact ih

/-- An accepted watch is fed its replay, and then what its client's stores apply. Of every location
this is part of all that these stores ever applied, in order. -/
theorem exists_fed (reached : Reachable config before dist) {order : List (Location × Version)}
    (distinct : (order.map Prod.fst).Nodup) {capacity number watch : Nat}
    (granted : dist.watchFrom client order capacity = .ok (number, watch, opened))
    (run : Steps opened shown later) :
    ∃ held fed, dist.client? client = some held ∧ number = held.queue ∧
      (∀ location, (updatesAt location fed).Sublist
        (updatesAt location (acceptedBy held.stores (before ++ shown)))) ∧
      unsent (received held.queue watch shown) <+: unsent (fed.map (·.event)) := by
  obtain ⟨held, queue, next, registered, nonempty, here, accepted, number, -⟩ :=
    watchFrom_eq_ok.mp granted
  obtain ⟨replay, replayed⟩ := ClientQueue.exists_replay accepted
  obtain ⟨again, locations, steps, alsoHere, schedule, pushed, -⟩ :=
    exists_account reached registered
  obtain rfl := Option.some.inj (here.symm.trans alsoHere)
  have idle : dist.isWatching client = false := by
    have answered := (ClientQueue.watchFrom_eq_ok replayed).mp accepted
    simpa [isWatching, registered, here] using answered.1
  obtain ⟨_, _, alsoGranted, -, feeds⟩ := exists_watch reached.sound registered here
    (schedule.fresh (ClientQueue.fresh_new _ _)) idle nonempty replayed capacity
  obtain ⟨-, same⟩ := Prod.mk.inj (Except.ok.inj (granted.symm.trans alsoGranted))
  obtain ⟨rfl, rfl⟩ := Prod.mk.inj same
  obtain ⟨after, stream, -, -, fed⟩ := feeds shown later run
  refine ⟨held, replay ++ acceptedBy held.stores shown, registered, number, fun location => ?_,
    fed.delivered⟩
  have retained := (ClientQueue.retains_new client config.windowLength.toNat).steps schedule
  obtain ⟨index, positive, replays⟩ :=
    retained.exists_drop replayed distinct location
  rw [updatesAt_append, acceptedBy_append, updatesAt_append, replays, List.nil_append, pushed,
    updatesAt_append, updatesAt_bookmarks]
  refine .append ?_ (List.Sublist.refl _)
  have since := ((since_suffix client before).sublist.filterMap
    (Occurrence.acceptedBy? held.stores)).filter fun update => update.location = location
  -- The bookmark is the first update of its location, and that is never replayed.
  refine List.Sublist.trans ?_ since
  split
  · obtain ⟨rest, rfl⟩ := Nat.exists_eq_add_one.mpr positive
    exact List.drop_sublist rest _
  · exact List.drop_sublist index _

/-- What a client received of a watch moves forward only. `applied` are the updates that the
client's stores applied. -/
structure Progresses (dist : Distributor) (held : Client) (applied : List Update)
    (events : List NodeEvent) : Prop where
  /-- The versions of the events of one node increase. -/
  increases : events.Pairwise fun earlier later => earlier.node.key = later.node.key →
    ∃ old new, earlier.node.version? = some old ∧ later.node.version? = some new ∧ old < new
  /-- No event is received twice, -/
  once : (unsent events).Nodup
  /-- and each is one that was applied, in the order of its location. -/
  accepted : ∀ location,
    (unsent (events.filter fun event => event.node.location? = some location)).Sublist
      (unsent ((updatesAt location applied).map (·.event)))
  /-- Every event is about a node that one of the client's stores serves. -/
  owned : ∀ event ∈ events, ∃ location, event.node.location? = some location ∧
    ∃ k ∈ held.stores, dist.nodes.route? event.node.id location = some k
  /-- Every event states a node, so none is a bookmark. -/
  states : ∀ event ∈ events, event.type = .added ∨ event.type = .modified

/-- What is received are the events of some of the updates that are fed, in their order. -/
theorem exists_received {fed : List Update} {events : List NodeEvent}
    (delivered : unsent events <+: unsent (fed.map (·.event))) :
    ∃ got : List Update, got.Sublist fed ∧
      unsent events = got.map fun update => update.event.unsent := by
  refine ⟨fed.take events.length, List.take_sublist _ _, ?_⟩
  rw [List.prefix_iff_eq_take.mp delivered]
  simp [unsent, List.map_take, Function.comp_def]

section Received

variable {got : List Update}
  (served : ∀ update ∈ got, ∃ k ∈ held.stores, dist.Serves k update)
include served

/-- Updates with increasing versions for each node make events with such versions. -/
theorem pairwise_unsent
    (increasing : got.Pairwise fun earlier later =>
      earlier.node.id = later.node.id → earlier.location = later.location →
        earlier.version < later.version) :
    (got.map fun update => update.event.unsent).Pairwise fun earlier later =>
      earlier.node.key = later.node.key → ∃ old new, earlier.node.version? = some old ∧
        later.node.version? = some new ∧ old < new := by
  refine List.pairwise_map.mpr
    (increasing.imp_of_mem fun {earlier later} first second newer key => ?_)
  obtain ⟨_, -, one⟩ := served earlier first
  obtain ⟨_, -, two⟩ := served later second
  obtain ⟨id, place⟩ : earlier.node.id = later.node.id ∧
      earlier.node.location? = later.node.location? := Prod.mk.inj key
  rw [one.resolved.location, two.resolved.location, Option.some.injEq] at place
  exact ⟨_, _, one.resolved.version, two.resolved.version, newer id place⟩

/-- The events of a location are those of its updates. -/
theorem filter_unsent (location : Location) :
    (got.map fun update => update.event.unsent).filter
        (fun event => event.node.location? = some location) =
      (updatesAt location got).map fun update => update.event.unsent := by
  rw [List.filter_map]
  refine congrArg _ (List.filter_congr fun update member => ?_)
  obtain ⟨_, -, serve⟩ := served update member
  have place : update.event.unsent.node.location? = some update.location :=
    serve.resolved.location
  simp [place]

end Received

/-- What a watch is fed in the order of each location moves forward only. -/
theorem progresses_of_fed {applied fed : List Update} {events : List NodeEvent}
    (serves : ∀ update ∈ applied, ∃ k ∈ held.stores, dist.Serves k update)
    (increasing : applied.Pairwise fun earlier later =>
      earlier.node.id = later.node.id → earlier.location = later.location →
        earlier.version < later.version)
    (ordered : ∀ location, (updatesAt location fed).Sublist (updatesAt location applied))
    (delivered : unsent events <+: unsent (fed.map (·.event))) :
    dist.Progresses held applied events := by
  obtain ⟨got, within, same⟩ := exists_received delivered
  have places : ∀ location, (updatesAt location got).Sublist (updatesAt location applied) :=
    fun location => (within.filter _).trans (ordered location)
  have served : ∀ update ∈ got, ∃ k ∈ held.stores, dist.Serves k update := by
    intro update member
    have here := (places update.location).subset (mem_updatesAt.mpr ⟨member, rfl⟩)
    exact serves update (mem_updatesAt.mp here).1
  have sources : ∀ event ∈ events, ∃ update ∈ got, update.event.unsent = event.unsent := by
    intro event member
    have carried : event.unsent ∈ unsent events := List.mem_map.mpr ⟨event, member, rfl⟩
    rw [same] at carried
    exact List.mem_map.mp carried
  have apart := pairwise_of_updatesAt fun location =>
    (increasing.sublist List.filter_sublist).sublist (places location)
  have forward := pairwise_unsent served (apart.imp fun newer id place => newer place id place)
  rw [← same] at forward
  refine ⟨List.pairwise_map.mp forward, forward.imp fun {earlier later} newer equal => ?_,
    fun location => ?_, fun event member => ?_, fun event member => ?_⟩
  · obtain ⟨old, new, first, second, older⟩ := newer (congrArg (·.node.key) equal)
    rw [equal, second, Option.some.injEq] at first
    exact UInt64.lt_irrefl _ (first ▸ older)
  · have here : unsent (events.filter fun event => event.node.location? = some location) =
        (unsent events).filter fun event => event.node.location? = some location := by
      rw [unsent, List.filter_map]
      rfl
    rw [here, same, filter_unsent served, unsent, List.map_map]
    exact (places location).map _
  · obtain ⟨update, source, equal⟩ := sources event member
    obtain ⟨k, mine, serve⟩ := served update source
    have node : update.node = event.node := congrArg (·.node) equal
    rw [← node]
    exact ⟨update.location, serve.resolved.location, k, mine, serve.routed⟩
  · obtain ⟨update, source, equal⟩ := sources event member
    obtain ⟨_, -, serve⟩ := served update source
    have type : update.type = event.type := congrArg (·.type) equal
    rw [← type]
    exact EventType.carriesState_iff.mp serve.supported

/-- Whatever is ingested in whatever order, and whatever versions a watch starts from, in whatever
order it names them, what a client receives of it moves forward only: the versions of a node
increase, nothing comes twice, all is about nodes of the client's own stores, and no bookmark is
among it. -/
theorem watch_progresses (reached : Reachable config before dist) {floors : VersionMap}
    {order : List (Location × Version)} (walked : order.Perm floors.toList)
    {capacity number watch : Nat}
    (granted : dist.watchFrom client order capacity = .ok (number, watch, opened))
    (run : Steps opened shown later) :
    ∃ held, dist.client? client = some held ∧ later.client? client = some held ∧
      later.Progresses held (acceptedBy held.stores (before ++ shown))
        (received number watch shown) := by
  obtain ⟨held, fed, registered, rfl, ordered, delivered⟩ :=
    exists_fed reached (VersionMap.enumerates_iff_perm.mpr walked).once granted run
  obtain ⟨start, created, prior⟩ := reached
  have onward : Moves dist _ later := (Chained.single (Move.watch granted)).trans run.moves
  have whole : Moves start _ later := prior.moves.trans onward
  -- The occurrence of the watch itself applies nothing.
  have same : acceptedBy held.stores (before ++ ([.watched client held.queue watch] ++ shown)) =
      acceptedBy held.stores (before ++ shown) := by
    rw [acceptedBy_append, acceptedBy_append, acceptedBy_append]
    rfl
  refine ⟨held, registered, client?_of_moves onward registered,
    progresses_of_fed (fun update applied => ?_) ?_ ordered delivered⟩
  · rw [← same] at applied
    obtain ⟨k, mine, submitted⟩ := mem_acceptedBy.mp applied
    exact ⟨k, mine, serves_of_submitted whole submitted⟩
  · rw [← same]
    exact pairwise_acceptedBy whole held.stores

/-- In the small fleet, a watch replays an update of each location, not in their order. Then
versions come out of order: a late one of the same node is not applied, an early one of another node
is. The client receives what is applied. -/
theorem watch_progresses_small :
    ∃ (dist opened later : Distributor) (before shown : Trace) (floors : VersionMap)
        (order : List (Location × Version)),
      Reachable smallFleet before dist ∧ order.Perm floors.toList ∧ order ≠ floors.toList ∧
      dist.watchFrom "d" order 4 = .ok (0, 1, opened) ∧
      Steps opened shown later ∧
      (submitted shown).map (fun update => (update.node.id, update.version)) =
        [("a", 7), ("c", 3), ("a", 12)] ∧
      (received 0 1 shown).map (fun event => (event.node.id, event.node.version?)) =
        [("a", some 9), ("b", some 7), ("c", some 3), ("a", some 12)] ∧
      later.Progresses ⟨0, [0, 1]⟩ (acceptedBy [0, 1] (before ++ shown)) (received 0 1 shown) := by
  let first := [reported .modified "a" 9 .shanghai, reported .added "b" 7 .beijing]
  let second := [reported .modified "a" 7 .shanghai, reported .added "c" 3 .shanghai,
    reported .modified "a" 12 .shanghai]
  let order : List (Location × Version) := [(⟨.shanghai, .rp1⟩, 5), (⟨.beijing, .rp1⟩, 0)]
  have walked : order.Perm (VersionMap.ofList order).toList := by decide +kernel
  have unsorted : order ≠ (VersionMap.ofList order).toList := by decide +kernel
  let dist := (smallTaken.ingest 0 first).dist
  have reached : Reachable smallFleet _ dist :=
    smallTaken_reachable.trans (.single (.ingest 0 first))
  let opened := (dist.perform (.watch "d" order 4)).2
  have granted : dist.watchFrom "d" order 4 = .ok (0, 1, opened) :=
    watchFrom_eq_perform (by decide +kernel)
  let operations :=
    fetch "d" 1 ++ fetch "d" 1 ++ [.ingest 1 second] ++ fetch "d" 1 ++ fetch "d" 1
  have run := opened.performAll_steps operations
  obtain ⟨held, registered, -, progresses⟩ := watch_progresses reached walked granted run
  obtain rfl : held = ⟨0, [0, 1]⟩ := by
    have known : dist.client? "d" = some ⟨0, [0, 1]⟩ := by decide +kernel
    exact Option.some.inj (registered.symm.trans known)
  exact ⟨dist, opened, _, _, _, _, order, reached, walked, unsorted, granted, run,
    by decide +kernel, by decide +kernel, progresses⟩

end Distributor

end FleetRing
