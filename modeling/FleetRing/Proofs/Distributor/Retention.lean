import FleetRing.Proofs.Distributor.Reachability

/-!
# What is retained for a client

The queue of a client is fed by its own stores and by nothing else:
`exists_account` describes it by a schedule that pushed one bookmark for each of
the client's locations and then whatever the client's stores applied since its
registration. `retained_exactly` reads the windows off that account. Nothing is
assumed about the order of versions, about watches, or about other clients.
-/

namespace FleetRing

namespace Distributor

variable {config : Config} {start dist next : Distributor} {client : String} {held : Client}
  {trace shown : Trace}

/-- A move changes nothing about the ring. -/
theorem plan_of_move (move : Move dist shown next) :
    next.nodes.ring = dist.nodes.ring ∧ next.nodes.perLocation = dist.nodes.perLocation := by
  cases move with
  | @register client requested granted =>
    obtain ⟨assigned, after, -, -, -, same⟩ := dist.allocate_spec client requested
    rw [same]
    exact ⟨rfl, rfl⟩
  | @submit update resolved =>
    have plan := NodeStore.samePlan_absorb dist.nodes update
    rw [nodes_submit]
    exact ⟨plan.ring, plan.perLocation⟩
  | watch accepted =>
    obtain ⟨held, before, opened, -, -, -, -, -, rfl⟩ := watchFrom_eq_ok.mp accepted
    exact ⟨rfl, rfl⟩
  | serve => exact ⟨rfl, rfl⟩
  | administer => exact ⟨rfl, rfl⟩

theorem plan_of_moves (run : Moves dist trace next) :
    next.nodes.ring = dist.nodes.ring ∧ next.nodes.perLocation = dist.nodes.perLocation := by
  induction run with
  | refl => exact ⟨rfl, rfl⟩
  | step prior transition ih =>
    obtain ⟨ring, perLocation⟩ := plan_of_move transition
    exact ⟨ring.trans ih.1, perLocation.trans ih.2⟩

/-- The location of the store with a number, if there is one. -/
def placeOf (dist : Distributor) (k : Nat) : Option Location :=
  (dist.nodes.stores[k]?).map (·.location)

/-- Stores stay where they are. -/
theorem Sound.placeOf_eq (sound : dist.Sound) (run : Moves dist trace next) (k : Nat) :
    next.placeOf k = dist.placeOf k := by
  obtain ⟨ring, perLocation⟩ := plan_of_moves run
  rw [placeOf, (sound.moves run).nodes.laid.location_eq, ring, perLocation,
    ← sound.nodes.laid.location_eq, placeOf]

/-- What a store applies is an update of its location. -/
theorem Sound.placeOf_acceptor (sound : dist.Sound) {update : Update} {k : Nat}
    (accepted : dist.nodes.acceptor? update = some k) : dist.placeOf k = some update.location := by
  obtain ⟨target, routed, -⟩ := NodeStore.absorb_of_accepted accepted
  obtain ⟨other, here, standing⟩ := sound.nodes.laid.location_of_locate? routed
  rw [placeOf, here, Option.map_some, standing]

/-- That holds of everything that was ever applied. -/
theorem Sound.placeOf_submitted (sound : start.Sound) (run : Moves start trace dist)
    {update : Update} {k : Nat} (member : .submitted update (some k) ∈ trace) :
    dist.placeOf k = some update.location := by
  induction run with
  | refl => cases member
  | @step trace shown state next prior transition ih =>
    have reached := sound.moves prior
    rw [reached.placeOf_eq (.single transition)]
    rcases List.mem_append.mp member with earlier | last
    · exact ih earlier
    · cases transition with
      | submit resolved =>
        obtain ⟨rfl, same⟩ : update = _ ∧ some k = _ := by simpa using last
        exact reached.placeOf_acceptor same.symm
      | register | watch | serve | administer => simp at last

/-- The client's stores at a location. -/
def storesAt (dist : Distributor) (held : Client) (location : Location) : List Nat :=
  held.stores.filter fun k => dist.placeOf k = some location

/-- They stay there. -/
theorem Sound.storesAt_eq (sound : dist.Sound) (run : Moves dist trace next) (held : Client)
    (location : Location) : next.storesAt held location = dist.storesAt held location := by
  simp only [storesAt, sound.placeOf_eq run]

/-- What the client's stores at a location applied is what they applied to it. -/
theorem Sound.updatesAt_acceptedBy (sound : start.Sound) (run : Moves start trace dist)
    (held : Client) (location : Location) {part : Trace} (within : part ⊆ trace) :
    updatesAt location (acceptedBy held.stores part) =
      acceptedBy (dist.storesAt held location) part := by
  rw [updatesAt, acceptedBy, acceptedBy, List.filter_filterMap]
  refine List.filterMap_congr fun occurrence member => ?_
  cases occurrence with
  | submitted update acceptor =>
    cases acceptor with
    | none => rfl
    | some k =>
      have place := sound.placeOf_submitted run (within member)
      by_cases mine : k ∈ held.stores <;> by_cases here : update.location = location <;>
        simp [Occurrence.acceptedBy?, storesAt, mine, place, here, Option.filter]
  | registered | watched | served => rfl

/-- A location is opened by one bookmark, however often it is listed. -/
theorem updatesAt_bookmarks (locations : List Location) (location : Location) :
    updatesAt location (locations.eraseDups.map Update.bookmark) =
      if location ∈ locations then [Update.bookmark location] else [] := by
  induction size : locations.length using Nat.strong_induction_on generalizing locations with
  | h count ih =>
    cases locations with
    | nil => rfl
    | cons first rest =>
      have shorter : (rest.filter fun other => !other == first).length < count := by
        have := List.length_filter_le (fun other => !other == first) rest
        simp only [List.length_cons] at size
        omega
      have whole : updatesAt location ((first :: rest).eraseDups.map Update.bookmark) =
          updatesAt location [Update.bookmark first] ++ updatesAt location
            ((rest.filter fun other => !other == first).eraseDups.map Update.bookmark) := by
        rw [List.eraseDups_cons, List.map_cons, ← updatesAt_append]
        rfl
      have place : (Update.bookmark first).location = first := rfl
      rw [whole, updatesAt_singleton, place, ih _ shorter _ rfl]
      by_cases here : first = location
      · simp [here]
      · have different : ¬ location = first := fun equal => here equal.symm
        simp [here, different]

/-- The schedule of a client's queue: one bookmark for each location of its stores, and then
what these applied since the client was registered. -/
theorem exists_account (reached : Reachable config trace dist)
    (registered : dist.client? client = some held) :
    ∃ (queue : ClientQueue) (locations : List Location) (steps : List ClientQueue.Occurrence),
      dist.queues.get? held.queue = some queue ∧
      ClientQueue.Steps { client, windowLength := config.windowLength.toNat } steps queue ∧
      ClientQueue.pushes steps = locations.eraseDups.map Update.bookmark ++
        acceptedBy held.stores (since client trace) ∧
      (client ≠ "" → ∀ location, location ∈ locations ↔
        ∃ k ∈ held.stores, dist.placeOf k = some location) := by
  obtain ⟨start, created, run⟩ := reached
  have sound := sound_create created
  have moves := run.moves
  have unknown := client?_create created client
  rcases exists_registration sound moves unknown with ⟨absent, -⟩ |
    ⟨earlier, later, before, requested, first, granted, fresh, rest, rfl, -⟩
  · rw [registered] at absent
    cases absent
  · have config_eq : before.config = config := by
      rw [config_of_moves first]
      obtain ⟨-, topology, -, rfl⟩ := create_eq_ok created
      rfl
    have soundBefore := sound.moves first
    have soundAfter := soundBefore.register granted
    obtain ⟨assigned, after, hands, -, selects, allocated⟩ := before.allocate_spec client requested
    have registeredAfter : (before.allocate client requested).2.client? client =
        some ⟨before.queues.queues.size, assigned⟩ := by
      exact (client?_of_clients (by rw [allocated]) client).trans (if_pos rfl)
    have opened : (before.allocate client requested).2.queues.get? before.queues.queues.size =
        some (before.openedQueue client requested) := by
      rw [allocated]
      exact QueueTable.get?_added _
    obtain ⟨found, queue, steps, here, schedule, mirrors⟩ :=
      soundAfter.follows registeredAfter opened rest
    obtain rfl := Option.some.inj (registered.symm.trans found)
    obtain ⟨seeding, seeded, bookmarks⟩ := before.openedQueue_steps client requested
    refine ⟨queue, (before.selection client requested).filterMap fun k =>
      (before.nodes.stores[k]?).map (·.location), seeding ++ steps, here, ?_, ?_,
      fun named location => ?_⟩
    · rw [← config_eq]
      exact seeded.trans schedule
    · rw [ClientQueue.pushes_append, bookmarks, mirrors.pushes, since_registered fresh]
    · have place : ∀ k, dist.placeOf k = before.placeOf k := fun k => by
        have whole : Moves before _ dist :=
          (Chained.single (Move.register granted)).trans rest
        exact soundBefore.placeOf_eq whole k
      simp only [List.mem_filterMap, place, selects named]
      rfl

/-- All that a client was ever told of a location: the bookmark that opens it, and what the
client's stores there applied since its registration. -/
def toldAt (dist : Distributor) (client : String) (held : Client) (trace : Trace)
    (location : Location) : List Update :=
  .bookmark location :: acceptedBy (dist.storesAt held location) (since client trace)

/-- A store of the client stands at a location exactly when one with some number does. -/
theorem exists_store_iff {location : Location} :
    (∃ store ∈ dist.storesOf held, store.location = location) ↔
      ∃ k ∈ held.stores, dist.placeOf k = some location := by
  simp only [storesOf, List.mem_filterMap, placeOf, Option.map_eq_some_iff]
  constructor
  · rintro ⟨store, ⟨k, member, here⟩, standing⟩
    exact ⟨k, member, store, here, standing⟩
  · rintro ⟨k, member, store, here, standing⟩
    exact ⟨store, ⟨k, member, here⟩, standing⟩

/-- What was pushed of a location is what the client was told of it, and nothing of a location
where the client has no store. -/
theorem exists_retention (reached : Reachable config trace dist) (named : client ≠ "")
    (registered : dist.client? client = some held) :
    ∃ (queue : ClientQueue) (steps : List ClientQueue.Occurrence),
      dist.queues.get? held.queue = some queue ∧
      ClientQueue.Steps { client, windowLength := config.windowLength.toNat } steps queue ∧
      queue.Retains (ClientQueue.pushes steps) ∧
      ∀ location, updatesAt location (ClientQueue.pushes steps) =
        if ∃ store ∈ dist.storesOf held, store.location = location then
          dist.toldAt client held trace location
        else [] := by
  obtain ⟨queue, locations, steps, here, schedule, pushed, places⟩ :=
    exists_account reached registered
  obtain ⟨start, created, run⟩ := reached
  have retained := (ClientQueue.retains_new client config.windowLength.toNat).steps schedule
  refine ⟨queue, steps, here, schedule, retained, fun location => ?_⟩
  rw [pushed, updatesAt_append, updatesAt_bookmarks,
    (sound_create created).updatesAt_acceptedBy run.moves held location
      (since_suffix client trace).subset]
  by_cases standing : ∃ k ∈ held.stores, dist.placeOf k = some location
  · rw [if_pos ((places named location).mpr standing), if_pos (exists_store_iff.mpr standing)]
    rfl
  · have nowhere : dist.storesAt held location = [] := by
      exact List.filter_eq_nil_iff.mpr fun k member same =>
        standing ⟨k, member, by simpa using same⟩
    have nothing : acceptedBy [] (since client trace) = [] := by
      refine List.filterMap_eq_nil_iff.mpr fun occurrence _ => ?_
      cases occurrence with
      | submitted update acceptor => cases acceptor <;> simp [Occurrence.acceptedBy?]
      | registered | watched | served => rfl
    rw [if_neg fun listed => standing ((places named location).mp listed),
      if_neg fun listed => standing (exists_store_iff.mp listed), nowhere, nothing]
    rfl

/-- A window keeps at least one update, in every configuration that is in use. -/
theorem Reachable.windowLength_pos (reached : Reachable config trace dist) :
    0 < config.windowLength.toNat := by
  obtain ⟨start, created, -⟩ := reached
  have faultless := (create_eq_ok created).1
  by_cases none : config.windowLength = 0
  · simp only [Config.fault?, none, if_true] at faultless
    split at faultless
    · cases faultless
    · split at faultless
      · cases faultless
      · split at faultless <;> cases faultless
  · exact Nat.pos_of_ne_zero fun zero => none (UInt64.toNat_inj.mp zero)

/-- The queue of a client has windows of the locations of its stores and of no other, and each
holds exactly the last updates that the client was told of the location, as many as fit. -/
theorem retained_exactly (reached : Reachable config trace dist) (named : client ≠ "")
    (registered : dist.client? client = some held) :
    ∃ queue, dist.queues.get? held.queue = some queue ∧
      (∀ location, location ∈ queue.locations ↔
        ∃ store ∈ dist.storesOf held, store.location = location) ∧
      ∀ location ∈ queue.locations, ∃ window, queue.windows[location]? = some window ∧
        window.toList = (dist.toldAt client held trace location).drop
          ((dist.toldAt client held trace location).length -
            min (dist.toldAt client held trace location).length config.windowLength.toNat) ∧
        window.stop = (dist.toldAt client held trace location).length := by
  obtain ⟨queue, steps, here, schedule, retained, told⟩ := exists_retention reached named registered
  have positive := reached.windowLength_pos
  have locations : ∀ location, location ∈ queue.locations ↔
      ∃ store ∈ dist.storesOf held, store.location = location := by
    intro location
    rw [retained.mem_locations, told]
    split
    · next standing => simp [standing, toldAt]
    · next nowhere => simp [nowhere]
  refine ⟨queue, here, locations, fun location listed => ?_⟩
  obtain ⟨window, found, capacity, items⟩ :=
    retained.window (retained.mem_locations.mp listed)
  rw [told, if_pos ((locations location).mp listed)] at items
  have length : window.capacity = config.windowLength.toNat := by
    rw [capacity, schedule.settings.1]
    exact Nat.max_eq_left positive
  refine ⟨window, found, ?_, items.stop_eq⟩
  rw [items.toList_eq, length]
  congr 1
  omega

/-- Two locations with one store each, and windows of two updates. -/
def smallFleet : Config where
  regions := 2
  partitions := 1
  virtualStores := 1
  minimalRequest := 0
  windowLength := 2

/-- The event that reports a node of the first partition of a region. -/
def reported (type : EventType) (id : String) (version : Version) (region : Region) :
    NodeEvent where
  type := type
  node := .fresh id version ⟨region, .rp1⟩

/-- The small fleet before anything happens. -/
def smallStart : Distributor where
  config := smallFleet
  nodes := .ofTopology ⟨2, 1, by decide, by decide, by decide, by decide⟩ 1

/-- The small fleet when a node of Shanghai has come. -/
def smallStocked : Distributor :=
  (smallStart.ingest 0 [reported .added "a" 5 .shanghai]).dist

/-- The small fleet when a client has taken both stores. -/
def smallTaken : Distributor :=
  (smallStocked.register 0 "d" 1).toOption.getD smallStocked

/-- What happened until then. -/
def smallTrace : Trace :=
  smallStart.intake ((receive 0 [reported .added "a" 5 .shanghai]).filterMap accept?) ++
    [.registered "d"]

theorem smallTaken_client : smallTaken.client? "d" = some ⟨0, [0, 1]⟩ := by
  decide +kernel

/-- A registration that is granted leads somewhere. -/
theorem register_getD {now : Time} {requested : Nat}
    (granted : (dist.register now client requested).toOption.isSome = true) :
    dist.register now client requested =
      .ok ((dist.register now client requested).toOption.getD dist) := by
  cases answer : dist.register now client requested with
  | ok next => rfl
  | error refusal => simp [answer, Except.toOption] at granted

theorem smallStocked_register : smallStocked.register 0 "d" 1 = .ok smallTaken :=
  register_getD (by decide +kernel)

theorem smallTaken_reachable : Reachable smallFleet smallTrace smallTaken := by
  refine ⟨smallStart, rfl, Chained.step ?_ (.register smallStocked_register)⟩
  exact .single (.ingest 0 [reported .added "a" 5 .shanghai])

/-- The small fleet when a node of Beijing has come as well. -/
def smallBusy : Distributor :=
  (smallStocked.ingest 0 [reported .added "b" 7 .beijing]).dist

/-- The small fleet when a client has taken the store of Beijing, and nobody that of Shanghai. -/
def smallHalf : Distributor :=
  (smallBusy.register 0 "d" 1).toOption.getD smallBusy

/-- What happened until then. -/
def smallHalfTrace : Trace :=
  smallStart.intake ((receive 0 [reported .added "a" 5 .shanghai]).filterMap accept?) ++
    smallStocked.intake ((receive 0 [reported .added "b" 7 .beijing]).filterMap accept?) ++
      [.registered "d"]

theorem smallHalf_client : smallHalf.client? "d" = some ⟨0, [0]⟩ := by
  decide +kernel

theorem smallHalf_reachable : Reachable smallFleet smallHalfTrace smallHalf := by
  have stocked : Step smallStart _ smallStocked := .ingest 0 [reported .added "a" 5 .shanghai]
  have busy : Step smallStocked _ smallBusy := .ingest 0 [reported .added "b" 7 .beijing]
  have half : Step smallBusy [.registered "d"] smallHalf :=
    .register (register_getD (by decide +kernel))
  exact ⟨smallStart, rfl, ((Chained.single stocked).step busy).step half⟩

/-- Of a bookmark and three updates of a node, windows of two keep the last two. -/
theorem retained_exactly_evicting :
    ∃ (trace : Trace) (dist : Distributor) (queue : ClientQueue) (window : Window Update),
      Reachable smallFleet trace dist ∧ dist.queues.get? 0 = some queue ∧
        queue.windows[(⟨.shanghai, .rp1⟩ : Location)]? = some window ∧
        (dist.toldAt "d" ⟨0, [0, 1]⟩ trace ⟨.shanghai, .rp1⟩).length = 4 ∧
        window.toList = (dist.toldAt "d" ⟨0, [0, 1]⟩ trace ⟨.shanghai, .rp1⟩).drop 2 ∧
        window.stop = 4 := by
  let events := [reported .modified "a" 6 .shanghai, reported .modified "a" 8 .shanghai,
    reported .modified "a" 9 .shanghai]
  let trace := smallTrace ++ smallTaken.intake ((receive 0 events).filterMap accept?)
  let dist := (smallTaken.ingest 0 events).dist
  have reached : Reachable smallFleet trace dist := by
    obtain ⟨start, created, run⟩ := smallTaken_reachable
    exact ⟨start, created, run.step (.ingest 0 events)⟩
  have registered : dist.client? "d" = some ⟨0, [0, 1]⟩ := by decide +kernel
  have standing : (dist.storesOf ⟨0, [0, 1]⟩).any (·.location = ⟨.shanghai, .rp1⟩) = true := by
    decide +kernel
  obtain ⟨queue, here, locations, windows⟩ := retained_exactly reached (by decide) registered
  have listed : (⟨.shanghai, .rp1⟩ : Location) ∈ queue.locations := by
    simpa [locations] using standing
  obtain ⟨window, found, kept, stop⟩ := windows _ listed
  have length : (dist.toldAt "d" ⟨0, [0, 1]⟩ trace ⟨.shanghai, .rp1⟩).length = 4 := by
    decide +kernel
  rw [length] at kept stop
  exact ⟨trace, dist, queue, window, reached, here, found, length, kept, stop⟩

end Distributor

end FleetRing
