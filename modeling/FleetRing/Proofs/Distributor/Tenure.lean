import FleetRing.Proofs.Distributor.Retention

/-!
# What a client holds, it keeps

A store that has an owner keeps it, and hosts never leave a store. So a client that was
handed as many hosts as it requested holds as many ever after. Together with soundness
and with what a client's queue retains, this says who owns which store and which queue
in every reachable state (`tenure`).
-/

namespace FleetRing

/-- A store keeps its owner and loses no host. -/
structure VirtualStore.Stays (store after : VirtualStore) : Prop where
  hosts : store.hosts ≤ after.hosts
  owner : ∀ owner, store.owner = some owner → after.owner = some owner

namespace VirtualStore.Stays

variable {store middle after : VirtualStore}

theorem refl (store : VirtualStore) : store.Stays store :=
  ⟨Nat.le_refl _, fun _ owns => owns⟩

theorem trans (first : store.Stays middle) (second : middle.Stays after) : store.Stays after :=
  ⟨Nat.le_trans first.hosts second.hosts,
    fun owner owns => second.owner owner (first.owner owner owns)⟩

/-- Handing out a store that nobody owns. -/
theorem of_unassigned (free : store.isAssigned = false) (owner : Option Owner) :
    store.Stays { store with owner } := by
  refine ⟨Nat.le_refl _, fun other owns => ?_⟩
  simp [VirtualStore.isAssigned, owns] at free

/-- Taking in an update. -/
theorem apply (store : VirtualStore) (token : Token) (update : Update) :
    store.Stays (store.apply token update).1 := by
  obtain ⟨-, -, -, owner⟩ := store.apply_frame token update
  refine ⟨?_, fun other owns => owner.trans owns⟩
  rw [VirtualStore.hosts_apply]
  split <;> omega

end VirtualStore.Stays

namespace Distributor

variable {config : Config} {start dist next : Distributor} {client : String} {held : Client}
  {shown trace : Trace}

/-- No id was given twice, and every queue belongs to a client. -/
structure Enrolled (dist : Distributor) : Prop where
  ids : (dist.clients.map Prod.fst).Nodup
  client : ∀ (number : Nat) (queue : ClientQueue), dist.queues.get? number = some queue →
    ∃ held, dist.client? queue.client = some held ∧ held.queue = number

/-- Unless a client is registered, queues stay those of their clients. -/
theorem Enrolled.keep (enrolled : dist.Enrolled) (clients : next.clients = dist.clients)
    (names : ∀ number queue, next.queues.get? number = some queue →
      ∃ before, dist.queues.get? number = some before ∧ queue.client = before.client) :
    next.Enrolled where
  ids := clients ▸ enrolled.ids
  client number queue here := by
    obtain ⟨before, there, name⟩ := names number queue here
    rw [name, client?, clients]
    exact enrolled.client number before there

/-- A queue that is changed in place stays that of its client. -/
theorem names_modify {table : QueueTable} {number : Nat} {change : ClientQueue → ClientQueue}
    (same : ∀ queue, table.get? number = some queue → (change queue).client = queue.client)
    (other : Nat) (queue : ClientQueue)
    (here : (table.modify number change).get? other = some queue) :
    ∃ before, table.get? other = some before ∧ queue.client = before.client := by
  rw [QueueTable.get?_modify] at here
  split at here
  · next asked =>
    obtain ⟨before, there, rfl⟩ := Option.map_eq_some_iff.mp here
    exact ⟨before, asked ▸ there, same before there⟩
  · exact ⟨queue, here, rfl⟩

/-- Every move keeps clients and queues together. -/
theorem Enrolled.move (enrolled : dist.Enrolled) (move : Move dist shown next) :
    next.Enrolled := by
  cases move with
  | @register client requested granted =>
    obtain ⟨assigned, after, -, -, -, same⟩ := dist.allocate_spec client requested
    have fresh := (client?_of_granted granted).1
    have lookup := client?_of_clients (congrArg Distributor.clients same)
    rw [same] at lookup ⊢
    constructor
    · refine List.nodup_cons.mpr ⟨fun listed => ?_, enrolled.ids⟩
      obtain ⟨entry, member, rfl⟩ := List.mem_map.mp listed
      simpa using List.lookup_eq_none_iff.mp fresh entry member
    · intro number queue here
      rw [lookup]
      rw [QueueTable.get?_add_eq] at here
      split at here
      · next last =>
        obtain rfl := Option.some.inj here
        obtain ⟨steps, schedule, -⟩ := dist.openedQueue_steps client requested
        exact ⟨_, if_pos schedule.settings.2.1, last.symm⟩
      · obtain ⟨held, found, number_eq⟩ := enrolled.client number queue here
        exact ⟨held, by rw [if_neg (ne_of_granted granted found), found], number_eq⟩
  | @submit update resolved =>
    refine enrolled.keep rfl fun number queue here => ?_
    rcases NodeStore.submit_cases dist.nodes dist.queues update with
      ⟨-, same⟩ | ⟨k, target, -, -, -, -, same⟩
    · simp only [submit, same] at here
      exact ⟨queue, here, rfl⟩
    · simp only [submit, same] at here
      split at here
      · refine names_modify (fun before _ => ?_) number queue here
        split
        · exact (ClientQueue.sameRetention_push before update).client
        · rfl
      · exact ⟨queue, here, rfl⟩
  | watch accepted =>
    obtain ⟨held, before, opened, -, -, there, answer, -, rfl⟩ := watchFrom_eq_ok.mp accepted
    refine enrolled.keep rfl (names_modify fun queue here => ?_)
    obtain rfl := Option.some.inj (there.symm.trans here)
    obtain ⟨replay, replayed⟩ := ClientQueue.exists_replay answer
    exact (ClientQueue.Step.watch replayed answer).sameRetention.client
  | serve found service moved =>
    refine enrolled.keep rfl (names_modify fun queue here => ?_)
    obtain rfl := Option.some.inj (found.symm.trans here)
    exact (ClientQueue.Steps.refl.step moved).settings.2.1
  | administer => exact enrolled.keep rfl fun number queue here => ⟨queue, here, rfl⟩

theorem Reachable.enrolled (reached : Reachable config trace dist) : dist.Enrolled := by
  obtain ⟨start, created, run⟩ := reached
  have moves := run.moves
  have first : start.Enrolled := by
    obtain ⟨-, topology, -, rfl⟩ := create_eq_ok created
    exact ⟨List.nodup_nil, fun number queue here => by simp [QueueTable.get?] at here⟩
  clear run
  induction moves with
  | refl => exact first
  | step prior transition ih => exact ih.move transition

/-- Where keys are distinct, what is listed is what is found. -/
theorem mem_iff_lookup {α : Type} {entries : List (String × α)} {key : String} {value : α}
    (distinct : (entries.map Prod.fst).Nodup) :
    (key, value) ∈ entries ↔ entries.lookup key = some value := by
  induction entries with
  | nil => simp
  | cons entry entries ih =>
    obtain ⟨absent, distinct⟩ := List.nodup_cons.mp distinct
    rw [List.mem_cons, List.lookup_cons, ih distinct]
    by_cases here : key = entry.1
    · subst here
      have nowhere : entries.lookup entry.1 = none :=
        List.lookup_eq_none_iff.mpr fun other member => by
          simpa using fun same => absent (List.mem_map.mpr ⟨other, member, same.symm⟩)
      simp [nowhere, Prod.ext_iff, eq_comm]
    · simp [here, beq_eq_false_iff_ne.mpr here, Prod.ext_iff]

theorem Enrolled.mem_clients_iff (enrolled : dist.Enrolled) :
    (client, held) ∈ dist.clients ↔ dist.client? client = some held :=
  mem_iff_lookup enrolled.ids

/-- No store is held twice, by one client or by two. -/
theorem Sound.nodup_stores (sound : dist.Sound) (enrolled : dist.Enrolled) :
    (dist.clients.flatMap (·.2.stores)).Nodup := by
  refine List.nodup_flatMap.mpr ⟨fun entry member => ?_, ?_⟩
  · exact sound.unique entry.1 entry.2 (enrolled.mem_clients_iff.mp member)
  · have distinct := List.pairwise_map.mp enrolled.ids
    refine distinct.imp_of_mem fun {one two} oneMember twoMember different => ?_
    intro k mine theirs
    have oneFound := enrolled.mem_clients_iff.mp oneMember
    have twoFound := enrolled.mem_clients_iff.mp twoMember
    obtain ⟨target, here, owner⟩ := sound.held one.1 one.2 k oneFound mine
    obtain ⟨again, there, other⟩ := sound.held two.1 two.2 k twoFound theirs
    obtain rfl := Option.some.inj (here.symm.trans there)
    exact different (congrArg Owner.client (Option.some.inj (owner.symm.trans other)))

/-- Every move leaves a store where it is. -/
theorem stays_of_move (move : Move dist shown next) {k : Nat} {store : VirtualStore}
    (here : dist.nodes.stores[k]? = some store) :
    ∃ after, next.nodes.stores[k]? = some after ∧ store.Stays after := by
  cases move with
  | @register client requested granted =>
    obtain ⟨assigned, stores, hands, -, -, same⟩ := dist.allocate_spec client requested
    simp only [same, hands.getElem?_eq, here]
    split
    · next member =>
      obtain ⟨free, there, unassigned⟩ := hands.free k member
      obtain rfl := Option.some.inj (here.symm.trans there)
      exact ⟨_, rfl, .of_unassigned unassigned _⟩
    · exact ⟨store, rfl, .refl store⟩
  | @submit update resolved =>
    rw [nodes_submit]
    cases accepted : dist.nodes.acceptor? update with
    | none => exact ⟨store, by rwa [NodeStore.absorb_of_refused accepted], .refl store⟩
    | some i =>
      obtain ⟨target, -, there, -, same⟩ := NodeStore.absorb_of_accepted accepted
      rw [same, NodeStore.getElem?_replace there]
      split
      · next asked =>
        subst asked
        obtain rfl := Option.some.inj (here.symm.trans there)
        exact ⟨_, rfl, .apply store _ update⟩
      · exact ⟨store, here, .refl store⟩
  | watch accepted =>
    obtain ⟨held, before, opened, -, -, -, -, -, rfl⟩ := watchFrom_eq_ok.mp accepted
    exact ⟨store, here, .refl store⟩
  | serve found service moved => exact ⟨store, here, .refl store⟩
  | administer => exact ⟨store, here, .refl store⟩

/-- So does every run. -/
theorem stays_of_moves (run : Moves dist trace next) {k : Nat} {store : VirtualStore}
    (here : dist.nodes.stores[k]? = some store) :
    ∃ after, next.nodes.stores[k]? = some after ∧ store.Stays after := by
  induction run with
  | refl => exact ⟨store, here, .refl store⟩
  | step prior transition ih =>
    obtain ⟨middle, there, first⟩ := ih
    obtain ⟨after, found, second⟩ := stays_of_move transition there
    exact ⟨after, found, first.trans second⟩

/-- Stores that stay hold as many hosts as before. -/
theorem hostsAt_le {stores after : Array VirtualStore} {indices : List Nat}
    (stay : ∀ (k : Nat) (store : VirtualStore), stores[k]? = some store →
      ∃ other, after[k]? = some other ∧ store.Stays other) :
    hostsAt stores indices ≤ hostsAt after indices := by
  induction indices with
  | nil => exact Nat.le_refl _
  | cons k rest ih =>
    rw [hostsAt_cons, hostsAt_cons]
    refine Nat.add_le_add ?_ ih
    cases here : stores[k]? with
    | none => exact Nat.zero_le _
    | some store =>
      obtain ⟨other, there, stays⟩ := stay k store here
      simpa [there] using stays.hosts

/-- A client with an id is given as many hosts as it requests. -/
theorem le_hosts_of_register {now : Time} {requested : Nat} (named : client ≠ "")
    (accepted : dist.register now client requested = .ok next) :
    ∃ held, next.client? client = some held ∧
      requested ≤ hostsAt next.nodes.stores held.stores := by
  have registers : Step dist _ next := .register accepted
  obtain ⟨granted, versions, metrics, breaker, backend, rfl⟩ := register_eq_ok accepted
  obtain ⟨assigned, after, -, -, selects, same⟩ := dist.allocate_spec client requested
  have lookup := client?_of_clients (congrArg Distributor.clients same) client
  refine ⟨_, lookup.trans (if_pos rfl), Nat.le_trans (le_hostsAt_selection granted) ?_⟩
  rw [selects named]
  exact hostsAt_le fun k store here => stays_of_moves registers.moves here

/-- A step that makes a client known is its registration. -/
theorem registers_of_step (transition : Step dist shown next) (unknown : dist.client? client = none)
    (found : next.client? client = some held) :
    ∃ now requested, dist.register now client requested = .ok next := by
  have keeps : next.client? client = dist.client? client → False := by
    intro same
    rw [same, unknown] at found
    cases found
  cases transition with
  | @register now other requested _ accepted =>
    by_cases same : client = other
    · exact ⟨now, requested, same ▸ accepted⟩
    · obtain ⟨-, versions, metrics, breaker, backend, rfl⟩ := register_eq_ok accepted
      obtain ⟨assigned, after, -, -, -, allocated⟩ := dist.allocate_spec other requested
      have lookup := client?_of_clients (congrArg Distributor.clients allocated) client
      exact absurd (lookup.trans (if_neg same)) keeps
  | ingest now events => exact absurd rfl keeps
  | watch accepted =>
    obtain ⟨_, before, opened, -, -, -, -, -, rfl⟩ := watchFrom_eq_ok.mp accepted
    exact absurd rfl keeps
  | serve => exact absurd rfl keeps
  | disturb => exact absurd rfl keeps

/-- A client that is known was registered on the way. -/
theorem Reachable.exists_register (reached : Reachable config trace dist)
    (registered : dist.client? client = some held) :
    ∃ (earlier later : Trace) (before after : Distributor) (now : Time) (requested : Nat),
      Reachable config earlier before ∧ before.register now client requested = .ok after ∧
        Steps after later dist := by
  obtain ⟨start, created, run⟩ := reached
  induction run generalizing held with
  | refl =>
    rw [client?_create created] at registered
    cases registered
  | @step trace shown state next prior transition ih =>
    cases known : state.client? client with
    | none =>
      obtain ⟨now, requested, accepted⟩ := registers_of_step transition known registered
      exact ⟨trace, [], state, next, now, requested, ⟨start, created, prior⟩, accepted, .refl⟩
    | some old =>
      obtain ⟨earlier, later, before, after, now, requested, reached, accepted, rest⟩ := ih known
      exact ⟨earlier, later ++ shown, before, after, now, requested, reached, accepted,
        rest.step transition⟩

/-- The clients of a fleet, its stores and its queues agree with each other. -/
structure Agrees (dist : Distributor) : Prop where
  /-- A store has a client as its owner exactly when it is among the client's stores. -/
  owner_iff : ∀ (client : String) (k : Nat),
    (∃ target owner, dist.nodes.stores[k]? = some target ∧ target.owner = some owner ∧
        owner.client = client) ↔
      ∃ held, dist.client? client = some held ∧ k ∈ held.stores
  /-- No client is listed twice, -/
  nodup_clients : (dist.clients.map Prod.fst).Nodup
  /-- and no store is held twice, by one client or by two. -/
  nodup_stores : (dist.clients.flatMap (·.2.stores)).Nodup
  /-- Every client has a queue, -/
  queue_of_client : ∀ (client : String) (held : Client), dist.client? client = some held →
    ∃ queue, dist.queues.get? held.queue = some queue ∧ queue.client = client
  /-- and every queue is that of a client. -/
  client_of_queue : ∀ (number : Nat) (queue : ClientQueue), dist.queues.get? number = some queue →
    ∃ held, dist.client? queue.client = some held ∧ held.queue = number
  /-- The queue that a store tells of its changes is alive, and is that of the store's owner. -/
  told : ∀ (k : Nat) (target : VirtualStore) (owner : Owner),
    dist.nodes.stores[k]? = some target → target.owner = some owner →
      ∃ held queue, dist.client? owner.client = some held ∧ held.queue = owner.queue ∧
        dist.queues.get? owner.queue = some queue ∧ queue.client = owner.client ∧
        queue.isAlive = true
  /-- A client with an id has windows of the locations of its stores and of no other, and none of
  them is empty. -/
  windows : ∀ (client : String) (held : Client), client ≠ "" →
    dist.client? client = some held → ∃ queue, dist.queues.get? held.queue = some queue ∧
      (∀ location, location ∈ queue.locations ↔
        ∃ store ∈ dist.storesOf held, store.location = location) ∧
      ∀ location ∈ queue.locations, 0 < queue.retained location

/-- What a reachable distributor holds for its clients agrees. -/
theorem Reachable.agrees (reached : Reachable config trace dist) : dist.Agrees := by
  have sound := reached.sound
  have enrolled := reached.enrolled
  refine ⟨fun client k => ?_, enrolled.ids, sound.nodup_stores enrolled,
    fun client held found => ?_, enrolled.client, fun k target owner here owns => ?_,
    fun client held named found => ?_⟩
  · constructor
    · rintro ⟨target, owner, here, owns, rfl⟩
      obtain ⟨held, found, -, member⟩ := sound.owner k target owner here owns
      exact ⟨held, found, member⟩
    · rintro ⟨held, found, member⟩
      obtain ⟨target, here, owns⟩ := sound.held client held k found member
      exact ⟨target, _, here, owns, rfl⟩
  · obtain ⟨queue, here, name, -⟩ := sound.queue client held found
    exact ⟨queue, here, name⟩
  · obtain ⟨held, found, number, -⟩ := sound.owner k target owner here owns
    obtain ⟨queue, there, name, owned, -⟩ := sound.queue owner.client held found
    exact ⟨held, queue, found, number, number ▸ there, name, by simp [ClientQueue.isAlive, owned]⟩
  · obtain ⟨queue, steps, here, schedule, retained, told⟩ := exists_retention reached named found
    refine ⟨queue, here, fun location => ?_, fun location listed => ?_⟩
    · rw [retained.mem_locations, told]
      by_cases standing : ∃ store ∈ dist.storesOf held, store.location = location
      · simp [standing, toldAt]
      · simp [standing]
    · have nonempty := retained.mem_locations.mp listed
      obtain ⟨window, there, capacity, items⟩ := retained.window nonempty
      have size := items.size_eq
      have some := List.length_pos_of_ne_nil nonempty
      simp only [ClientQueue.retained, there]
      omega

/-- What a later state keeps of who owns what. -/
structure Keeps (dist later : Distributor) : Prop where
  owner : ∀ (k : Nat) (target : VirtualStore) (owner : Owner),
    dist.nodes.stores[k]? = some target → target.owner = some owner →
      ∃ after, later.nodes.stores[k]? = some after ∧ after.owner = some owner
  client : ∀ (client : String) (held : Client), dist.client? client = some held →
    later.client? client = some held

/-- In every reachable state, clients, stores and queues agree about who owns what. What is owned
stays so whatever happens next, and every client with an id holds at least as many hosts as it
requested when it was registered. -/
theorem tenure (reached : Reachable config trace dist) :
    dist.Agrees ∧
      (∀ (more : Trace) (later : Distributor), Steps dist more later → dist.Keeps later) ∧
      ∀ (client : String) (held : Client), client ≠ "" → dist.client? client = some held →
        (∃ (earlier later : Trace) (before after : Distributor) (now : Time) (requested : Nat),
          Reachable config earlier before ∧ before.register now client requested = .ok after ∧
            Steps after later dist) ∧
        ∀ (later : Trace) (before after : Distributor) (now : Time) (requested : Nat),
          before.register now client requested = .ok after → Steps after later dist →
            requested ≤ ((dist.storesOf held).map (·.hosts)).sum := by
  refine ⟨reached.agrees, fun more later run => ⟨fun k target owner here owns => ?_,
    fun client held found => client?_of_moves run.moves found⟩, fun client held named found =>
    ⟨reached.exists_register found, fun later before after now requested accepted run => ?_⟩⟩
  · obtain ⟨after, there, stays⟩ := stays_of_moves run.moves here
    exact ⟨after, there, stays.owner owner owns⟩
  · obtain ⟨given, known, enough⟩ := le_hosts_of_register named accepted
    obtain rfl := Option.some.inj (found.symm.trans (client?_of_moves run.moves known))
    exact Nat.le_trans enough (hostsAt_le fun k store here => stays_of_moves run.moves here)

/-- In the small fleet, one client has requested a host and holds both stores. -/
theorem tenure_small :
    smallTaken.Agrees ∧ smallTaken.client? "d" = some ⟨0, [0, 1]⟩ ∧
      (∀ (more : Trace) (later : Distributor), Steps smallTaken more later →
        later.client? "d" = some ⟨0, [0, 1]⟩) ∧
      1 ≤ ((smallTaken.storesOf ⟨0, [0, 1]⟩).map (·.hosts)).sum := by
  obtain ⟨agrees, keeps, entitled⟩ := tenure smallTaken_reachable
  obtain ⟨-, enough⟩ := entitled "d" _ (by decide) smallTaken_client
  exact ⟨agrees, smallTaken_client,
    fun more later run => (keeps more later run).client "d" _ smallTaken_client,
    enough [] smallStocked smallTaken 0 1 smallStocked_register .refl⟩

end Distributor

end FleetRing
