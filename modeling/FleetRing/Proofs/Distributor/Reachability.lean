import FleetRing.Proofs.Distributor.Projection

/-!
# Reachable states

Every reachable distributor is `Sound`. Consequently a run from any reachable state
is a schedule of each client's queue (`Sound.follows`), and a run from creation
splits at the registration of a client (`exists_registration`).
-/

namespace FleetRing

namespace Distributor

section Soundness

variable {dist next : Distributor} {shown trace : Trace}

/-- A registration opens a queue by pushing one bookmark for each location. -/
theorem openedQueue_steps (dist : Distributor) (client : String) (requested : Nat) :
    ∃ steps, ClientQueue.Steps { client, windowLength := dist.config.windowLength.toNat } steps
        (dist.openedQueue client requested) ∧
      ClientQueue.pushes steps = ((dist.selection client requested).filterMap fun k =>
        (dist.nodes.stores[k]?).map (·.location)).eraseDups.map Update.bookmark := by
  have whole := ClientQueue.Steps.exists_pushes
    { client, windowLength := dist.config.windowLength.toNat }
    (((dist.selection client requested).filterMap fun k =>
      (dist.nodes.stores[k]?).map (·.location)).eraseDups.map Update.bookmark)
  rwa [List.foldl_map] at whole

/-- What becomes of the nodes does not depend on the queues. -/
theorem nodes_submit (dist : Distributor) (update : Update) :
    (dist.submit update).nodes = dist.nodes.absorb update :=
  NodeStore.submit_fst dist.nodes dist.queues update

/-- An update is found where it is applied, and every other node as before. -/
theorem find?_submit (dist : Distributor) (update : Update) (k : Nat) (id : String) :
    (dist.submit update).nodes.find? k id =
      if dist.nodes.acceptor? update = some k ∧ id = update.node.id then some update.toStored
      else dist.nodes.find? k id := by
  rw [nodes_submit, NodeStore.find?_absorb_acceptor]

/-- A node stays for ever, and its version never decreases. -/
theorem grows_submit (dist : Distributor) (update : Update) {k : Nat} {id : String}
    {stored : StoredNode} (found : dist.nodes.find? k id = some stored) :
    ∃ later, (dist.submit update).nodes.find? k id = some later ∧
      stored.version ≤ later.version := by
  rw [find?_submit]
  split
  · next here =>
    obtain ⟨accepted, rfl⟩ := here
    exact ⟨_, rfl, UInt64.le_of_lt (NodeStore.older_of_acceptor accepted found)⟩
  · exact ⟨stored, found, UInt64.le_refl _⟩

/-- Submitting an update changes no owner. -/
theorem owner_submit (dist : Distributor) (update : Update) (k : Nat) :
    ((dist.submit update).nodes.stores[k]?).map (·.owner) =
      (dist.nodes.stores[k]?).map (·.owner) := by
  rw [nodes_submit, NodeStore.owner_absorb]

/-- A move that registers nobody keeps a distributor sound, when owners stay and nodes are not
given up. -/
theorem Sound.keep (sound : dist.Sound) (move : Move dist shown next) (nodes : next.nodes.Sound)
    (clients : next.clients = dist.clients) (config : next.config = dist.config)
    (owners : ∀ k : Nat,
      (next.nodes.stores[k]?).map (·.owner) = (dist.nodes.stores[k]?).map (·.owner))
    (grows : ∀ k id stored, dist.nodes.find? k id = some stored →
      ∃ later, next.nodes.find? k id = some later) : next.Sound := by
  have same : ∀ client, next.client? client = dist.client? client := by
    intro client
    rw [client?, clients, client?]
  refine ⟨nodes, fun client held found => ?_, fun k target owner here owns => ?_,
    fun client held k found member => ?_,
    fun client held found => sound.unique client held (same client ▸ found),
    fun client held named found => ?_⟩
  · rw [same] at found
    obtain ⟨queue, here, name, owned, length⟩ := sound.queue client held found
    obtain ⟨-, later, steps, there, schedule, -⟩ := sound.follow found here move
    obtain ⟨length', name', owned'⟩ := schedule.settings
    exact ⟨later, there, name'.trans name, owned'.trans owned, by rw [length', length, config]⟩
  · have before := owners k
    rw [here, Option.map_some, owns] at before
    obtain ⟨old, there, oldOwner⟩ := Option.map_eq_some_iff.mp before.symm
    rw [same]
    exact sound.owner k old owner there oldOwner
  · rw [same] at found
    obtain ⟨old, there, oldOwner⟩ := sound.held client held k found member
    have after := owners k
    rw [there, Option.map_some, oldOwner] at after
    exact Option.map_eq_some_iff.mp after
  · rw [same] at found
    obtain ⟨k, member, id, stored, there⟩ := sound.stocked client held named found
    obtain ⟨later, after⟩ := grows k id stored there
    exact ⟨k, member, id, later, after⟩

/-- What a registration selects holds as many hosts as are requested. -/
theorem le_hostsAt_selection {client : String} {requested : Nat}
    (granted : dist.refusal? client requested = none) :
    requested ≤ hostsAt dist.nodes.stores (dist.selection client requested) :=
  le_hostsAt_of_hasFree (client?_of_granted granted).2.2 _

/-- A client with an id is handed a node. -/
theorem exists_node_of_selection (sound : dist.Sound) {client : String} {requested : Nat}
    (granted : dist.refusal? client requested = none) :
    ∃ k ∈ dist.selection client requested, ∃ id stored, dist.nodes.find? k id = some stored := by
  have enough := Nat.lt_of_lt_of_le (client?_of_granted granted).2.1 (le_hostsAt_selection granted)
  obtain ⟨k, member, target, here, hosts⟩ := exists_host_of_hostsAt enough
  rw [sound.nodes.counted k target here] at hosts
  obtain ⟨id, inside⟩ := List.exists_mem_of_length_pos hosts
  obtain ⟨stored, found⟩ :=
    Option.isSome_iff_exists.mp ((sound.nodes.maps k target here).mem_ids_iff.mp inside)
  exact ⟨k, member, id, stored, by simpa [NodeStore.find?, here] using found⟩

/-- A registration keeps a distributor sound. -/
theorem Sound.register (sound : dist.Sound) {client : String} {requested : Nat}
    (granted : dist.refusal? client requested = none) :
    (dist.allocate client requested).2.Sound := by
  obtain ⟨assigned, after, hands, once, selects, same⟩ := dist.allocate_spec client requested
  -- Every client is the new one or an old one, and so is every owner.
  have lookup := client?_of_clients (congrArg Distributor.clients same)
  rw [same] at lookup ⊢
  refine ⟨sound.nodes.congr (vacated_of_hands hands), fun other held found => ?_,
    fun k target owner here owns => ?_, fun other held k found member => ?_,
    fun other held found => ?_, fun other held named found => ?_⟩
  · rw [lookup] at found
    split at found
    · next new =>
      obtain rfl := Option.some.inj found
      obtain ⟨steps, schedule, -⟩ := dist.openedQueue_steps client requested
      obtain ⟨length, name, owned⟩ := schedule.settings
      exact ⟨_, QueueTable.get?_added _, name.trans new.symm, owned, length⟩
    · obtain ⟨queue, here, settings⟩ := sound.queue other held found
      exact ⟨queue, QueueTable.get?_add here, settings⟩
  · rw [lookup]
    rcases hands.owner_cases here owns with ⟨member, rfl⟩ | there
    · exact ⟨_, if_pos rfl, rfl, member⟩
    · obtain ⟨held, found, rest⟩ := sound.owner k target owner there owns
      exact ⟨held, by rw [if_neg (ne_of_granted granted found), found], rest⟩
  · rw [lookup] at found
    split at found
    · next new =>
      obtain rfl := Option.some.inj found
      rw [new]
      exact hands.given member
    · obtain ⟨target, here, owner⟩ := sound.held other held k found member
      exact ⟨target, hands.kept here owner, owner⟩
  · rw [lookup] at found
    split at found
    · obtain rfl := Option.some.inj found
      exact once
    · exact sound.unique other held found
  · rw [lookup] at found
    simp only [NodeStore.find?_eq_of_vacated (vacated_of_hands hands)]
    split at found
    · next new =>
      obtain rfl := Option.some.inj found
      rw [selects (new ▸ named)]
      exact exists_node_of_selection sound granted
    · exact sound.stocked other held named found

/-- Every move keeps a distributor sound. -/
theorem Sound.move (sound : dist.Sound) (move : Move dist shown next) : next.Sound := by
  cases move with
  | register granted => exact sound.register granted
  | @submit update resolved =>
    refine sound.keep (.submit resolved) (sound.nodes.submit dist.queues resolved) rfl rfl
      (dist.owner_submit update) fun k id stored found => ?_
    obtain ⟨later, there, -⟩ := dist.grows_submit update found
    exact ⟨later, there⟩
  | watch accepted =>
    have move : Move dist _ _ := .watch accepted
    obtain ⟨held, before, opened, -, -, there, answer, rfl, rfl⟩ := watchFrom_eq_ok.mp accepted
    exact sound.keep move sound.nodes rfl rfl (fun _ => rfl) fun _ _ stored found => ⟨stored, found⟩
  | serve found service moved =>
    exact sound.keep (.serve found service moved) sound.nodes rfl rfl (fun _ => rfl)
      fun _ _ stored found => ⟨stored, found⟩
  | administer versions metrics breaker backend =>
    have nodes := sound.nodes
    exact sound.keep (.administer versions metrics breaker backend)
      ⟨⟨nodes.laid.positive, nodes.laid.location_eq⟩, nodes.maps, nodes.counted, nodes.home⟩
      rfl rfl (fun _ => rfl) fun _ _ stored found => ⟨stored, found⟩

/-- So does every run. -/
theorem Sound.moves (sound : dist.Sound) (run : Moves dist trace next) : next.Sound := by
  induction run with
  | refl => exact sound
  | step prior transition ih => exact ih.move transition

/-- What creation makes. -/
theorem create_eq_ok {config : Config} {start : Distributor} (created : create config = .ok start) :
    config.fault? = none ∧ ∃ topology, 0 < config.virtualStores.toNat ∧
      start = { config, nodes := .ofTopology topology config.virtualStores.toNat } := by
  unfold create at created
  split at created
  · cases created
  · next faultless =>
    refine ⟨faultless, ?_⟩
    split at created
    · next nodes made =>
      obtain rfl := Except.ok.inj created
      obtain ⟨positive, topology, -, -, rfl⟩ := NodeStore.create_eq_ok.mp made
      exact ⟨topology, positive, rfl⟩
    · cases created

/-- A new distributor has no clients. -/
theorem client?_create {config : Config} {start : Distributor} (created : create config = .ok start)
    (client : String) : start.client? client = none := by
  obtain ⟨-, topology, -, rfl⟩ := create_eq_ok created
  rfl

/-- A new distributor holds no node. -/
theorem find?_create {config : Config} {start : Distributor} (created : create config = .ok start)
    (k : Nat) (id : String) : start.nodes.find? k id = none := by
  obtain ⟨-, topology, -, rfl⟩ := create_eq_ok created
  exact NodeStore.find?_ofTopology topology _ k id

/-- A new distributor is sound. -/
theorem sound_create {config : Config} {start : Distributor} (created : create config = .ok start) :
    start.Sound := by
  have nobody := client?_create created
  obtain ⟨-, topology, positive, rfl⟩ := create_eq_ok created
  refine ⟨NodeStore.sound_ofTopology topology positive, fun client held found => ?_,
    fun k target owner here owns => ?_, fun client held k found => ?_,
    fun client held found => ?_, fun client held named found => ?_⟩
  · rw [nobody] at found
    cases found
  · simp only [NodeStore.ofTopology, List.getElem?_toArray, List.getElem?_map,
      Option.map_eq_some_iff] at here
    obtain ⟨entry, -, rfl⟩ := here
    cases owns
  · rw [nobody] at found
    cases found
  · rw [nobody] at found
    cases found
  · rw [nobody] at found
    cases found

end Soundness

section Runs

variable {start dist next : Distributor} {client : String} {held : Client} {queue : ClientQueue}
  {trace shown : Trace}

/-- Every run is, to a client, a schedule of its queue. -/
theorem Sound.follows (sound : dist.Sound) (found : dist.client? client = some held)
    (here : dist.queues.get? held.queue = some queue) (run : Moves dist trace next) :
    Follows client held queue trace next := by
  induction run with
  | refl => exact ⟨found, queue, [], here, .refl, .nil⟩
  | step prior transition ih =>
    obtain ⟨found, middle, steps, there, schedule, mirrors⟩ := ih
    obtain ⟨found, later, more, after, further, also⟩ :=
      (sound.moves prior).follow found there transition
    exact ⟨found, later, steps ++ more, after, schedule.trans further, mirrors.append also⟩

/-- No move changes the configuration. -/
theorem config_of_move (move : Move dist shown next) : next.config = dist.config := by
  cases move with
  | @register client requested granted =>
    obtain ⟨assigned, after, -, -, -, same⟩ := dist.allocate_spec client requested
    rw [same]
  | submit => rfl
  | watch accepted =>
    obtain ⟨held, before, opened, -, -, -, -, -, rfl⟩ := watchFrom_eq_ok.mp accepted
    rfl
  | serve => rfl
  | administer => rfl

theorem config_of_moves (run : Moves dist trace next) : next.config = dist.config := by
  induction run with
  | refl => rfl
  | step prior transition ih => exact (config_of_move transition).trans ih

/-- A move submits an update, or leaves every node as it is. -/
theorem submits_or_keeps (move : Move dist shown next) :
    (∃ update, update.Resolved ∧
        shown = [.submitted update (dist.nodes.acceptor? update)] ∧ next = dist.submit update) ∨
      ((∀ k id, next.nodes.find? k id = dist.nodes.find? k id) ∧
        ∀ update acceptor, .submitted update acceptor ∉ shown) := by
  cases move with
  | @register client requested granted =>
    obtain ⟨assigned, after, hands, -, -, same⟩ := dist.allocate_spec client requested
    refine .inr ⟨fun k id => ?_, by simp⟩
    rw [same]
    exact NodeStore.find?_eq_of_vacated (vacated_of_hands hands) k id
  | @submit update resolved => exact .inl ⟨update, resolved, rfl, rfl⟩
  | watch accepted =>
    obtain ⟨held, before, opened, -, -, -, -, -, rfl⟩ := watchFrom_eq_ok.mp accepted
    exact .inr ⟨fun _ _ => rfl, by simp⟩
  | serve => exact .inr ⟨fun _ _ => rfl, by simp⟩
  | administer => exact .inr ⟨fun _ _ => rfl, by simp⟩

/-- A node stays for ever, and its version never decreases, whatever is done. -/
theorem grows_moves (run : Moves dist trace next) {k : Nat} {id : String} {stored : StoredNode}
    (found : dist.nodes.find? k id = some stored) :
    ∃ later, next.nodes.find? k id = some later ∧ stored.version ≤ later.version := by
  induction run with
  | refl => exact ⟨stored, found, UInt64.le_refl _⟩
  | @step trace shown state next prior transition ih =>
    obtain ⟨middle, there, older⟩ := ih
    rcases submits_or_keeps transition with ⟨update, -, -, rfl⟩ | ⟨same, -⟩
    · obtain ⟨later, after, newer⟩ := state.grows_submit update there
      exact ⟨later, after, UInt64.le_trans older newer⟩
    · exact ⟨middle, (same k id).trans there, older⟩

/-- What a store once applied it still holds, unless it holds something newer under that id. -/
theorem stored_of_submitted (run : Moves start trace dist) {update : Update} {k : Nat}
    (member : .submitted update (some k) ∈ trace) :
    ∃ stored, dist.nodes.find? k update.node.id = some stored ∧
      update.version ≤ stored.version := by
  induction run with
  | refl => cases member
  | @step trace shown state next prior transition ih =>
    rcases List.mem_append.mp member with earlier | last
    · obtain ⟨stored, found, older⟩ := ih earlier
      obtain ⟨later, there, newer⟩ := grows_moves (.single transition) found
      exact ⟨later, there, UInt64.le_trans older newer⟩
    · rcases submits_or_keeps transition with ⟨other, -, rfl, rfl⟩ | ⟨-, silent⟩
      · obtain ⟨rfl, accepted⟩ : update = other ∧ some k = _ := by simpa using last
        exact ⟨_, (state.find?_submit update k update.node.id).trans (if_pos ⟨accepted.symm, rfl⟩),
          UInt64.le_refl _⟩
      · exact absurd last (silent update (some k))

/-- Conversely, everything that is held was applied at some point. -/
theorem submitted_of_stored (empty : ∀ k id, start.nodes.find? k id = none)
    (run : Moves start trace dist) {k : Nat} {id : String} {stored : StoredNode}
    (found : dist.nodes.find? k id = some stored) :
    ∃ update, .submitted update (some k) ∈ trace ∧ update.toStored = stored := by
  induction run with
  | refl =>
    rw [empty] at found
    cases found
  | @step trace shown state next prior transition ih =>
    have earlier : state.nodes.find? k id = some stored →
        ∃ update, .submitted update (some k) ∈ trace ++ shown ∧ update.toStored = stored := by
      intro before
      obtain ⟨update, member, same⟩ := ih before
      exact ⟨update, List.mem_append_left _ member, same⟩
    rcases submits_or_keeps transition with ⟨update, -, rfl, rfl⟩ | ⟨same, -⟩
    · rw [find?_submit] at found
      split at found
      · next here =>
        exact ⟨update, List.mem_append_right _ (by simp [here.1]), Option.some.inj found⟩
      · exact earlier found
    · exact earlier ((same k id).symm.trans found)

/-- A move registers a client, or leaves what is held for it. -/
theorem registers_or_keeps (client : String) (move : Move dist shown next) :
    (∃ requested, dist.refusal? client requested = none ∧ shown = [.registered client] ∧
        next = (dist.allocate client requested).2) ∨
      (next.client? client = dist.client? client ∧ .registered client ∉ shown) := by
  cases move with
  | @register other requested granted =>
    by_cases same : other = client
    · subst same
      exact .inl ⟨requested, granted, rfl, rfl⟩
    · have different : ¬ client = other := fun equal => same equal.symm
      obtain ⟨assigned, after, -, -, -, allocated⟩ := dist.allocate_spec other requested
      refine .inr ⟨?_, by simpa using different⟩
      exact (client?_of_clients (by rw [allocated]) client).trans (if_neg different)
  | submit resolved => exact .inr ⟨rfl, by simp⟩
  | watch accepted =>
    obtain ⟨held, before, opened, -, -, -, -, -, rfl⟩ := watchFrom_eq_ok.mp accepted
    exact .inr ⟨rfl, by simp⟩
  | serve found service moved => exact .inr ⟨rfl, by simp⟩
  | administer => exact .inr ⟨rfl, by simp⟩

/-- What is held for a client never changes. -/
theorem client?_of_moves (run : Moves dist trace next) (found : dist.client? client = some held) :
    next.client? client = some held := by
  induction run with
  | refl => exact found
  | step prior transition ih =>
    rcases registers_or_keeps client transition with ⟨requested, granted, -, -⟩ | ⟨same, -⟩
    · rw [(client?_of_granted granted).1] at ih
      cases ih
    · exact same.trans ih

/-- A client that is registered now and was not before was registered once on the way. -/
theorem exists_registration (sound : start.Sound) (run : Moves start trace dist)
    (unknown : start.client? client = none) :
    (dist.client? client = none ∧ .registered client ∉ trace) ∨
      ∃ earlier later before requested, Moves start earlier before ∧
        before.refusal? client requested = none ∧ .registered client ∉ earlier ∧
        Moves (before.allocate client requested).2 later dist ∧
        trace = earlier ++ .registered client :: later ∧
        ∃ held, dist.client? client = some held := by
  induction run with
  | refl => exact .inl ⟨unknown, by simp⟩
  | @step trace shown state next prior transition ih =>
    rcases ih with ⟨absent, unshown⟩ |
      ⟨earlier, later, before, requested, first, granted, fresh, rest, rfl, held, found⟩
    · rcases registers_or_keeps client transition with
        ⟨requested, granted, rfl, rfl⟩ | ⟨same, silent⟩
      · obtain ⟨assigned, after, -, -, -, allocated⟩ := state.allocate_spec client requested
        refine .inr ⟨trace, [], state, requested, prior, granted, unshown, .refl, rfl,
          ⟨state.queues.queues.size, assigned⟩, ?_⟩
        exact (client?_of_clients (by rw [allocated]) client).trans (if_pos rfl)
      · exact .inl ⟨same.trans absent, by simp [unshown, silent]⟩
    · obtain ⟨queue, here, -⟩ := (sound.moves prior).queue client held found
      obtain ⟨after, -⟩ := (sound.moves prior).follow found here transition
      exact .inr ⟨earlier, later ++ shown, before, requested, first, granted, fresh,
        rest.step transition, by simp, held, after⟩

namespace Reachable

variable {config : Config}

/-- Every reachable distributor is sound. -/
theorem sound (reached : Reachable config trace dist) : dist.Sound := by
  obtain ⟨start, created, run⟩ := reached
  exact (sound_create created).moves run.moves

/-- What a run leads to from a reachable distributor is reachable. -/
theorem trans (reached : Reachable config trace dist) (run : Steps dist shown next) :
    Reachable config (trace ++ shown) next := by
  obtain ⟨start, created, prior⟩ := reached
  exact ⟨start, created, prior.trans run⟩

/-- A client that is known was registered. -/
theorem registered (reached : Reachable config trace dist)
    (found : dist.client? client = some held) : .registered client ∈ trace := by
  obtain ⟨start, created, run⟩ := reached
  rcases exists_registration (sound_create created) run.moves (client?_create created client) with
    ⟨absent, -⟩ | ⟨earlier, later, before, requested, -, -, -, -, rfl, -⟩
  · rw [absent] at found
    cases found
  · simp

end Reachable

end Runs

end Distributor

end FleetRing
