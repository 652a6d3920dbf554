import FleetRing.Proofs.Distributor.Allocation
import FleetRing.Proofs.Distributor.Run
import FleetRing.Proofs.Store.Splitting

/-!
# Who owns what

`Distributor.Sound` ties the stores of a fleet to its clients: a store names a
client as its owner exactly when the client was handed it, and the queue that is
told of its changes is that client's own. It holds in every reachable state.

`allocate_spec`, `watchFrom_eq_ok` and `watchFrom_eq_error` say all that a registration and a
watch do.
-/

namespace FleetRing

namespace QueueTable

variable {table : QueueTable} {number : Nat}

/-- A new queue comes last. -/
theorem get?_add_eq (table : QueueTable) (added : ClientQueue) (number : Nat) :
    (table.add added).2.get? number =
      if number = table.queues.size then some added else table.get? number := by
  simp only [get?, add, Array.getElem?_push]

/-- It does not hide an old one. -/
theorem get?_add {queue added : ClientQueue} (found : table.get? number = some queue) :
    (table.add added).2.get? number = some queue := by
  have bound : number < table.queues.size := (Array.getElem?_eq_some_iff.mp found).1
  rw [get?_add_eq, if_neg (Nat.ne_of_lt bound), found]

theorem get?_added (added : ClientQueue) :
    (table.add added).2.get? table.queues.size = some added := by
  rw [get?_add_eq, if_pos rfl]

end QueueTable

namespace Distributor

/-- The stores of a fleet and its clients agree on who owns what. -/
structure Sound (dist : Distributor) : Prop where
  nodes : dist.nodes.Sound
  /-- Every client has a queue of its own, which it keeps alive. -/
  queue : ∀ (client : String) (held : Client), dist.client? client = some held →
    ∃ queue, dist.queues.get? held.queue = some queue ∧ queue.client = client ∧
      queue.owned = true ∧ queue.windowLength = dist.config.windowLength.toNat
  /-- An owner is a client that was handed the store. -/
  owner : ∀ (k : Nat) (target : VirtualStore) (owner : Owner), dist.nodes.stores[k]? = some target →
    target.owner = some owner →
      ∃ held, dist.client? owner.client = some held ∧ held.queue = owner.queue ∧ k ∈ held.stores
  /-- A store that was handed out names its client. -/
  held : ∀ (client : String) (held : Client) (k : Nat), dist.client? client = some held →
    k ∈ held.stores → ∃ target, dist.nodes.stores[k]? = some target ∧
      target.owner = some ⟨client, held.queue⟩
  /-- No store was handed out twice. -/
  unique : ∀ (client : String) (held : Client), dist.client? client = some held → held.stores.Nodup
  /-- A client with an id holds a node. -/
  stocked : ∀ (client : String) (held : Client), client ≠ "" → dist.client? client = some held →
    ∃ k ∈ held.stores, ∃ id stored, dist.nodes.find? k id = some stored

/-- The stores that a registration selects. -/
def selection (dist : Distributor) (client : String) (requested : Nat) : List Nat :=
  select dist.nodes.stores requested 0
    (cycle dist.nodes.stores.size (offsetOf client dist.nodes.stores.size))

/-- The queue that a registration opens. -/
def openedQueue (dist : Distributor) (client : String) (requested : Nat) : ClientQueue :=
  seed { client, windowLength := dist.config.windowLength.toNat }
    ((dist.selection client requested).filterMap fun k => (dist.nodes.stores[k]?).map (·.location))

/-- An allocation hands out what it selects, to a client with an id, and opens a queue. -/
theorem allocate_spec (dist : Distributor) (client : String) (requested : Nat) :
    ∃ assigned after, Hands ⟨client, dist.queues.queues.size⟩ dist.nodes.stores assigned after ∧
      assigned.Nodup ∧ (client ≠ "" → assigned = dist.selection client requested) ∧
      (dist.allocate client requested).2 = { dist with
        nodes := { dist.nodes with stores := after }
        queues := (dist.queues.add (dist.openedQueue client requested)).2
        clients := (client, ⟨dist.queues.queues.size, assigned⟩) :: dist.clients } := by
  have free : ∀ k ∈ dist.selection client requested, ∃ store, IsFree dist.nodes.stores k store :=
    fun k member => isFree_of_mem_select member
  have unique : (dist.selection client requested).Nodup :=
    (nodup_cycle _ _).sublist (select_sublist _ _ _ _)
  by_cases named : client = ""
  · subst named
    have nothing := assignAll_unnamed dist.queues.queues.size dist.nodes.stores
      (dist.selection "" requested)
    refine ⟨[], dist.nodes.stores, ⟨by simp, by simp⟩, List.nodup_nil,
      fun named => absurd rfl named, ?_⟩
    simp only [allocate, QueueTable.add]
    rw [show select dist.nodes.stores requested 0 (cycle dist.nodes.stores.size
      (offsetOf "" dist.nodes.stores.size)) = dist.selection "" requested from rfl, nothing]
    rfl
  · obtain ⟨assigned, hands⟩ := assignAll_spec named dist.queues.queues.size unique free
    refine ⟨dist.selection client requested, _, hands, unique, fun _ => rfl, ?_⟩
    have same : (dist.allocate client requested).2.clients = (client, ⟨dist.queues.queues.size,
        (assignAll client dist.queues.queues.size dist.nodes.stores
          (dist.selection client requested)).2⟩) :: dist.clients := rfl
    rw [assigned] at same
    rw [← same]
    rfl

/-- A registered client is found, and every other one as before. -/
theorem client?_of_clients {dist next : Distributor} {client : String} {held : Client}
    (clients : next.clients = (client, held) :: dist.clients) (other : String) :
    next.client? other = if other = client then some held else dist.client? other := by
  rw [client?, clients, List.lookup_cons]
  by_cases same : other = client
  · simp [same]
  · simp [same, beq_eq_false_iff_ne.mpr same, client?]

/-- A registration that is granted is for a new client. -/
theorem client?_of_granted {dist : Distributor} {client : String} {requested : Nat}
    (granted : dist.refusal? client requested = none) :
    dist.client? client = none ∧ 0 < requested ∧ dist.nodes.hasFree requested = true := by
  simp only [refusal?] at granted
  split at granted
  · cases granted
  · next above =>
    split at granted
    · cases granted
    · split at granted
      · cases granted
      · next covered =>
        split at granted
        · cases granted
        · next fresh => exact ⟨by simpa using fresh, by omega, by simpa using covered⟩

/-- So it is not the registration of a client that is known. -/
theorem ne_of_granted {dist : Distributor} {client other : String} {held : Client}
    {requested : Nat} (granted : dist.refusal? other requested = none)
    (found : dist.client? client = some held) : client ≠ other := by
  rintro rfl
  rw [(client?_of_granted granted).1] at found
  cases found

/-- Handing out stores changes nothing but owners. -/
theorem vacated_of_hands {nodes : NodeStore} {owner : Owner} {assigned : List Nat}
    {after : Array VirtualStore} (hands : Hands owner nodes.stores assigned after) :
    ({ nodes with stores := after } : NodeStore).vacated = nodes.vacated := by
  have same : after.map (·.vacated) = nodes.stores.map (·.vacated) := by
    refine Array.ext_getElem? fun k => ?_
    rw [Array.getElem?_map, Array.getElem?_map, hands.getElem?_eq]
    split
    · rw [Option.map_map]
      rfl
    · rfl
  simp only [NodeStore.vacated, same]

/-- A watch that is accepted is one of the client's own queue. -/
theorem watchFrom_eq_ok {dist next : Distributor} {client : String}
    {floors : List (Location × Version)} {capacity number watch : Nat} :
    dist.watchFrom client floors capacity = .ok (number, watch, next) ↔
      ∃ held queue opened, dist.client? client = some held ∧ floors.isEmpty = false ∧
        dist.queues.get? held.queue = some queue ∧
        queue.watchFrom floors capacity = .ok (watch, opened) ∧ number = held.queue ∧
        next = { dist with queues := dist.queues.modify held.queue fun _ => opened } := by
  constructor
  · intro accepted
    simp only [Distributor.watchFrom] at accepted
    split at accepted
    · cases accepted
    · next held found =>
      split at accepted
      · cases accepted
      · next nonempty =>
        split at accepted
        · cases accepted
        · next queue here =>
          split at accepted
          · cases accepted
          · next id opened answer =>
            obtain ⟨rfl, rest⟩ := Prod.mk.inj (Except.ok.inj accepted)
            obtain ⟨rfl, rfl⟩ := Prod.mk.inj rest
            exact ⟨held, queue, opened, found, by simpa using nonempty, here, answer, rfl, rfl⟩
  · rintro ⟨held, queue, opened, found, nonempty, here, answer, rfl, rfl⟩
    simp [Distributor.watchFrom, found, nonempty, here, answer]

/-- A watch whose floors the client's queue does not answer is refused. -/
theorem watchFrom_eq_error {dist : Distributor} {client : String} {held : Client}
    {queue : ClientQueue} {floors : List (Location × Version)} {error : Error}
    (found : dist.client? client = some held) (nonempty : floors.isEmpty = false)
    (here : dist.queues.get? held.queue = some queue) (idle : queue.isWatching = false)
    (refused : queue.replay floors = .error error) (capacity : Nat) :
    dist.watchFrom client floors capacity = .error (.core error) := by
  simp [Distributor.watchFrom, found, nonempty, here, ClientQueue.watchFrom, idle, refused]

end Distributor

namespace ClientQueue

/-- A watch that is accepted replays something. -/
theorem exists_replay {queue next : ClientQueue} {floors : List (Location × Version)}
    {capacity watch : Nat} (accepted : queue.watchFrom floors capacity = .ok (watch, next)) :
    ∃ replay, queue.replay floors = .ok replay := by
  simp only [watchFrom] at accepted
  split at accepted
  · cases accepted
  · split at accepted
    · cases accepted
    · next replayed => exact ⟨_, replayed⟩

end ClientQueue

end FleetRing
