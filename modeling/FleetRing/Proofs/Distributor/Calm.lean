import FleetRing.Proofs.Distributor.Census
import FleetRing.Proofs.Distributor.Undisturbed

/-!
# Undisturbed runs from creation

An undisturbed run from creation leads to a distributor that is known well (`Calm`): how many nodes
it holds, what it lists to a client (`Calm.listing_perm`), and what is received from a watch
(`Calm.carries`). All of that depends on the updates that came in and on the client that each node
is assigned to (`Distributor.clientOf?`).
-/

namespace FleetRing

/-- A location that is listed is one of the topology. -/
theorem Topology.within_of_mem {topology : Topology} {location : Location}
    (listed : location ∈ topology.locations) :
    location.region.index < topology.regions ∧
      location.partition.index < topology.partitions := by
  obtain ⟨i, -, found⟩ := List.mem_filterMap.mp listed
  have index := topology.indexOf?_of_locationAt? found
  unfold indexOf? at index
  split at index
  · next within => exact within
  · cases index

namespace Distributor

variable {config : Config} {start dist next : Distributor} {client : String} {held : Client}
  {updates : List Update} {trace : Trace} {watch capacity limit count : Nat} {node : Node}

/-- The client that the virtual store of a node is assigned to, if it is to one. -/
def clientOf? (dist : Distributor) (node : Node) : Option String := do
  let location ← node.location?
  let k ← dist.nodes.route? node.id location
  let store ← dist.nodes.stores[k]?
  let owner ← store.owner
  return owner.client

theorem clientOf?_eq_some : dist.clientOf? node = some client ↔
    ∃ location k store owner, node.location? = some location ∧
      dist.nodes.route? node.id location = some k ∧ dist.nodes.stores[k]? = some store ∧
      store.owner = some owner ∧ owner.client = client := by
  simp [clientOf?, Option.bind_eq_some_iff]

/-- It is the client that the node's updates reach. -/
theorem Reachable.reaches_eq (reached : Reachable config trace dist)
    (known : dist.client? client = some held) {update : Update} (resolved : update.Resolved) :
    dist.nodes.reaches held.stores update = decide (dist.clientOf? update.node = some client) := by
  rw [Bool.eq_iff_iff, decide_eq_true_eq, clientOf?_eq_some, NodeStore.reaches, Option.any_eq_true]
  simp only [decide_eq_true_eq]
  have owners := reached.agrees.owner_iff client
  constructor
  · rintro ⟨k, routed, member⟩
    obtain ⟨store, owner, here, owns, name⟩ := (owners k).mpr ⟨held, known, member⟩
    exact ⟨update.location, k, store, owner, resolved.location, routed, here, owns, name⟩
  · rintro ⟨location, k, store, owner, place, routed, here, owns, name⟩
    obtain rfl := Option.some.inj (resolved.location.symm.trans place)
    obtain ⟨given, found, member⟩ := (owners k).mp ⟨store, owner, here, owns, name⟩
    obtain rfl := Option.some.inj (known.symm.trans found)
    exact ⟨k, routed, member⟩

/-- It stays so. -/
theorem clientOf?_of_moves (run : Moves dist trace next)
    (given : dist.clientOf? node = some client) : next.clientOf? node = some client := by
  obtain ⟨location, k, store, owner, place, routed, here, owns, name⟩ := clientOf?_eq_some.mp given
  obtain ⟨ring, perLocation⟩ := plan_of_moves run
  obtain ⟨after, there, stays⟩ := stays_of_moves run here
  refine clientOf?_eq_some.mpr ⟨location, k, after, owner, place, ?_, there, stays.owner _ owns,
    name⟩
  simpa only [NodeStore.route?, NodeStore.locate?, ring, perLocation] using routed

/-- What an undisturbed run from creation leads to, with the updates that came in. -/
def Calm (config : Config) (updates : List Update) (dist : Distributor) : Prop :=
  ∃ start, create config = .ok start ∧ Chained Undisturbed start updates dist

/-- Whatever comes in has a type that carries state. -/
theorem Undisturbed.supported (undisturbed : Undisturbed dist updates next) :
    ∀ update ∈ updates, update.type.carriesState = true := by
  cases undisturbed with
  | register | watch | forward => simp
  | ingest now events =>
    intro update member
    obtain ⟨event, -, accepted⟩ := List.mem_filterMap.mp member
    obtain ⟨supported, made⟩ := accept?_eq_some accepted
    obtain ⟨-, rfl⟩ := Update.resolved_of_ofEvent made
    exact supported

namespace Calm

variable {more : List Update} (calm : Calm config updates dist)
include calm

theorem trans (run : Chained Undisturbed dist more next) : Calm config (updates ++ more) next := by
  obtain ⟨start, created, prior⟩ := calm
  exact ⟨start, created, prior.trans run⟩

theorem quietly (run : Chained Undisturbed dist [] next) : Calm config updates next := by
  have whole := calm.trans run
  rwa [List.append_nil] at whole

theorem supported : ∀ update ∈ updates, update.type.carriesState = true := by
  obtain ⟨start, -, run⟩ := calm
  induction run with
  | refl => simp
  | step prior transition ih => exact List.forall_mem_append.mpr ⟨ih, transition.supported⟩

theorem reachable : ∃ trace, Reachable config trace dist ∧ submitted trace = updates := by
  obtain ⟨start, created, run⟩ := calm
  obtain ⟨trace, steps, came, -⟩ := exists_steps run
  exact ⟨trace, ⟨start, created, steps⟩, came⟩

theorem sound : dist.Sound := by
  obtain ⟨trace, reached, -⟩ := calm.reachable
  exact reached.sound

/-- Locations stay what they were. -/
theorem ring_eq (created : create config = .ok start) : dist.nodes.ring = start.nodes.ring := by
  obtain ⟨first, alsoCreated, run⟩ := calm
  obtain rfl := Except.ok.inj (alsoCreated.symm.trans created)
  obtain ⟨trace, steps, -, -⟩ := exists_steps run
  exact (plan_of_moves steps.moves).1

/-- Everything that was to be persisted was. -/
theorem accounts :
    ∃ deeds, dist.Accounts deeds ∧ ∀ deed ∈ deeds, deed.outcome = .persisted := by
  obtain ⟨start, created, run⟩ := calm
  obtain ⟨-, deeds, works, persisted⟩ := (Unhindered.create created).run run
  exact ⟨deeds, (accounts_of_works created works).2, persisted⟩

/-- A watch carries all that is routed to its client's stores, if no node is reported older than
before and there is room. -/
theorem carries (known : dist.client? client = some held)
    (carries : dist.Carries held watch capacity limit count)
    (run : Chained Undisturbed dist more next) (orderly : Orderly (updates ++ more))
    (room : count + (more.filter (dist.nodes.reaches held.stores)).length ≤ limit) :
    next.Carries held watch capacity limit
      (count + (more.filter (dist.nodes.reaches held.stores)).length) := by
  have sound := calm.sound
  have supported := (calm.trans run).supported
  obtain ⟨start, created, prior⟩ := calm
  obtain ⟨trace, steps, rfl, -⟩ := exists_steps prior
  obtain ⟨shown, onward, rfl, forwards⟩ := exists_steps run
  have plan := plan_of_moves onward.moves
  have whole := acceptedBy_eq_filter created (Steps.moves (steps.trans onward))
    (by rwa [submitted_append]) (by rwa [submitted_append]) held.stores
  have first := acceptedBy_eq_filter created steps.moves (List.pairwise_append.mp orderly).1
    (List.forall_mem_append.mp supported).1 held.stores
  rw [submitted_append, acceptedBy_append, List.filter_append, first,
    NodeStore.reaches_eq plan.1 plan.2, List.append_cancel_left_eq] at whole
  rw [← whole] at room ⊢
  exact sound.carries_run known carries onward.moves forwards room

/-- A client is listed what came in for its stores, if no node came in twice. -/
theorem listing_perm (known : dist.client? client = some held)
    (distinct : (updates.map (·.node.id)).Nodup) :
    (dist.listing held).Perm
      ((updates.filter (dist.nodes.reaches held.stores)).map (·.node)) := by
  have sound := calm.sound
  have supported := calm.supported
  obtain ⟨start, created, run⟩ := calm
  obtain ⟨trace, steps, rfl, -⟩ := exists_steps run
  have apart := List.pairwise_map.mp distinct
  have orderly : Orderly (submitted trace) := apart.imp fun different same => absurd same different
  have keys : (((submitted trace).filter (dist.nodes.reaches held.stores)).map
      (·.node)).map Node.key |>.Nodup := by
    rw [List.map_map]
    exact List.pairwise_map.mpr ((apart.sublist List.filter_sublist).imp fun different same =>
      different (congrArg Prod.fst same))
  refine perm_of_mem_iff (nodup_keys sound.nodes (sound.unique client held known)) keys
    fun node => ?_
  rw [mem_listing sound.nodes, ← acceptedBy_eq_filter created steps.moves orderly supported]
  constructor
  · rintro ⟨k, member, version, found⟩
    obtain ⟨update, shown, same⟩ := submitted_of_stored (find?_create created) steps.moves found
    exact List.mem_map.mpr ⟨update, mem_acceptedBy.mpr ⟨k, member, shown⟩,
      congrArg StoredNode.node same⟩
  · intro applied
    obtain ⟨update, accepted, rfl⟩ := List.mem_map.mp applied
    obtain ⟨k, member, shown⟩ := mem_acceptedBy.mp accepted
    obtain ⟨stored, found, -⟩ := stored_of_submitted steps.moves shown
    obtain ⟨other, alsoShown, rfl⟩ := submitted_of_stored (find?_create created) steps.moves found
    obtain ⟨target, here, inside⟩ := Option.bind_eq_some_iff.mp found
    have id : other.node.id = update.node.id := (Chain.id_of_find? inside).2
    -- The one that is held came in under the same id, so it is the same.
    obtain rfl := List.inj_on_of_nodup_map distinct (List.mem_filterMap.mpr ⟨_, alsoShown, rfl⟩)
      (List.mem_filterMap.mpr ⟨_, shown, rfl⟩) id
    exact ⟨k, member, other.version, found⟩

/-- As many nodes are held as have different keys. -/
theorem length_stored {keys : List (String × Location)} (unique : keys.Nodup)
    (came : ∀ key, key ∈ keys ↔ ∃ update ∈ updates, (update.node.id, update.location) = key)
    (inside : ∀ key ∈ keys, key.2 ∈ dist.nodes.ring.topology.locations) :
    dist.nodes.stored.length = keys.length := by
  have sound := calm.sound
  have supported := calm.supported
  obtain ⟨start, created, run⟩ := calm
  obtain ⟨trace, steps, rfl, -⟩ := exists_steps run
  have ring := (plan_of_moves steps.moves).1
  obtain ⟨-, topology, positive, rfl⟩ := create_eq_ok created
  have made := NodeStore.create_eq_ok.mpr ⟨positive, topology, rfl, rfl, rfl⟩
  have accounts := holds_submitted made (affairs_of_steps steps)
  have distinct : (keys.map fun key => (key.1, some key.2)).Nodup := by
    refine unique.map fun one two same => ?_
    obtain ⟨ids, places⟩ := Prod.mk.inj same
    exact Prod.ext ids (Option.some.inj places)
  have same : (dist.nodes.stored.map (·.node.key)).Perm
      (keys.map fun key => (key.1, some key.2)) := by
    refine (List.perm_ext_iff_of_nodup sound.nodes.nodup_stored distinct).mpr fun key => ?_
    simp only [List.mem_map]
    constructor
    · rintro ⟨stored, member, rfl⟩
      obtain ⟨id, location, key⟩ := sound.nodes.exists_key member
      obtain ⟨-, update, shown, -, rfl, rfl⟩ :=
        (accounts.held_iff id location).mp ⟨stored, member, key⟩
      exact ⟨_, (came _).mpr ⟨update, shown, rfl⟩, key.symm⟩
    · rintro ⟨key, listed, rfl⟩
      obtain ⟨update, shown, rfl⟩ := (came key).mp listed
      have within := inside _ listed
      rw [ring] at within
      exact (accounts.held_iff _ _).mpr ⟨topology.within_of_mem within, update, shown,
        EventType.carriesState_iff.mp (supported update shown), rfl, rfl⟩
  simpa using same.length_eq

end Calm

end Distributor

end FleetRing
