import FleetRing.Proofs.Distributor.Retention
import FleetRing.Proofs.Store.Inventory

/-!
# What a client is listed

A listing is described by `find?`: it holds each node of each of the client's stores
once, and its floors are the largest versions among them, location by location. A
client that overlays a listing with the nodes that its stores applied since has the
listing of the later state (`overlay_moves`), whatever the versions were.
-/

namespace FleetRing

/-- Put a node in the place of the one with its key, if there is one. -/
def putNode (nodes : List Node) (node : Node) : List Node :=
  nodes.filter (fun other => other.key ≠ node.key) ++ [node]

/-- Put nodes one after the other, so that the last one of a key stays. -/
def overlay (nodes changes : List Node) : List Node :=
  changes.foldl putNode nodes

section Overlay

variable {nodes first second : List Node} {node change : Node}

theorem mem_putNode :
    node ∈ putNode nodes change ↔ node = change ∨ node ∈ nodes ∧ node.key ≠ change.key := by
  simp [putNode, or_comm]

/-- Keys stay distinct. -/
theorem nodup_putNode (distinct : (nodes.map Node.key).Nodup) :
    ((putNode nodes change).map Node.key).Nodup := by
  rw [putNode, List.map_append, List.map_singleton, ← List.concat_eq_append]
  refine List.Nodup.concat ?_ (distinct.sublist (List.filter_sublist.map _))
  intro member
  obtain ⟨other, listed, same⟩ := List.mem_map.mp member
  simp [same] at listed

/-- Distinct keys make a list a set of nodes. -/
theorem perm_of_mem_iff (distinct : (first.map Node.key).Nodup)
    (alsoDistinct : (second.map Node.key).Nodup) (same : ∀ node, node ∈ first ↔ node ∈ second) :
    first.Perm second :=
  (List.perm_ext_iff_of_nodup (.of_map _ distinct) (.of_map _ alsoDistinct)).mpr same

/-- The order of a list does not matter to what is put over it. -/
theorem overlay_perm (same : first.Perm second) (changes : List Node) :
    (overlay first changes).Perm (overlay second changes) := by
  induction changes generalizing first second with
  | nil => exact same
  | cons change changes ih => exact ih ((same.filter _).append_right _)

theorem overlay_append (nodes earlier later : List Node) :
    overlay nodes (earlier ++ later) = overlay (overlay nodes earlier) later :=
  List.foldl_append

end Overlay

namespace Distributor

variable {config : Config} {start dist next : Distributor} {client : String} {held : Client}
  {trace shown : Trace}

/-- The nodes of a client, store by store. -/
def listing (dist : Distributor) (held : Client) : List Node :=
  (dist.storesOf held).flatMap (·.nodes)

/-- The versions of a client's nodes, at their locations. -/
def shares (dist : Distributor) (held : Client) : List (Location × Version) :=
  (dist.storesOf held).flatMap fun store =>
    store.stored.map fun stored => (store.location, stored.version)

/-- The floors that a listing gives. -/
def floors (dist : Distributor) (held : Client) : VersionMap :=
  (dist.storesOf held).foldl (fun versions store => versions.merge store.versions) .empty

theorem list_eq (registered : dist.client? client = some held) :
    dist.list client = .ok (dist.listing held, dist.floors held) := by
  simp [list, registered, listing, floors]

/-- The floors are the largest versions that are listed. -/
theorem floors_collects (dist : Distributor) (held : Client) :
    (dist.floors held).Collects (dist.shares held) :=
  VersionMap.Collects.foldl_merge (fun _ => .ofList _) .empty

theorem mem_storesOf {store : VirtualStore} :
    store ∈ dist.storesOf held ↔ ∃ k ∈ held.stores, dist.nodes.stores[k]? = some store := by
  simp [storesOf]

section Membership

variable (sound : dist.nodes.Sound)
include sound

/-- A node is listed exactly when one of the client's stores has it. -/
theorem mem_listing {node : Node} : node ∈ dist.listing held ↔
    ∃ k ∈ held.stores, ∃ version, dist.nodes.find? k node.id = some ⟨version, node⟩ := by
  simp only [listing, List.mem_flatMap, mem_storesOf, VirtualStore.nodes, List.mem_map]
  constructor
  · rintro ⟨store, ⟨k, member, here⟩, stored, inside, rfl⟩
    exact ⟨k, member, stored.version, (NodeStore.mem_stored_iff sound here).mp inside⟩
  · rintro ⟨k, member, version, found⟩
    obtain ⟨store, here, -⟩ := Option.bind_eq_some_iff.mp found
    exact ⟨store, ⟨k, member, here⟩, ⟨version, node⟩,
      (NodeStore.mem_stored_iff sound here).mpr found, rfl⟩

/-- A version is listed exactly when a node with it is. -/
theorem mem_shares {location : Location} {version : Version} :
    (location, version) ∈ dist.shares held ↔ ∃ k ∈ held.stores, dist.placeOf k = some location ∧
      ∃ id stored, dist.nodes.find? k id = some stored ∧ stored.version = version := by
  simp only [shares, List.mem_flatMap, mem_storesOf, List.mem_map, Prod.mk.injEq]
  constructor
  · rintro ⟨store, ⟨k, member, here⟩, stored, inside, rfl, rfl⟩
    exact ⟨k, member, by simp [placeOf, here], _, stored,
      (NodeStore.mem_stored_iff sound here).mp inside, rfl⟩
  · rintro ⟨k, member, place, id, stored, found, rfl⟩
    obtain ⟨store, here, standing⟩ := Option.map_eq_some_iff.mp place
    have same : stored.node.id = id := by
      have inside := found
      rw [NodeStore.find?, here, Option.bind_some] at inside
      exact (Chain.id_of_find? inside).2
    exact ⟨store, ⟨k, member, here⟩, stored,
      (NodeStore.mem_stored_iff sound here).mpr (same ▸ found), standing, rfl⟩

/-- No key is listed twice. -/
theorem nodup_keys (unique : held.stores.Nodup) : ((dist.listing held).map Node.key).Nodup := by
  have distinct := NodeStore.nodup_keys sound unique
  simpa only [listing, storesOf, VirtualStore.nodes, List.map_flatMap, List.map_map,
    Function.comp_def] using distinct

end Membership

/-- Where no store of the client changed, neither did its listing. -/
theorem listing_perm (before : dist.nodes.Sound) (after : next.nodes.Sound)
    (unique : held.stores.Nodup)
    (same : ∀ k ∈ held.stores, ∀ id, next.nodes.find? k id = dist.nodes.find? k id) :
    (dist.listing held).Perm (next.listing held) := by
  refine perm_of_mem_iff (nodup_keys before unique) (nodup_keys after unique) fun node => ?_
  rw [mem_listing before, mem_listing after]
  constructor
  · rintro ⟨k, member, version, found⟩
    exact ⟨k, member, version, (same k member node.id).trans found⟩
  · rintro ⟨k, member, version, found⟩
    exact ⟨k, member, version, (same k member node.id).symm.trans found⟩

/-- What a store applies is routed to it. -/
theorem route?_of_acceptor {nodes : NodeStore} {update : Update} {k : Nat}
    (accepted : nodes.acceptor? update = some k) :
    nodes.route? update.node.id update.location = some k := by
  obtain ⟨target, routed, -⟩ := NodeStore.absorb_of_accepted accepted
  exact routed

/-- An update that a store of the client applies is put over the client's listing. -/
theorem Sound.putNode_submit (sound : dist.Sound) (found : dist.client? client = some held)
    {update : Update} (resolved : update.Resolved) {k : Nat} (member : k ∈ held.stores)
    (accepted : dist.nodes.acceptor? update = some k) :
    (putNode (dist.listing held) update.node).Perm ((dist.submit update).listing held) := by
  have unique := sound.unique client held found
  have after := (sound.move (.submit resolved)).nodes
  refine perm_of_mem_iff (nodup_putNode (nodup_keys sound.nodes unique)) (nodup_keys after unique)
    fun node => ?_
  obtain ⟨store, here, standing⟩ := Option.map_eq_some_iff.mp (sound.placeOf_acceptor accepted)
  have key : update.node.key = (update.node.id, some update.location) := by
    rw [Node.key, resolved.location]
  rw [mem_putNode, mem_listing sound.nodes, mem_listing after]
  constructor
  · rintro (rfl | ⟨⟨i, listed, version, old⟩, different⟩)
    · exact ⟨k, member, update.version, (find?_submit ..).trans (if_pos ⟨accepted, rfl⟩)⟩
    · refine ⟨i, listed, version, (find?_submit ..).trans ((if_neg ?_).trans old)⟩
      rintro ⟨accepted', same⟩
      obtain rfl := Option.some.inj (accepted.symm.trans accepted')
      have before := NodeStore.key_of_find? sound.nodes here old
      exact different (before.trans (by rw [key, standing, same]))
  · rintro ⟨i, listed, version, new⟩
    rw [find?_submit] at new
    split at new
    · exact .inl (congrArg StoredNode.node (Option.some.inj new)).symm
    · next elsewhere =>
      refine .inr ⟨⟨i, listed, version, new⟩, fun same => elsewhere ?_⟩
      obtain ⟨other, there, -⟩ := Option.bind_eq_some_iff.mp new
      have home := (sound.nodes.home i other node.id _ there new).1
      rw [NodeStore.key_of_find? sound.nodes there new, key] at same
      obtain ⟨ids, places⟩ := Prod.mk.inj same
      rw [ids, Option.some.inj places, route?_of_acceptor accepted] at home
      obtain rfl := Option.some.inj home
      exact ⟨accepted, ids⟩

/-- A listing follows from an earlier one by putting over it what the client's stores applied. -/
theorem Sound.overlay_move (sound : dist.Sound) (found : dist.client? client = some held)
    (move : Move dist shown next) :
    (overlay (dist.listing held) ((acceptedBy held.stores shown).map (·.node))).Perm
      (next.listing held) := by
  have unique := sound.unique client held found
  have after := (sound.move move).nodes
  rcases submits_or_keeps move with ⟨update, resolved, rfl, rfl⟩ | ⟨same, silent⟩
  · by_cases mine : ∃ k ∈ held.stores, dist.nodes.acceptor? update = some k
    · obtain ⟨k, member, accepted⟩ := mine
      rw [accepted]
      simpa [acceptedBy, Occurrence.acceptedBy?, member, overlay] using
        sound.putNode_submit found resolved member accepted
    · have nothing :
          acceptedBy held.stores [.submitted update (dist.nodes.acceptor? update)] = [] := by
        cases accepted : dist.nodes.acceptor? update with
        | none => rfl
        | some k =>
          have foreign : k ∉ held.stores := fun member => mine ⟨k, member, accepted⟩
          simp [acceptedBy, Occurrence.acceptedBy?, foreign]
      rw [nothing]
      refine listing_perm sound.nodes after unique fun k member id => ?_
      rw [find?_submit, if_neg]
      rintro ⟨accepted, -⟩
      exact mine ⟨k, member, accepted⟩
  · have nothing : acceptedBy held.stores shown = [] := by
      refine List.filterMap_eq_nil_iff.mpr fun occurrence member => ?_
      cases occurrence with
      | submitted update acceptor => exact absurd member (silent update acceptor)
      | registered | watched | served => rfl
    rw [nothing]
    exact listing_perm sound.nodes after unique fun k _ id => same k id

/-- So it does along every run, in whatever order versions come. -/
theorem Sound.overlay_moves (sound : dist.Sound) (found : dist.client? client = some held)
    (run : Moves dist trace next) :
    next.client? client = some held ∧
      (overlay (dist.listing held) ((acceptedBy held.stores trace).map (·.node))).Perm
        (next.listing held) := by
  induction run with
  | refl => exact ⟨found, .refl _⟩
  | @step trace shown state next prior transition ih =>
    obtain ⟨registered, same⟩ := ih
    have reached := sound.moves prior
    obtain ⟨queue, here, -⟩ := reached.queue client held registered
    refine ⟨(reached.follow registered here transition).1, ?_⟩
    rw [acceptedBy_append, List.map_append, overlay_append]
    exact (overlay_perm same _).trans (reached.overlay_move registered transition)

end Distributor

end FleetRing
