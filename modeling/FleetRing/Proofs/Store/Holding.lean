import FleetRing.Proofs.Store.Inventory

/-!
# What is held of a node

`held?` looks a node up by its key, in the store that the key is routed to. After a batch it is the
last node that the batch applied under the key, if there is one (`held?_foldl_absorb`). `Covers`
says of a node that it is held, or something newer in its place; once true, it stays true.
-/

namespace FleetRing

/-- The key of a resolved update is that of its node. -/
theorem Update.Resolved.key_eq {update : Update} (resolved : update.Resolved) :
    update.node.key = (update.node.id, some update.location) := by
  rw [Node.key, resolved.location]

namespace NodeStore

/-- What is held of the node with an id at a location. -/
def held? (store : NodeStore) (id : String) (location : Location) : Option StoredNode :=
  (store.route? id location).bind fun k => store.find? k id

/-- A node is held, or a later version of it: one with the same id, at the same location. -/
def Covers (store : NodeStore) (node : Node) : Prop :=
  ∃ location version stored, node.location? = some location ∧ node.version? = some version ∧
    store.held? node.id location = some stored ∧ version ≤ stored.version

variable {store : NodeStore} {id : String} {location : Location} {stored : StoredNode}
  {update : Update} {updates : List Update}

/-- What is held is what the inventory has under the key. -/
theorem Sound.held?_eq_some_iff (sound : store.Sound) : store.held? id location = some stored ↔
    stored ∈ store.stored ∧ stored.node.key = (id, some location) := by
  rw [sound.mem_iff, held?, Option.bind_eq_some_iff]

/-- The inventory has it once. -/
theorem Sound.filter_key_eq (sound : store.Sound) (id : String) (location : Location) :
    store.stored.filter (fun stored => stored.node.key = (id, some location)) =
      (store.held? id location).toList :=
  FleetRing.filter_key_eq sound.nodup_stored fun _ => sound.held?_eq_some_iff.symm

/-- Owners have no part in what is held. -/
theorem held?_eq_of_vacated {next : NodeStore} (same : next.vacated = store.vacated) (id : String)
    (location : Location) : next.held? id location = store.held? id location := by
  simp only [held?, (samePlan_of_vacated same).route?, find?_eq_of_vacated same]

/-- An update that is applied is held from then on, and every other node as before. -/
theorem held?_absorb (sound : store.Sound) (update : Update) :
    (store.absorb update).held? id location =
      if (store.acceptor? update).isSome = true ∧ update.node.id = id ∧ update.location = location
      then some update.toStored
      else store.held? id location := by
  rw [held?, (samePlan_absorb store update).route?, held?]
  cases accepted : store.acceptor? update with
  | none => rw [absorb_of_refused accepted, if_neg (by simp)]
  | some k =>
    obtain ⟨target, routed, here, -, -⟩ := absorb_of_accepted accepted
    by_cases own : update.node.id = id ∧ update.location = location
    · obtain ⟨rfl, rfl⟩ := own
      rw [routed, Option.bind_some, find?_absorb_acceptor]
      simp [accepted]
    · rw [if_neg fun both => own both.2]
      cases asked : store.route? id location with
      | none => rfl
      | some j =>
        rw [Option.bind_some, Option.bind_some, find?_absorb_acceptor, if_neg]
        rintro ⟨same, rfl⟩
        -- Both keys are routed to one store, which stands at one location.
        obtain rfl := Option.some.inj (accepted.symm.trans same)
        obtain ⟨one, oneHere, oneStands⟩ := sound.laid.location_of_locate? routed
        obtain ⟨two, twoHere, twoStands⟩ := sound.laid.location_of_locate? asked
        obtain rfl := Option.some.inj (oneHere.symm.trans twoHere)
        exact own ⟨rfl, oneStands.symm.trans twoStands⟩

/-- What is held after an update is no older. -/
theorem held?_grows_absorb (sound : store.Sound) (update : Update)
    (found : store.held? id location = some stored) :
    ∃ later, (store.absorb update).held? id location = some later ∧
      stored.version ≤ later.version := by
  rw [held?_absorb sound]
  split
  · next applied =>
    obtain ⟨accepted, rfl, rfl⟩ := applied
    obtain ⟨k, accepted⟩ := Option.isSome_iff_exists.mp accepted
    obtain ⟨target, routed, -⟩ := absorb_of_accepted accepted
    rw [held?, routed, Option.bind_some] at found
    exact ⟨_, rfl, UInt64.le_of_lt (older_of_acceptor accepted found)⟩
  · exact ⟨stored, found, UInt64.le_refl _⟩

/-- A node that is covered stays so. -/
theorem Covers.absorb {node : Node} (covers : store.Covers node) (sound : store.Sound)
    (update : Update) : (store.absorb update).Covers node := by
  obtain ⟨location, version, stored, place, number, found, older⟩ := covers
  obtain ⟨later, after, newer⟩ := held?_grows_absorb sound update found
  exact ⟨location, version, later, place, number, after, UInt64.le_trans older newer⟩

/-- An update that is applied covers its node. -/
theorem covers_of_accepted (sound : store.Sound) (resolved : update.Resolved)
    (accepted : (store.acceptor? update).isSome = true) :
    (store.absorb update).Covers update.node :=
  ⟨update.location, update.version, update.toStored, resolved.location, resolved.version,
    (held?_absorb sound update).trans (if_pos ⟨accepted, rfl, rfl⟩), UInt64.le_refl _⟩

section Batch

variable (sound : store.Sound) (resolved : ∀ update ∈ updates, update.Resolved)
include sound resolved

/-- What is held after a batch is what the batch applied last under the key. -/
theorem held?_foldl_absorb :
    ((updates.foldl absorb store).held? id location).map (·.node) =
      (((store.applied updates).map (·.2.node)).filter
        (·.key = (id, some location))).getLast?.or
          ((store.held? id location).map (·.node)) := by
  induction updates generalizing store with
  | nil => rfl
  | cons update updates ih =>
    have first := resolved update List.mem_cons_self
    have rest := ih (sound.submit {} first) fun other member =>
      resolved other (List.mem_cons_of_mem update member)
    refine rest.trans ?_
    have held : (submit (store, {}) update).1.held? id location = _ := held?_absorb sound update
    rw [held, applied, List.map_append, List.filter_append, List.getLast?_append, Option.or_assoc]
    refine congrArg _ ?_
    cases accepted : store.acceptor? update with
    | none => simp
    | some k =>
      by_cases own : update.node.id = id ∧ update.location = location
      · simp [own, first.key_eq, Update.toStored]
      · simp [own, first.key_eq]

/-- A batch covers what was covered before, and every node that it applied. -/
theorem covers_foldl_absorb {node : Node}
    (covered : store.Covers node ∨ node ∈ (store.applied updates).map (·.2.node)) :
    (updates.foldl absorb store).Covers node := by
  induction updates generalizing store with
  | nil =>
    rcases covered with covers | member
    · exact covers
    · cases member
  | cons update updates ih =>
    have first := resolved update List.mem_cons_self
    refine ih (sound.submit {} first) (fun other member =>
      resolved other (List.mem_cons_of_mem update member)) ?_
    rcases covered with covers | member
    · exact .inl (covers.absorb sound update)
    · rw [applied, List.map_append, List.mem_append] at member
      refine member.imp_left fun own => ?_
      obtain ⟨k, accepted⟩ : ∃ k, store.acceptor? update = some k := by
        cases accepted : store.acceptor? update with
        | none => simp [accepted] at own
        | some k => exact ⟨k, rfl⟩
      obtain rfl : node = update.node := by simpa [accepted] using own
      exact covers_of_accepted sound first (by simp [accepted])

end Batch

end NodeStore

end FleetRing
