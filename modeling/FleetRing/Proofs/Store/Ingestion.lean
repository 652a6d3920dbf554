import FleetRing.Proofs.Ring.Layout
import FleetRing.Proofs.Store.Contents

/-!
# One update at a time

A batch is a sequence of `submit`s; what it counts and observes beside has no
influence on stores and queues. `submit` either changes nothing at all or changes
one store, the `acceptor?`, and tells the queue of its owner. `NodeStore.Sound`
collects what holds of every store whatever was submitted: stores stand where the
ring puts them, behave as maps, and hold nodes that are routed to them.
-/

namespace FleetRing

namespace Update

/-- The location and the version are those that the node reports. -/
structure Resolved (update : Update) : Prop where
  location : update.node.location? = some update.location
  version : update.node.version? = some update.version

/-- An update that was made from an event is resolved. -/
theorem resolved_of_ofEvent {event : NodeEvent} {update : Update}
    (made : ofEvent event = .ok update) : update.Resolved ∧ update.event = event := by
  unfold ofEvent at made
  cases location : event.node.location with
  | error error => simp [location, bind, Except.bind] at made
  | ok place =>
    cases version : event.node.version with
    | error error => simp [location, version, bind, Except.bind] at made
    | ok number =>
      simp only [location, version, bind, Except.bind, pure, Except.pure, Except.ok.injEq] at made
      subst made
      refine ⟨⟨?_, ?_⟩, rfl⟩
      · unfold Node.location Location.ofRaw at location
        split at location
        · next found => exact found.trans (congrArg some (Except.ok.inj location))
        · cases location
      · unfold Node.version at version
        split at version
        · next found => exact found.trans (congrArg some (Except.ok.inj version))
        · cases version

end Update

namespace NodeStore

/-- The number of the store that would apply an update, if one would. -/
def acceptor? (store : NodeStore) (update : Update) : Option Nat :=
  match store.route? update.node.id update.location with
  | none => none
  | some k =>
    match store.stores[k]? with
    | none => none
    | some target =>
      if (target.apply (.ofId update.node.id) update).2.isApplied then some k else none

/-- Process an update alone. -/
def submit (state : NodeStore × QueueTable) (update : Update) : NodeStore × QueueTable :=
  let batch := Batch.step { store := state.1, queues := state.2 } update
  (batch.store, batch.queues)

/-- What a batch counts beside has no influence on stores and queues. -/
theorem Batch.step_eq_submit (batch : Batch) (update : Update) :
    ((batch.step update).store, (batch.step update).queues) =
      submit (batch.store, batch.queues) update := by
  simp only [submit, Batch.step]
  split
  · rfl
  · split <;> rfl

/-- A batch submits its updates one by one, and then adds the versions that it observed. -/
theorem process_eq (store : NodeStore) (queues : QueueTable) (updates : List Update) :
    ∃ versions, (store.process queues updates).store =
        { (updates.foldl submit (store, queues)).1 with versions } ∧
      (store.process queues updates).queues = (updates.foldl submit (store, queues)).2 := by
  have folded : ∀ (updates : List Update) (batch : Batch),
      ((updates.foldl Batch.step batch).store, (updates.foldl Batch.step batch).queues) =
        updates.foldl submit (batch.store, batch.queues) := by
    intro updates
    induction updates with
    | nil => intro batch; rfl
    | cons update updates ih =>
      intro batch
      rw [List.foldl_cons, List.foldl_cons, ih, Batch.step_eq_submit]
  have whole := folded updates { store, queues }
  simp only [process, ← whole]
  exact ⟨_, rfl, rfl⟩

/-- Putting a store back as it was changes nothing. -/
theorem replace_self {store : NodeStore} {k : Nat} {target : VirtualStore} {mutation : Mutation}
    (here : store.stores[k]? = some target) (old : mutation ≠ .inserted) :
    store.replace k target mutation = store := by
  have same : store.stores.setIfInBounds k target = store.stores := by
    refine Array.ext_getElem? fun i => ?_
    rw [Array.getElem?_setIfInBounds]
    by_cases at_ : k = i
    · subst at_
      rw [if_pos rfl, here, if_pos (Array.getElem?_eq_some_iff.mp here).1]
    · simp [at_]
  simp only [replace, same, old, if_false]

/-- An update either changes nothing, or changes the store that accepts it and is told to the
queue of the owner. -/
theorem submit_cases (store : NodeStore) (queues : QueueTable) (update : Update) :
    (store.acceptor? update = none ∧ submit (store, queues) update = (store, queues)) ∨
      ∃ k target, store.acceptor? update = some k ∧
        store.route? update.node.id update.location = some k ∧
        store.stores[k]? = some target ∧
        (target.apply (.ofId update.node.id) update).2.isApplied = true ∧
        submit (store, queues) update =
          (store.replace k (target.apply (.ofId update.node.id) update).1
              (target.apply (.ofId update.node.id) update).2,
            match target.owner with
            | some owner => queues.deliver owner.queue update
            | none => queues) := by
  simp only [acceptor?, submit, Batch.step]
  cases routed : store.route? update.node.id update.location with
  | none =>
    have missed : store.locate? (.ofId update.node.id) update.location = none := routed
    simp [missed]
  | some k =>
    have located : store.locate? (.ofId update.node.id) update.location = some k := routed
    simp only [located]
    cases here : store.stores[k]? with
    | none => simp
    | some target =>
      simp only
      cases applied : (target.apply (.ofId update.node.id) update).2.isApplied with
      | false =>
        left
        have kept := VirtualStore.apply_of_not_applied applied
        have stays : store.replace k target (target.apply (.ofId update.node.id) update).2 =
            store :=
          replace_self here fun inserted => by simp [inserted, Mutation.isApplied] at applied
        refine ⟨by simp, Prod.ext ?_ ?_⟩
        · simpa only [kept] using stays
        · cases owner : target.owner <;> simp [notify, applied]
      | true =>
        right
        refine ⟨k, target, by simp, rfl, here, applied, ?_⟩
        cases owner : target.owner <;> simp [notify, applied]

/-- The node with an id in the store with a number. -/
def find? (store : NodeStore) (k : Nat) (id : String) : Option StoredNode :=
  (store.stores[k]?).bind fun target => target.find? (.ofId id) id

section Replace

variable {store : NodeStore} {k : Nat} {target changed : VirtualStore} {mutation : Mutation}
  {update : Update}

/-- A store that is put back stands where the old one stood. -/
theorem getElem?_replace (here : store.stores[k]? = some target) (i : Nat) :
    (store.replace k changed mutation).stores[i]? =
      if i = k then some changed else store.stores[i]? := by
  have inside := (Array.getElem?_eq_some_iff.mp here).1
  simp only [replace, Array.getElem?_setIfInBounds]
  by_cases same : k = i
  · subst same
    simp [inside]
  · have unequal : ¬ i = k := fun equal => same equal.symm
    simp [same, unequal]

/-- An accepted update is found where it was accepted, and every other node as before. -/
theorem find?_replace (here : store.stores[k]? = some target)
    (applied : (target.apply (.ofId update.node.id) update).2.isApplied = true) (i : Nat)
    (id : String) :
    (store.replace k (target.apply (.ofId update.node.id) update).1 mutation).find? i id =
      if i = k ∧ id = update.node.id then some update.toStored else store.find? i id := by
  simp only [find?, getElem?_replace here]
  by_cases asked : i = k
  · subst asked
    simp only [if_true, here, Option.bind_some, VirtualStore.find?_apply applied, true_and]
    by_cases same : id = update.node.id <;> simp [same]
  · simp [asked]

end Replace

/-- Stores stand where the ring puts them, behave as maps, and hold the nodes that are routed to
them, as these report themselves. -/
structure Sound (store : NodeStore) : Prop where
  laid : store.Laid
  maps : ∀ (k : Nat) (target : VirtualStore), store.stores[k]? = some target →
    target.Sound Token.ofId
  counted : ∀ (k : Nat) (target : VirtualStore), store.stores[k]? = some target →
    target.hosts = target.ids.length
  home : ∀ (k : Nat) (target : VirtualStore) (id : String) (stored : StoredNode),
    store.stores[k]? = some target → store.find? k id = some stored →
      store.route? id target.location = some k ∧
        stored.node.location? = some target.location ∧
        stored.node.version? = some stored.version

/-- The stores of a new node store are blank. -/
theorem blank_ofTopology {topology : Topology} {perLocation k : Nat} {target : VirtualStore}
    (here : (ofTopology topology perLocation).stores[k]? = some target) :
    target.slots = ∅ ∧ target.hosts = 0 := by
  simp only [ofTopology, List.getElem?_toArray, List.getElem?_map, List.getElem?_zipIdx,
    Option.map_map, Option.map_eq_some_iff] at here
  obtain ⟨entry, -, rfl⟩ := here
  exact ⟨rfl, rfl⟩

/-- A new node store holds no node. -/
theorem find?_ofTopology (topology : Topology) (perLocation k : Nat) (id : String) :
    (ofTopology topology perLocation).find? k id = none := by
  refine Option.bind_eq_none_iff.mpr fun target here => ?_
  simp [VirtualStore.find?, VirtualStore.chainAt, (blank_ofTopology here).1, Chain.find?]

/-- A new node store is sound. -/
theorem sound_ofTopology (topology : Topology) {perLocation : Nat} (positive : 0 < perLocation) :
    (ofTopology topology perLocation).Sound := by
  have vacant : ∀ (k : Nat) (target : VirtualStore) (token : Token),
      (ofTopology topology perLocation).stores[k]? = some target → target.chainAt token = [] := by
    intro k target token here
    simp [VirtualStore.chainAt, (blank_ofTopology here).1]
  refine ⟨laid_ofTopology topology positive, fun k target here => ⟨?_, ?_⟩,
    fun k target here => ?_, fun k target id stored here found => ?_⟩
  · intro token stored member
    simp [vacant k target token here] at member
  · intro token
    simp [vacant k target token here, Chain.ids]
  · obtain ⟨slots, hosts⟩ := blank_ofTopology here
    have nothing : target.slots.toList = [] := by rw [slots]; rfl
    simp [hosts, VirtualStore.ids, VirtualStore.stored, nothing]
  · rw [find?_ofTopology] at found
    cases found

/-- Submitting an update keeps a node store sound. -/
theorem Sound.submit {store : NodeStore} (sound : store.Sound) (queues : QueueTable)
    {update : Update} (resolved : update.Resolved) :
    (NodeStore.submit (store, queues) update).1.Sound := by
  rcases submit_cases store queues update with
    ⟨-, same⟩ | ⟨k, target, -, routed, here, applied, same⟩
  · rwa [same]
  · rw [same]
    obtain ⟨-, location, -, -⟩ := target.apply_frame (.ofId update.node.id) update
    obtain ⟨placed, there, standing⟩ := sound.laid.location_of_locate? routed
    obtain rfl := Option.some.inj (here.symm.trans there)
    refine ⟨⟨sound.laid.positive, fun i => ?_⟩, fun i other found => ?_, fun i other found => ?_,
      fun i other id stored found held => ?_⟩
    · change _ = ((store.ring.layout store.perLocation)[i]?).map (·.1)
      rw [getElem?_replace here]
      have before := sound.laid.location_eq i
      by_cases asked : i = k
      · subst asked
        simpa [here, location] using before
      · simpa [asked] using before
    · rw [getElem?_replace here] at found
      split at found
      · obtain rfl := Option.some.inj found
        exact (sound.maps k target here).apply update
      · exact sound.maps i other found
    · rw [getElem?_replace here] at found
      split at found
      · obtain rfl := Option.some.inj found
        exact (sound.maps k target here).hosts_eq_apply (sound.counted k target here) update
      · exact sound.counted i other found
    · rw [getElem?_replace here] at found
      rw [find?_replace here applied] at held
      split at found
      · next asked =>
        subst asked
        obtain rfl := Option.some.inj found
        rw [location]
        split at held
        · next same =>
          obtain rfl := Option.some.inj held
          rw [same.2, standing]
          exact ⟨routed, resolved.location, resolved.version⟩
        · exact sound.home i target id stored here held
      · next asked =>
        simp only [asked, false_and, if_false] at held
        exact sound.home i other id stored found held

end NodeStore

end FleetRing
