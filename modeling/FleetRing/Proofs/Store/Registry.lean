import FleetRing.Proofs.Store.Interleaving

/-!
# A store whose tokens collide

Real tokens hardly ever collide, so nothing that is observed of a store says much about its chains.
Here ids get their tokens from an arbitrary function, which may send all of them to one slot, and a
store is compared with a `Registry`, a map from ids to nodes that knows of no tokens. `Represents`
ties them together, and every update keeps it: both say the same about the update, and what the
owner is told follows from what they say.
-/

namespace FleetRing

/-- Take items one by one, and collect the answers. -/
def answerAll {σ α β : Type} (step : σ → α → σ × β) : σ → List α → σ × List β
  | state, [] => (state, [])
  | state, item :: items =>
    let (next, answer) := step state item
    let (last, answers) := answerAll step next items
    (last, answer :: answers)

/-- What every item keeps is kept by all of them. -/
theorem answerAll_keeps {σ α β : Type} {step : σ → α → σ × β} {kept : σ → Prop} {items : List α}
    (each : ∀ state, ∀ item ∈ items, kept state → kept (step state item).1) {start : σ}
    (initially : kept start) : kept (answerAll step start items).1 := by
  induction items generalizing start with
  | nil => exact initially
  | cons item items ih =>
    exact ih (fun state other member => each state other (List.mem_cons_of_mem item member))
      (each start item List.mem_cons_self initially)

/-- Nodes by id. -/
abbrev Registry := Std.ExtTreeMap String StoredNode

namespace Registry

/-- What an update does to a map. -/
def submit (registry : Registry) (update : Update) : Registry × Mutation :=
  if update.type.carriesState then
    let mutation := Mutation.judge update registry[update.node.id]?
    (if mutation.isApplied then registry.insert update.node.id update.toStored else registry,
      mutation)
  else (registry, .unsupported)

/-- Every node with its version. -/
def stored (registry : Registry) : List StoredNode :=
  registry.toList.map (·.2)

variable {registry : Registry} {update : Update} {updates : List Update}

/-- An update changes nothing, or what is found under its id. -/
theorem getElem?_submit (registry : Registry) (update : Update) (id : String) :
    (registry.submit update).1[id]? =
      if (registry.submit update).2.isApplied = true ∧ id = update.node.id then
        some update.toStored
      else registry[id]? := by
  unfold submit
  split
  · cases applied : (Mutation.judge update registry[update.node.id]?).isApplied with
    | true =>
      simp [Std.ExtTreeMap.getElem?_insert, applied, @eq_comm _ id]
    | false => simp [applied]
  · simp [Mutation.isApplied]

/-- A node counts if it is new. -/
theorem size_insert_eq (registry : Registry) (id : String) (stored : StoredNode) :
    (registry.insert id stored).size =
      if registry[id]? = none then registry.size + 1 else registry.size := by
  rw [Std.ExtTreeMap.size_insert, Std.ExtTreeMap.contains_eq_isSome_getElem?]
  cases registry[id]? <;> simp

/-- Every node reports the version that is kept with it. -/
def Reports (registry : Registry) : Prop :=
  ∀ (id : String) (found : StoredNode), registry[id]? = some found →
    found.node.version? = some found.version

/-- So it stays, if the updates are resolved. -/
theorem Reports.submit (reports : registry.Reports)
    (resolved : update.type.carriesState = true → update.Resolved) :
    (registry.submit update).1.Reports := by
  intro id found held
  rw [getElem?_submit] at held
  split at held
  · next own =>
    obtain rfl := Option.some.inj held
    refine (resolved ?_).version
    by_contra unsupported
    simp [Registry.submit, unsupported, Mutation.isApplied] at own
  · exact reports id found held

theorem reports_answerAll
    (resolved : ∀ update ∈ updates, update.type.carriesState = true → update.Resolved) :
    Reports (answerAll submit ∅ updates).1 :=
  answerAll_keeps (fun _ update member reports => reports.submit (resolved update member))
    fun id found held => by simp at held

end Registry

/-- Only a node that is missing is inserted. -/
theorem Mutation.judge_eq_inserted_iff {update : Update} {held : Option StoredNode} :
    Mutation.judge update held = .inserted ↔ held = none := by
  cases held with
  | none => simp [judge]
  | some stored =>
    simp only [judge, reduceCtorEq, iff_false]
    split
    · decide
    · split <;> decide

namespace VirtualStore

variable {store : VirtualStore} {registry : Registry} {tokenOf : String → Token} {update : Update}

/-- Apply an update under the token of its id, and tell the owner. -/
def submit (tokenOf : String → Token) (state : VirtualStore × QueueTable) (update : Update) :
    (VirtualStore × QueueTable) × Mutation :=
  let (store, queues) := state
  let (changed, mutation) := store.apply (tokenOf update.node.id) update
  ((changed, NodeStore.notify queues store.owner mutation update), mutation)

/-- That is what a batch does with the store that an update is routed to. -/
theorem submit_routed {nodes : NodeStore} {k : Nat} (queues : QueueTable)
    (routed : nodes.route? update.node.id update.location = some k)
    (here : nodes.stores[k]? = some store) :
    NodeStore.submit (nodes, queues) update =
      (nodes.replace k (submit Token.ofId (store, queues) update).1.1
          (submit Token.ofId (store, queues) update).2,
        (submit Token.ofId (store, queues) update).1.2) := by
  have located : nodes.locate? (.ofId update.node.id) update.location = some k := routed
  simp only [NodeStore.submit, NodeStore.Batch.step, located, here, submit]

/-- The store holds the nodes of a map, each in the slot of its token. -/
structure Represents (tokenOf : String → Token) (registry : Registry) (store : VirtualStore) :
    Prop where
  sound : store.Sound tokenOf
  find? : ∀ id, store.find? (tokenOf id) id = registry[id]?
  hosts : store.hosts = registry.size

/-- A new store holds no nodes. -/
theorem represents_empty (tokenOf : String → Token) (index : Nat) (location : Location)
    (arc : Arc Float) (owner : Option Owner) :
    Represents tokenOf ∅ { index, location, arc, owner } := by
  have vacant : ∀ token, chainAt { index, location, arc, owner } token = [] := fun token => by
    simp [chainAt]
  refine ⟨⟨fun token stored member => ?_, fun token => ?_⟩, fun id => ?_, rfl⟩
  · simp [vacant] at member
  · simp [vacant, Chain.ids]
  · simp [VirtualStore.find?, vacant, Chain.find?]

namespace Represents

/-- An update does to a store what it does to the map, whatever shares the slot. -/
theorem submit (represents : Represents tokenOf registry store) (update : Update) :
    (store.apply (tokenOf update.node.id) update).2 = (registry.submit update).2 ∧
      Represents tokenOf (registry.submit update).1
        (store.apply (tokenOf update.node.id) update).1 := by
  by_cases supported : update.type.carriesState = true
  · have judged : (store.apply (tokenOf update.node.id) update).2 =
        Mutation.judge update registry[update.node.id]? := by
      rw [apply_mutation store _ supported, represents.find?]
    have same : (store.apply (tokenOf update.node.id) update).2 = (registry.submit update).2 := by
      rw [judged, Registry.submit, if_pos supported]
    refine ⟨same, represents.sound.apply update, fun id => ?_, ?_⟩
    · rw [Registry.getElem?_submit, ← same]
      cases applied : (store.apply (tokenOf update.node.id) update).2.isApplied with
      | false => simp [apply_of_not_applied applied, represents.find?]
      | true =>
        rw [find?_apply applied, represents.find?]
        by_cases own : id = update.node.id <;> simp [own]
    · rw [hosts_apply, judged, represents.hosts, Registry.submit, if_pos supported]
      simp only [Mutation.judge_eq_inserted_iff]
      cases held : registry[update.node.id]? with
      | none => simp [Mutation.judge, Mutation.isApplied, Registry.size_insert_eq, held]
      | some stored =>
        split
        · next missing => cases missing
        · split
          · simp [Registry.size_insert_eq, held]
          · rfl
  · simpa [apply, Registry.submit, supported] using represents

/-- The snapshot of the store is that of the map. -/
theorem stored_perm (represents : Represents tokenOf registry store) :
    store.stored.Perm registry.stored := by
  have keyed : (store.stored.map fun stored => (stored.node.id, stored)).Nodup := by
    have ids := represents.sound.nodup_ids
    refine List.Nodup.of_map Prod.fst ?_
    rwa [List.map_map]
  have listed : registry.toList.Nodup := by
    refine List.Nodup.of_map Prod.fst ?_
    rw [Std.ExtTreeMap.map_fst_toList_eq_keys]
    exact Std.ExtTreeMap.nodup_keys
  have same : (store.stored.map fun stored => (stored.node.id, stored)).Perm registry.toList := by
    rw [List.perm_ext_iff_of_nodup keyed listed]
    rintro ⟨id, stored⟩
    rw [Std.ExtTreeMap.mem_toList_iff_getElem?_eq_some, ← represents.find?, List.mem_map]
    constructor
    · rintro ⟨other, member, pair⟩
      obtain ⟨rfl, rfl⟩ := Prod.mk.inj pair
      exact represents.sound.mem_stored_iff.mp member
    · intro found
      obtain ⟨-, rfl⟩ := Chain.id_of_find? found
      exact ⟨stored, represents.sound.mem_stored_iff.mpr found, rfl⟩
  have values := same.map Prod.snd
  rwa [List.map_map, show Prod.snd ∘ (fun stored : StoredNode => (stored.node.id, stored)) = id
    from rfl, List.map_id] at values

end Represents

end VirtualStore

/-- What becomes of the queue with a number when the owner of a store is told of updates. -/
def ClientQueue.told (owner : Option Owner) (number : Nat) (updates : List Update)
    (queue : ClientQueue) : ClientQueue :=
  if owner.map (·.queue) = some number ∧ queue.isAlive = true then updates.foldl push queue
  else queue

namespace ClientQueue

variable {owner : Option Owner} {number : Nat}

@[simp]
theorem told_nil (queue : ClientQueue) : queue.told owner number [] = queue :=
  ite_self queue

/-- What is pushed keeps nobody from being told more. -/
theorem told_cons (update : Update) (updates : List Update) (queue : ClientQueue) :
    queue.told owner number (update :: updates) =
      (queue.told owner number [update]).told owner number updates := by
  unfold told
  by_cases heard : owner.map (·.queue) = some number ∧ queue.isAlive = true
  · simp [heard, isAlive_push]
  · simp only [if_neg heard]

end ClientQueue

/-- An update that is applied is told to the owner, if that is alive. -/
theorem NodeStore.get?_notify (queues : QueueTable) (owner : Option Owner) (mutation : Mutation)
    (update : Update) (number : Nat) :
    (notify queues owner mutation update).get? number = (queues.get? number).map
      (·.told owner number (if mutation.isApplied then [update] else [])) := by
  cases owner with
  | none => simp [notify, ClientQueue.told]
  | some owner =>
    cases applied : mutation.isApplied with
    | false => simp [notify, applied]
    | true =>
      simp only [notify, applied, if_true, QueueTable.deliver, QueueTable.get?_modify]
      by_cases here : number = owner.queue
      · simp [ClientQueue.told, here]
      · have other : ¬ owner.queue = number := fun same => here same.symm
        simp [ClientQueue.told, here, other]

/-- The updates with outcomes that changed something. -/
def appliedOf (updates : List Update) (outcomes : List Mutation) : List Update :=
  ((updates.zip outcomes).filter (·.2.isApplied)).map (·.1)

theorem appliedOf_cons (update : Update) (updates : List Update) (mutation : Mutation)
    (outcomes : List Mutation) : appliedOf (update :: updates) (mutation :: outcomes) =
      (if mutation.isApplied then [update] else []) ++ appliedOf updates outcomes := by
  cases applied : mutation.isApplied <;> simp [appliedOf, applied]

namespace VirtualStore

variable {store : VirtualStore} {registry : Registry} {tokenOf : String → Token}

/-- A store with queues around it took updates as a map did. -/
structure Follows (tokenOf : String → Token) (queues : QueueTable) (updates : List Update)
    (store : VirtualStore) (kept : Registry × List Mutation)
    (taken : (VirtualStore × QueueTable) × List Mutation) : Prop where
  outcomes : taken.2 = kept.2
  represents : Represents tokenOf kept.1 taken.1.1
  location : taken.1.1.location = store.location
  owner : taken.1.1.owner = store.owner
  told : ∀ number, taken.1.2.get? number =
    (queues.get? number).map (·.told store.owner number (appliedOf updates kept.2))

/-- A store that holds the nodes of a map takes updates as the map does. -/
theorem Represents.follows (represents : Represents tokenOf registry store) (queues : QueueTable)
    (updates : List Update) :
    Follows tokenOf queues updates store (answerAll Registry.submit registry updates)
      (answerAll (VirtualStore.submit tokenOf) (store, queues) updates) := by
  induction updates generalizing store registry queues with
  | nil => exact ⟨rfl, represents, rfl, rfl, fun number => by simp [answerAll, appliedOf]⟩
  | cons update updates ih =>
    obtain ⟨same, next⟩ := represents.submit update
    obtain ⟨-, location, -, owner⟩ := store.apply_frame (tokenOf update.node.id) update
    have rest := ih next (NodeStore.notify queues store.owner
      (store.apply (tokenOf update.node.id) update).2 update)
    refine ⟨?_, rest.represents, rest.location.trans location, rest.owner.trans owner, ?_⟩
    · exact congrArg₂ List.cons same rest.outcomes
    · intro number
      refine (rest.told number).trans ?_
      have answers : (answerAll Registry.submit registry (update :: updates)).2 =
          (registry.submit update).2 ::
            (answerAll Registry.submit (registry.submit update).1 updates).2 := rfl
      rw [NodeStore.get?_notify, Option.map_map, owner, same, answers, appliedOf_cons]
      refine congrArg (fun change => (queues.get? number).map change) (funext fun queue => ?_)
      cases (registry.submit update).2.isApplied with
      | false => simp
      | true => exact (ClientQueue.told_cons update _ queue).symm

/-- A store that took updates is a map that took them, and the queues around it are as the outcomes
say. -/
structure Mirrors (location : Location) (owner : Option Owner) (queues : QueueTable)
    (updates : List Update) (registry : Registry) (judged outcomes : List Mutation)
    (store : VirtualStore) (told : QueueTable) : Prop where
  /-- Each update does to the store what it does to the map. -/
  agree : outcomes = judged
  /-- The snapshot is that of the map, in some order, with the largest version. -/
  nodes : store.nodes.Perm (registry.stored.map (·.node))
  versions : store.versions =
    .ofList (registry.stored.map fun stored => (location, stored.version))
  hosts : store.hosts = registry.size
  counted : store.hosts = store.nodes.length
  distinct : (store.nodes.map (·.id)).Nodup
  /-- The version that is kept with a node is the one that it reports. -/
  resolved : (∀ update ∈ updates, update.type.carriesState = true → update.Resolved) →
    ∀ stored ∈ store.stored, stored.node.version? = some stored.version
  owned : store.owner = owner
  /-- The queue of the owner, if anything keeps it alive, is pushed the updates that changed
  something, in order, and all other queues stay. -/
  told : ∀ number, told.get? number =
    (queues.get? number).map (·.told owner number (appliedOf updates outcomes))

/-- Whatever the tokens of ids are, a new store with any owner takes any updates as a map from ids
to nodes does. -/
theorem mirrors_registry (tokenOf : String → Token) (index : Nat) (location : Location)
    (arc : Arc Float) (owner : Option Owner) (queues : QueueTable) (updates : List Update) :
    let kept := answerAll Registry.submit ∅ updates
    let taken := answerAll (submit tokenOf)
      (({ index, location, arc, owner } : VirtualStore), queues) updates
    Mirrors location owner queues updates kept.1 kept.2 taken.2 taken.1.1 taken.1.2 := by
  intro kept taken
  obtain ⟨outcomes, represents, place, owns, told⟩ :=
    (represents_empty tokenOf index location arc owner).follows queues updates
  have snapshot := represents.stored_perm
  have length : taken.1.1.stored.length = kept.1.size := by
    rw [snapshot.length_eq, Registry.stored, List.length_map, Std.ExtTreeMap.length_toList]
  refine {
    agree := outcomes
    nodes := snapshot.map _
    versions := ?_
    hosts := represents.hosts
    counted := ?_
    distinct := ?_
    resolved := fun resolved stored member => ?_
    owned := owns
    told := fun number => outcomes ▸ told number }
  · rw [VirtualStore.versions, place]
    exact (VersionMap.Collects.ofList _).unique (VersionMap.Collects.ofList _)
      fun pair => (snapshot.map _).mem_iff
  · rw [represents.hosts, nodes, List.length_map, length]
  · have ids := represents.sound.nodup_ids
    rwa [nodes, List.map_map]
  · have found := represents.sound.mem_stored_iff.mp member
    rw [represents.find?] at found
    exact Registry.reports_answerAll resolved _ _ found

end VirtualStore

end FleetRing
