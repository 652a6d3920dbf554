import FleetRing.Proofs.Distributor.Batches
import FleetRing.Proofs.Persist.Deeds
import FleetRing.Proofs.Store.Holding

/-!
# What is persisted, and what is held

`Works` tells a run of a distributor by the persistence runs that it makes, its deeds, while the
backend is disturbed in any way but written to by nobody else. What the distributor holds is, key
by key, what the deeds were to write last, and what is persisted is what landed of them; both are
invariants of the deeds (`Accounts`). So records lag behind what is held, but never run ahead of it
(`persistence_trails`).

Calls to the distributor are made one after the other: what one of them changed is persisted, or
given up, before the next one begins, so batches never overlap. A call to the backend that stalls
never reaches the records.
-/

namespace FleetRing

namespace Distributor

variable {config : Config} {start dist next : Distributor} {shown deeds : List Deed}

/-- The run that persists the stores of a client that registers. -/
def assignmentRun (dist : Distributor) (now : Time) (client : String) (requested : Nat) :
    PersistRun Backend :=
  dist.backend.run dist.config.policy dist.breaker now
    (RecordStore.persistAssignment (dist.allocate client requested).1)

/-- The run that persists the status after a registration. -/
def registeredRun (dist : Distributor) (now : Time) (client : String) (requested : Nat) :
    PersistRun Backend :=
  let first := dist.assignmentRun now client requested
  let status := (dist.allocate client requested).2.nodes.status
  first.backend.run dist.config.policy first.breaker first.ended
    (RecordStore.persistStatusIn (first.backend.arrange status) status)

/-- The persistence runs of a registration. -/
def registrationDeeds (dist : Distributor) (now : Time) (client : String) (requested : Nat) :
    List Deed :=
  let first := dist.assignmentRun now client requested
  let status := (dist.allocate client requested).2.nodes.status
  [⟨.assignment (dist.allocate client requested).1, first.outcome⟩,
    ⟨.status status (first.backend.arrange status),
      (dist.registeredRun now client requested).outcome⟩]

/-- The persistence runs of a batch. -/
def batchDeeds (dist : Distributor) (now : Time) (events : List NodeEvent) : List Deed :=
  let first := dist.nodesRun now events
  let status := (dist.ingest now events).dist.nodes.status
  [⟨.nodes (dist.nodes.process dist.queues (arrivals now events)).stats.touched.toList,
      first.outcome⟩,
    ⟨.status status (first.backend.arrange status), (dist.statusRun now events).outcome⟩]

/-- Everything that can happen next to a distributor and its backend, with the persistence runs
that are made. -/
inductive Works (dist : Distributor) : List Deed → Distributor → Prop where
  | register {now : Time} {client : String} {requested : Nat} {next : Distributor}
      (accepted : dist.register now client requested = .ok next) :
      Works dist (dist.registrationDeeds now client requested) next
  /-- A batch is taken in, and both of its runs are made before anything else happens. -/
  | ingest (now : Time) (events : List NodeEvent) :
      Works dist (dist.batchDeeds now events) (dist.ingest now events).dist
  | watch {client : String} {floors : List (Location × Version)} {capacity number watch : Nat}
      {next : Distributor}
      (accepted : dist.watchFrom client floors capacity = .ok (number, watch, next)) :
      Works dist [] next
  | serve {number : Nat} {queue next : ClientQueue} {occurrence : ClientQueue.Occurrence}
      (found : dist.queues.get? number = some queue) (service : occurrence.isService = true)
      (moved : ClientQueue.Step queue occurrence next) :
      Works dist [] { dist with queues := dist.queues.modify number fun _ => next }
  /-- From now on calls are disturbed as a script says, some number of them fails, they take the
  times that are given, and versions are written in another order. -/
  | inject (script : List Disturbance) (failNext : Nat) (pace : List Time)
      (arrangement : VersionMap.Arrangement) :
      Works dist []
        { dist with backend :=
          { script, records := { dist.backend.records with failNext }, pace, arrangement } }

/-- Each of these is a step. -/
theorem Works.exists_step (works : Works dist shown next) : ∃ trace, Step dist trace next := by
  cases works with
  | register accepted => exact ⟨_, .register accepted⟩
  | ingest now events => exact ⟨_, .ingest now events⟩
  | watch accepted => exact ⟨_, .watch accepted⟩
  | serve found service moved => exact ⟨_, .serve found service moved⟩
  | inject => exact ⟨_, .disturb _⟩

/-- A registration allocates stores, makes both runs, and counts. -/
theorem register_eq {now : Time} {client : String} {requested : Nat}
    (accepted : dist.register now client requested = .ok next) :
    dist.refusal? client requested = none ∧ ∃ metrics,
      next = { (dist.allocate client requested).2 with
        metrics
        breaker := (dist.registeredRun now client requested).breaker
        backend := (dist.registeredRun now client requested).backend } := by
  unfold register at accepted
  split at accepted
  · cases accepted
  · next granted =>
    obtain rfl := Except.ok.inj accepted
    exact ⟨granted, _, rfl⟩

/-- What is persisted afterwards is what landed of the deeds. -/
theorem Works.contents_eq (works : Works dist shown next) :
    next.backend.records.contents = dist.backend.records.contents.after (landed shown) := by
  cases works with
  | @register now client requested _ accepted =>
    obtain ⟨-, metrics, rfl⟩ := register_eq accepted
    exact Contents.after_runs (.assignment (dist.allocate client requested).1)
      (.status (dist.allocate client requested).2.nodes.status _) dist.config.policy dist.breaker
      now dist.backend
  | ingest now events =>
    exact Contents.after_runs
      (.nodes (dist.nodes.process dist.queues (arrivals now events)).stats.touched.toList)
      (.status (dist.ingest now events).dist.nodes.status _) dist.config.policy dist.breaker now
      dist.backend
  | watch accepted =>
    obtain ⟨held, before, opened, -, -, -, -, -, rfl⟩ := watchFrom_eq_ok.mp accepted
    rfl
  | serve => rfl
  | inject => rfl

/-- The stores of a client as they are listed. -/
def assignmentOf (dist : Distributor) (client : String) (held : Client) : Assignment :=
  ⟨client, (dist.storesOf held).map (·.assigned)⟩

/-- They are listed alike as long as each store is. -/
theorem assignmentOf_congr (same : ∀ k : Nat,
      (next.nodes.stores[k]?).map (·.assigned) = (dist.nodes.stores[k]?).map (·.assigned))
    (client : String) (held : Client) :
    next.assignmentOf client held = dist.assignmentOf client held := by
  simp only [assignmentOf, storesOf, List.map_filterMap, same]

/-- A store is listed alike whatever nodes it holds. -/
theorem assigned_apply (target : VirtualStore) (token : Token) (update : Update) :
    (target.apply token update).1.assigned = target.assigned := by
  obtain ⟨index, location, arc, -⟩ := target.apply_frame token update
  simp only [VirtualStore.assigned, index, location, arc]

/-- So are the stores of a distributor that takes in a batch. -/
theorem assigned_ingest (dist : Distributor) (now : Time) (events : List NodeEvent) (k : Nat) :
    ((dist.ingest now events).dist.nodes.stores[k]?).map (·.assigned) =
      (dist.nodes.stores[k]?).map (·.assigned) := by
  rw [nodes_ingest, (dist.nodes.process_spec {} _).1]
  exact NodeStore.frame_foldl_absorb assigned_apply dist.nodes _ k

/-- A registration lists the stores that it hands out, and leaves what is listed of others. -/
theorem allocate_listed (dist : Distributor) (client : String) (requested : Nat) :
    ∃ held, (dist.allocate client requested).2.clients = (client, held) :: dist.clients ∧
      (dist.allocate client requested).1 =
        (dist.allocate client requested).2.assignmentOf client held ∧
      ∀ k : Nat, ((dist.allocate client requested).2.nodes.stores[k]?).map (·.assigned) =
        (dist.nodes.stores[k]?).map (·.assigned) := by
  refine ⟨_, rfl, ?_, fun k => ?_⟩
  · rw [assignmentOf, storesOf, List.map_filterMap]
    rfl
  · obtain ⟨assigned, after, hands, -, -, same⟩ := dist.allocate_spec client requested
    rw [same]
    simp only [hands.getElem?_eq]
    split
    · rw [Option.map_map]
      rfl
    · rfl

/-- So the last assignment is that of the client that registered. -/
theorem latest_assignment_registrationDeeds (dist : Distributor) (now : Time) (client : String)
    (requested : Nat) (other : String) :
    latest (Writing.assignment? other)
        ((dist.registrationDeeds now client requested).map (·.writing)) =
      if other = client then some (dist.allocate client requested).1 else none := by
  have named : (dist.allocate client requested).1.client = client := rfl
  by_cases new : other = client
  · simp [latest, registrationDeeds, List.filterMap_cons, Writing.assignment?, named, new]
  · have old : ¬ client = other := fun same => new same.symm
    simp [latest, registrationDeeds, List.filterMap_cons, Writing.assignment?, named, new, old]

/-- The last node with a key that a batch persists is the last one that it touched. -/
theorem latest_node_batchDeeds (dist : Distributor) (now : Time) (events : List NodeEvent)
    (key : String × Option Location) :
    latest (Writing.node? key) ((dist.batchDeeds now events).map (·.writing)) =
      ((dist.nodes.process dist.queues (arrivals now events)).stats.touched.toList.filter
        (·.key = key)).getLast? := by
  simp only [latest, batchDeeds, List.map_cons, List.map_nil, List.filterMap_cons,
    List.filterMap_nil, Writing.node?, Writing.touched]
  cases (List.filter _ _).getLast? <;> rfl

/-- What is held and what is persisted, told by the deeds. -/
structure Accounts (dist : Distributor) (deeds : List Deed) : Prop where
  /-- What is persisted is what landed. -/
  contents : dist.backend.records.contents = ({} : Contents).after (landed deeds)
  /-- What is held is what was to be written last. -/
  held : ∀ (id : String) (location : Location), (dist.nodes.held? id location).map (·.node) =
    latest (Writing.node? (id, some location)) (deeds.map (·.writing))
  /-- Whatever was to be written is held, or something newer. -/
  covers : ∀ deed ∈ deeds, ∀ node ∈ deed.writing.touched, dist.nodes.Covers node
  /-- The last status is the current one. -/
  status : deeds ≠ [] → ∃ entries, dist.nodes.versions.Enumerates entries ∧
    latest Writing.statusText? (deeds.map (·.writing)) = some (dist.nodes.status.textOf entries)
  /-- The last assignment of a client lists its stores. -/
  assigned : ∀ client, latest (Writing.assignment? client) (deeds.map (·.writing)) =
    (dist.client? client).map (dist.assignmentOf client)

namespace Accounts

/-- A new distributor accounts for no deeds. -/
theorem create (created : Distributor.create config = .ok start) : start.Accounts [] where
  contents := by
    obtain ⟨-, topology, -, rfl⟩ := create_eq_ok created
    rfl
  held id location := by
    have nothing : start.nodes.held? id location = none :=
      Option.bind_eq_none_iff.mpr fun k _ => find?_create created k id
    rw [nothing]
    rfl
  covers := by simp
  status some := absurd rfl some
  assigned client := by
    rw [client?_create created]
    rfl

variable (accounts : dist.Accounts deeds)
include accounts

/-- Where neither nodes nor clients nor records change, no deed is missing. -/
theorem congr (nodes : next.nodes = dist.nodes) (clients : next.clients = dist.clients)
    (contents : next.backend.records.contents = dist.backend.records.contents) :
    next.Accounts deeds where
  contents := contents.trans accounts.contents
  held := nodes ▸ accounts.held
  covers := nodes ▸ accounts.covers
  status := nodes ▸ accounts.status
  assigned client := by
    have listed : next.assignmentOf client = dist.assignmentOf client :=
      funext (assignmentOf_congr (fun k => by rw [nodes]) client)
    rw [client?, clients, listed]
    exact accounts.assigned client

/-- What deeds leave is what the earlier ones leave, and then the later ones. -/
theorem contents_append (works : Works dist shown next) :
    next.backend.records.contents = ({} : Contents).after (landed (deeds ++ shown)) := by
  rw [works.contents_eq, accounts.contents, landed_append, Contents.after_append]

/-- A registration adds an assignment, and changes no node. -/
theorem register {now : Time} {client : String} {requested : Nat}
    (accepted : dist.register now client requested = .ok next) :
    next.Accounts (deeds ++ dist.registrationDeeds now client requested) := by
  have works : Works dist _ next := .register accepted
  have contents := accounts.contents_append works
  obtain ⟨granted, metrics, rfl⟩ := register_eq accepted
  obtain ⟨mine, clients, listed, kept⟩ := dist.allocate_listed client requested
  have held : ∀ id location, (dist.allocate client requested).2.nodes.held? id location =
      dist.nodes.held? id location := by
    obtain ⟨assigned, after, hands, -, -, same⟩ := dist.allocate_spec client requested
    rw [same]
    exact NodeStore.held?_eq_of_vacated (vacated_of_hands hands)
  refine ⟨contents, fun id location => ?_, fun deed member node touched => ?_, fun _ => ?_,
    fun other => ?_⟩
  · rw [List.map_append, latest_append]
    exact (congrArg _ (held id location)).trans (accounts.held id location)
  · rcases List.mem_append.mp member with earlier | last
    · obtain ⟨location, version, stored, place, number, found, older⟩ :=
        accounts.covers deed earlier node touched
      exact ⟨location, version, stored, place, number, (held node.id location).trans found, older⟩
    · simp only [registrationDeeds, List.mem_cons, List.not_mem_nil, or_false] at last
      rcases last with rfl | rfl <;> cases touched
  · rw [List.map_append, latest_append]
    exact ⟨_, Backend.enumerates_arrange _ (dist.allocate client requested).2.nodes.status, rfl⟩
  · rw [List.map_append, latest_append, accounts.assigned other]
    have lookup := client?_of_clients clients other
    have alike : (dist.allocate client requested).2.assignmentOf other = dist.assignmentOf other :=
      funext (assignmentOf_congr kept other)
    change _ = ((dist.allocate client requested).2.client? other).map
      ((dist.allocate client requested).2.assignmentOf other)
    rw [latest_assignment_registrationDeeds, lookup, listed]
    by_cases new : other = client
    · rw [if_pos new, if_pos new, new]
      rfl
    · rw [if_neg new, if_neg new, alike]
      rfl

/-- A batch adds the nodes that it applied, and the status that it reached. -/
theorem ingest (sound : dist.Sound) (now : Time) (events : List NodeEvent) :
    (dist.ingest now events).dist.Accounts (deeds ++ dist.batchDeeds now events) := by
  have works : Works dist _ _ := .ingest now events
  obtain ⟨store, touched⟩ := dist.nodes.process_spec dist.queues (arrivals now events)
  have resolved : ∀ update ∈ arrivals now events, update.Resolved :=
    resolved_of_received now events
  have held : ∀ id location, (dist.ingest now events).dist.nodes.held? id location =
      ((arrivals now events).foldl NodeStore.absorb dist.nodes).held? id location := by
    intro id location
    exact (congrArg (fun nodes : NodeStore => nodes.held? id location) store).trans rfl
  refine ⟨accounts.contents_append works, fun id location => ?_, fun deed member node listed => ?_,
    fun _ => ?_, fun client => ?_⟩
  · rw [held, NodeStore.held?_foldl_absorb sound.nodes resolved, accounts.held id location,
      List.map_append, latest_append, latest_node_batchDeeds, touched]
  · have covered : dist.nodes.Covers node ∨
        node ∈ (dist.nodes.applied (arrivals now events)).map (·.2.node) := by
      rcases List.mem_append.mp member with earlier | last
      · exact .inl (accounts.covers deed earlier node listed)
      · simp only [batchDeeds, List.mem_cons, List.not_mem_nil, or_false] at last
        rcases last with rfl | rfl
        · exact .inr (touched ▸ listed)
        · cases listed
    have covers := NodeStore.covers_foldl_absorb sound.nodes resolved covered
    obtain ⟨location, version, stored, place, number, found, older⟩ := covers
    exact ⟨location, version, stored, place, number, (held node.id location).trans found, older⟩
  · rw [List.map_append, latest_append]
    exact ⟨_, Backend.enumerates_arrange _ (dist.ingest now events).dist.nodes.status, rfl⟩
  · rw [List.map_append, latest_append, accounts.assigned client]
    have alike : (dist.ingest now events).dist.assignmentOf client = dist.assignmentOf client :=
      funext (assignmentOf_congr (dist.assigned_ingest now events) client)
    rw [alike]
    rfl

/-- Whatever happens, the account is carried on. -/
theorem step (sound : dist.Sound) (works : Works dist shown next) :
    next.Accounts (deeds ++ shown) := by
  cases works with
  | register accepted => exact accounts.register accepted
  | ingest now events => exact accounts.ingest sound now events
  | watch accepted =>
    obtain ⟨held, before, opened, -, -, -, -, -, rfl⟩ := watchFrom_eq_ok.mp accepted
    rw [List.append_nil]
    exact accounts.congr rfl rfl rfl
  | serve =>
    rw [List.append_nil]
    exact accounts.congr rfl rfl rfl
  | inject =>
    rw [List.append_nil]
    exact accounts.congr rfl rfl rfl

end Accounts

/-- Every run from creation accounts for its deeds. -/
theorem accounts_of_works (created : Distributor.create config = .ok start)
    (run : Chained Works start deeds dist) : dist.Sound ∧ dist.Accounts deeds := by
  induction run with
  | refl => exact ⟨sound_create created, .create created⟩
  | step prior transition ih =>
    obtain ⟨sound, accounts⟩ := ih
    obtain ⟨trace, step⟩ := transition.exists_step
    exact ⟨sound.moves step.moves, accounts.step sound transition⟩

/-- Records lag behind what is held, each in its own time. -/
structure Trails (dist : Distributor) (deeds : List Deed) : Prop where
  /-- A record of a node is the text of a node with its key, and a node with the same id and
  location is held, in the same version or a later one. -/
  behind : ∀ rest text, dist.backend.records.get? (nodePrefix ++ rest) = some text →
    ∃ (node : Node) (location : Location) (version : Version),
      node.recordKey = nodePrefix ++ rest ∧ node.text = text ∧
      node.location? = some location ∧ node.version? = some version ∧
      ∃ stored ∈ dist.nodes.stored, stored.node.key = (node.id, some location) ∧
        version ≤ stored.version
  /-- Every node that is held was changed by some batch. -/
  changed : ∀ stored ∈ dist.nodes.stored, (lastOutcome stored.node.key deeds).isSome = true
  /-- If the run for the last batch that changed a node ended persisted, the record of the node is
  the text of what is held of it. -/
  current : ∀ id location, lastOutcome (id, some location) deeds = some .persisted →
    ∃ stored, dist.nodes.stored.filter (fun stored => stored.node.key = (id, some location)) =
        [stored] ∧
      dist.backend.records.get? stored.node.recordKey = some stored.node.text

/-- Records are what is held. -/
structure Mirrored (dist : Distributor) (deeds : List Deed) : Prop where
  nodes : ∀ rest text, dist.backend.records.get? (nodePrefix ++ rest) = some text ↔
    ∃ stored ∈ dist.nodes.stored, stored.node.recordKey = nodePrefix ++ rest ∧
      stored.node.text = text
  /-- The status is written with every batch and every registration, its versions in some order. -/
  status : deeds ≠ [] → ∃ entries, dist.nodes.versions.Enumerates entries ∧
    dist.backend.records.get? RecordStore.statusKey = some (dist.nodes.status.textOf entries)
  unwritten : deeds = [] → dist.backend.records.get? RecordStore.statusKey = none
  assignments : ∀ client, dist.backend.records.assignment? client =
    (dist.client? client).map (dist.assignmentOf client)
  /-- The text that lists them is written with every registration. -/
  listing : ∀ client held, dist.client? client = some held →
    dist.backend.records.get? RecordStore.assignmentsKey =
      some dist.backend.records.assignmentsText

namespace Accounts

section Records

variable (accounts : dist.Accounts deeds)
include accounts

/-- The record of a node that stands at a location is that of the last node that landed. -/
theorem get?_recordKey {node : Node} (located : node.location?.isSome = true) :
    dist.backend.records.get? node.recordKey =
      (latest (Writing.node? node.key) (landed deeds)).map (·.text) := by
  have record := Contents.record_after located (landed deeds) {}
  rw [← accounts.contents, Std.ExtTreeMap.getElem?_empty, Option.or_none] at record
  exact record

theorem get?_of_latest {node last : Node} (located : node.location?.isSome = true)
    (found : latest (Writing.node? node.key) (landed deeds) = some last) :
    dist.backend.records.get? node.recordKey = some last.text := by
  rw [accounts.get?_recordKey located, found, Option.map_some]

/-- Every record of a node is one of a node that was to be written and is covered. -/
theorem exists_node {rest text : String}
    (recorded : dist.backend.records.get? (nodePrefix ++ rest) = some text) :
    ∃ node : Node, node.recordKey = nodePrefix ++ rest ∧ node.text = text ∧
      dist.nodes.Covers node := by
  have found : dist.backend.records.contents.records[nodePrefix ++ rest]? = some text := recorded
  rw [accounts.contents] at found
  obtain ⟨writing, wrote, node, touched, key, same⟩ := Contents.exists_of_record found
  obtain ⟨deed, member, rfl⟩ := exists_of_landed wrote
  exact ⟨node, key, same, accounts.covers deed member node touched⟩

end Records

section Sound

variable (accounts : dist.Accounts deeds) (sound : dist.Sound)
include accounts sound

/-- A node that is held is what was to be written last under its key. -/
theorem latest_of_stored {stored : StoredNode} (member : stored ∈ dist.nodes.stored) :
    stored.node.location?.isSome = true ∧
      latest (Writing.node? stored.node.key) (deeds.map (·.writing)) = some stored.node := by
  obtain ⟨id, location, key⟩ := sound.nodes.exists_key member
  have held := sound.nodes.held?_eq_some_iff.mpr ⟨member, key⟩
  have last := accounts.held id location
  rw [held] at last
  exact ⟨Option.isSome_of_eq_some (congrArg Prod.snd key), by rw [key, ← last]; rfl⟩

/-- Conversely, what was to be written last is held. -/
theorem exists_stored {id : String} {location : Location} {node : Node}
    (last : latest (Writing.node? (id, some location)) (deeds.map (·.writing)) = some node) :
    ∃ stored, dist.nodes.held? id location = some stored ∧ stored.node = node ∧
      stored ∈ dist.nodes.stored ∧ stored.node.key = (id, some location) := by
  rw [← accounts.held id location] at last
  obtain ⟨stored, held, same⟩ := Option.map_eq_some_iff.mp last
  exact ⟨stored, held, same, sound.nodes.held?_eq_some_iff.mp held⟩

/-- Whatever became of the runs, records lag behind what is held. -/
theorem trails : dist.Trails deeds where
  behind rest text recorded := by
    obtain ⟨node, key, same, location, version, stored, place, number, held, older⟩ :=
      accounts.exists_node recorded
    obtain ⟨member, named⟩ := sound.nodes.held?_eq_some_iff.mp held
    exact ⟨node, location, version, key, same, place, number, stored, member, named, older⟩
  changed stored member := by
    rw [isSome_lastOutcome, (accounts.latest_of_stored sound member).2]
    rfl
  current id location persisted := by
    have some := isSome_lastOutcome.mp (Option.isSome_of_eq_some persisted)
    obtain ⟨node, last⟩ := Option.isSome_iff_exists.mp some
    obtain ⟨stored, held, rfl, member, key⟩ := accounts.exists_stored sound last
    refine ⟨stored, by rw [sound.nodes.filter_key_eq, held]; rfl, ?_⟩
    have located := (accounts.latest_of_stored sound member).1
    exact accounts.get?_of_latest located (key ▸ (latest_landed persisted).trans last)

/-- If all that was to be written landed, the records of nodes are the nodes that are held. -/
theorem exists_stored_iff (whole : landed deeds = deeds.map (·.writing)) {rest text : String} :
    dist.backend.records.get? (nodePrefix ++ rest) = some text ↔
      ∃ stored ∈ dist.nodes.stored, stored.node.recordKey = nodePrefix ++ rest ∧
        stored.node.text = text := by
  constructor
  · intro recorded
    obtain ⟨node, key, -, location, version, stored, place, -⟩ := accounts.exists_node recorded
    have located : node.location?.isSome = true := Option.isSome_of_eq_some place
    have standing : node.key = (node.id, some location) := by rw [Node.key, place]
    -- The record may be of an earlier node with the same key, so the last one is looked up.
    rw [← key, accounts.get?_recordKey located, whole, standing] at recorded
    obtain ⟨last, found, same⟩ := Option.map_eq_some_iff.mp recorded
    obtain ⟨held, -, rfl, member, named⟩ := accounts.exists_stored sound found
    exact ⟨held, member,
      ((Node.recordKey_eq_iff located).mpr (standing.trans named.symm)).symm.trans key, same⟩
  · rintro ⟨stored, member, key, rfl⟩
    obtain ⟨located, last⟩ := accounts.latest_of_stored sound member
    rw [← key]
    exact accounts.get?_of_latest located (whole ▸ last)

/-- If every run ended persisted, records are what is held. -/
theorem mirrored (persisted : ∀ deed ∈ deeds, deed.outcome = .persisted) :
    dist.Mirrored deeds := by
  have whole := landed_of_persisted persisted
  have contents := accounts.contents
  rw [whole] at contents
  have status := Contents.status_after (deeds.map (·.writing)) {}
  rw [← contents, Std.ExtTreeMap.getElem?_empty, Option.or_none] at status
  refine ⟨fun rest text => accounts.exists_stored_iff sound whole, fun some => ?_, fun none => ?_,
    fun client => ?_, fun client held found => ?_⟩
  · obtain ⟨entries, all, last⟩ := accounts.status some
    exact ⟨entries, all, status.trans last⟩
  · subst none
    exact status
  · have record := Contents.assignment_after client (deeds.map (·.writing)) {}
    rw [← contents, accounts.assigned client, Std.ExtTreeMap.getElem?_empty, Option.or_none]
      at record
    exact record
  · have given := Contents.assignment_after client (deeds.map (·.writing)) {}
    rw [accounts.assigned client, found] at given
    have record := Contents.listing_after given
    rw [← contents] at record
    exact record

end Sound

end Accounts

/-- Persistence never runs ahead of what is held. In every run from creation, whatever befalls the
backend, records lag behind what is held; if every run ended persisted, they are what is held. No
two nodes that differ in id, region or partition share a record, nor does a node share one with the
status or the assignments; and an attempt that does not succeed writes nothing. -/
theorem persistence_trails :
    (∀ {config : Config} {start dist : Distributor} {deeds : List Deed},
      Distributor.create config = .ok start → Chained Works start deeds dist →
        dist.Trails deeds ∧
          ((∀ deed ∈ deeds, deed.outcome = .persisted) → dist.Mirrored deeds)) ∧
    (∀ first second : Node, first.recordKey = second.recordKey ↔
      first.id = second.id ∧ first.placement.region = second.placement.region ∧
        first.placement.partition = second.placement.partition) ∧
    (∀ node : Node, node.recordKey ≠ RecordStore.statusKey ∧
      node.recordKey ≠ RecordStore.assignmentsKey) ∧
    ∀ (writing : Writing) (backend : Backend),
      (backend.attempt writing.call).1.ending ≠ .succeeded →
        (backend.attempt writing.call).2.records.contents = backend.records.contents := by
  refine ⟨fun created run => ?_, fun first second => Node.recordKey_inj, fun node => ?_,
    fun writing backend failed => (writing.contents_attempt backend).trans (if_neg failed)⟩
  · obtain ⟨sound, accounts⟩ := accounts_of_works created run
    exact ⟨accounts.trails sound, accounts.mirrored sound⟩
  · obtain ⟨rest, same⟩ := node.exists_rest
    rw [same]
    exact ⟨(statusKey_ne rest).symm, (assignmentsKey_ne rest).symm⟩

/-- Entries come in the order of their texts, from the last one on. -/
def smallBackwards : VersionMap.Arrangement where
  entries map := map.entriesByText.reverse
  enumerates map :=
    VersionMap.enumerates_iff_perm.mpr ((List.reverse_perm _).trans
      (VersionMap.enumerates_iff_perm.mp map.enumerates_entriesByText))

/-- The small fleet when 15 calls are bound to fail, and each call takes some time. -/
def smallBroken : Distributor :=
  { smallTaken with backend :=
    { script := [], records := { smallTaken.backend.records with failNext := 15 },
      pace := List.replicate 30 1, arrangement := smallBackwards } }

/-- The status that it would persist then. -/
def smallStatus : Writing :=
  .status smallTaken.nodes.status (smallBroken.backend.arrange smallTaken.nodes.status)

/-- What is reported to the small fleet from then on, and when. -/
def smallBatches : List (Time × List NodeEvent) := [
  (1, [reported .modified "a" 6 .shanghai]),
  (2, [reported .added "b" 7 .beijing]),
  (30006, [reported .modified "a" 8 .shanghai]),
  (30010, [reported .modified "b" 9 .beijing])]

/-- Take in batches one after the other, with the persistence runs that are made. -/
def ingestAll (dist : Distributor) : List (Time × List NodeEvent) → List Deed × Distributor
  | [] => ([], dist)
  | (now, events) :: batches =>
    let (deeds, later) := (dist.ingest now events).dist.ingestAll batches
    (dist.batchDeeds now events ++ deeds, later)

theorem ingestAll_works (dist : Distributor) (batches : List (Time × List NodeEvent)) :
    Chained Works dist (dist.ingestAll batches).1 (dist.ingestAll batches).2 := by
  induction batches generalizing dist with
  | nil => exact .refl
  | cons batch batches ih =>
    have first : Works dist _ _ := .ingest batch.1 batch.2
    exact (Chained.single first).trans (ih _)

/-- The deeds of the small fleet before calls fail, -/
def smallDeeds : List Deed :=
  smallStart.batchDeeds 0 [reported .added "a" 5 .shanghai] ++
    smallStocked.registrationDeeds 0 "d" 1

/-- and from then on. -/
def smallLaterDeeds : List Deed :=
  (smallBroken.ingestAll smallBatches).1

/-- The small fleet in the end. -/
def smallAhead : Distributor :=
  (smallBroken.ingestAll smallBatches).2

theorem smallTaken_works : Chained Works smallStart smallDeeds smallTaken := by
  have stocked : Works smallStart _ smallStocked := .ingest 0 [reported .added "a" 5 .shanghai]
  exact (Chained.single stocked).step (.register smallStocked_register)

theorem smallAhead_works : Chained Works smallStart (smallDeeds ++ smallLaterDeeds) smallAhead := by
  have broken : Works smallTaken [] smallBroken :=
    .inject [] 15 (List.replicate 30 1) smallBackwards
  have prior := smallTaken_works.step broken
  rw [List.append_nil] at prior
  exact prior.trans (ingestAll_works smallBroken smallBatches)

/-- In the small fleet, everything is persisted at first. Then 15 calls fail, and the breaker opens.
The next nodes are skipped, but the breaker is closed again before the status is persisted; so the
record of one node stays behind, while a later change of another one is persisted. -/
theorem persistence_trails_small :
    smallTaken.Mirrored smallDeeds ∧
    (smallBroken.backend.attempt smallStatus.call).2.records.contents =
      smallBroken.backend.records.contents ∧
    smallAhead.Trails (smallDeeds ++ smallLaterDeeds) ∧
    smallLaterDeeds.map (·.outcome) = [.failed, .failed, .failed, .skipped, .skipped, .persisted,
      .persisted, .persisted] ∧
    smallAhead.nodes.stored.map (·.version) = [9, 8] ∧
    smallAhead.backend.records.get? (Node.fresh "a" 8 ⟨.shanghai, .rp1⟩).recordKey =
      some (Node.fresh "a" 5 ⟨.shanghai, .rp1⟩).text ∧
    smallAhead.backend.records.get? (Node.fresh "b" 9 ⟨.beijing, .rp1⟩).recordKey =
      some (Node.fresh "b" 9 ⟨.beijing, .rp1⟩).text := by
  have created : Distributor.create smallFleet = .ok smallStart := rfl
  have written : ∀ deed ∈ smallDeeds, deed.outcome = .persisted := by decide +kernel
  have failed := persistence_trails.2.2.2 smallStatus smallBroken.backend (by decide +kernel)
  obtain ⟨-, accounts⟩ := accounts_of_works created smallAhead_works
  exact ⟨(persistence_trails.1 created smallTaken_works).2 written, failed,
    (persistence_trails.1 created smallAhead_works).1, by decide +kernel, by decide +kernel,
    accounts.get?_of_latest (by decide) (by decide +kernel),
    accounts.get?_of_latest (by decide) (by decide +kernel)⟩

end Distributor

end FleetRing
