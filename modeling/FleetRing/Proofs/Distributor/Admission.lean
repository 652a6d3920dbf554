import FleetRing.Proofs.Distributor.Holdings

/-!
# Who is let in

A registration is judged by figures that are kept up to date: the count of all hosts, the
counts of the single stores, and a scan that stops early. In every reachable state these
figures are the nodes that are really there, so `admission` can say in terms of those which
registration is refused, and why. `registering` follows a registration through the
distributor, so that what a refused one has done would show; it has done nothing.
-/

namespace FleetRing

/-- Stores count the nodes that they hold. -/
theorem NodeStore.Sound.hosts_eq_length {nodes : NodeStore} (sound : nodes.Sound)
    {store : VirtualStore} (listed : store ∈ nodes.stores.toList) :
    store.hosts = store.nodes.length := by
  obtain ⟨k, here⟩ := List.mem_iff_getElem?.mp listed
  rw [sound.counted k store (by simpa using here), VirtualStore.ids, VirtualStore.nodes,
    List.length_map, List.length_map]

namespace Distributor

variable {config : Config} {dist : Distributor} {now : Time} {client : String} {requested : Nat}
  {trace : Trace}

/-- Every node of a store without owner. -/
def freeNodes (dist : Distributor) : List Node :=
  (dist.nodes.stores.toList.filter fun store => !store.isAssigned).flatMap (·.nodes)

/-- A scan finds what is on offer, however far it has to go. -/
theorem coversFree_of_le {free : Nat} {list : List VirtualStore} (short : free < requested)
    (enough : requested ≤ free + (list.map offer).sum) :
    NodeStore.coversFree requested free list = true := by
  induction list generalizing free with
  | nil =>
    simp only [List.map_nil, List.sum_nil] at enough
    omega
  | cons store rest ih =>
    rw [List.map_cons, List.sum_cons, offer] at enough
    unfold NodeStore.coversFree
    split
    · next assigned =>
      rw [if_pos assigned, Nat.zero_add] at enough
      exact ih short enough
    · next unassigned =>
      rw [if_neg unassigned, ← Nat.add_assoc] at enough
      split
      · rfl
      · next further => exact ih (Nat.lt_of_not_le further) enough

/-- What the stores have to offer is the nodes of those without owner. -/
theorem Sound.sum_offer (sound : dist.Sound) :
    (dist.nodes.stores.toList.map offer).sum = dist.freeNodes.length := by
  have counts : ∀ store ∈ dist.nodes.stores.toList, store.hosts = store.nodes.length :=
    fun store listed => sound.nodes.hosts_eq_length listed
  rw [freeNodes]
  generalize dist.nodes.stores.toList = stores at counts
  induction stores with
  | nil => rfl
  | cons store rest ih =>
    obtain ⟨first, rest⟩ := List.forall_mem_cons.mp counts
    rw [List.map_cons, List.sum_cons, ih rest, offer]
    cases assigned : store.isAssigned <;> simp [assigned, first]

/-- The scan tells whether the stores without owner hold as many nodes as requested. -/
theorem Sound.hasFree_iff (sound : dist.Sound) (positive : 0 < requested) :
    dist.nodes.hasFree requested = true ↔ requested ≤ dist.freeNodes.length := by
  rw [← sound.sum_offer]
  constructor
  · intro covered
    simpa using le_of_coversFree covered
  · intro enough
    exact coversFree_of_le positive (by simpa using enough)

/-- The count of all hosts is the number of nodes that are stored. -/
theorem Reachable.totalHosts_eq (reached : Reachable config trace dist) :
    dist.nodes.totalHosts = dist.nodes.stored.length := by
  have counted := reached.sound.nodes.hosts_eq
  obtain ⟨start, created, run⟩ := reached
  obtain ⟨-, topology, positive, rfl⟩ := create_eq_ok created
  have blank := NodeStore.reflects_ofTopology topology positive
  have history := history_of_affairs (affairs_of_steps run)
  rw [(blank.steps history).total, counted]
  simp [NodeStore.stored, VirtualStore.nodes, List.length_flatMap]

/-- A persistence call, and when it ended. -/
def persisting (now : Time) (write : RecordStore → Bool × RecordStore) :
    Call Refusal Distributor Time :=
  modifyGet fun dist => (dist.persist now write).2

/-- A registration, check by check and change by change. -/
def registering (now : Time) (client : String) (requested : Nat) :
    Call Refusal Distributor Unit := do
  let minimum := (← get).config.minimalRequest.toNat
  Call.refuseIf (requested ≤ minimum) (.notAboveMinimum requested minimum)
  let total := (← get).nodes.totalHosts
  Call.refuseIf (total < requested) (.aboveTotal requested total)
  Call.refuseIf (!(← get).nodes.hasFree requested) (.aboveFree requested)
  Call.refuseIf ((← get).client? client).isSome (.clientExists client)
  let assignment ← modifyGet fun dist => dist.allocate client requested
  modify fun dist => { dist with
    metrics := { dist.metrics with
      clientsRegistered := Metrics.add dist.metrics.clientsRegistered 1 } }
  let ended ← persisting now (RecordStore.persistAssignment assignment)
  let status := (← get).nodes.status
  let _ ← persisting ended (RecordStore.persistStatusIn ((← get).backend.arrange status) status)

/-- It answers what `register` answers, and a refused one has changed nothing. -/
theorem registering_run (dist : Distributor) (now : Time) (client : String) (requested : Nat) :
    (registering now client requested).run.run dist =
      match dist.register now client requested with
      | .ok next => (.ok (), next)
      | .error refusal => (.error refusal, dist) := by
  unfold registering register refusal?
  simp only [Call.run_get, Call.run_refuseIf, decide_eq_true_eq]
  split
  · rfl
  · split
    · rfl
    · split
      · rfl
      · split <;> rfl

/-- What a registration comes to: the first of four objections that holds, or admission. `answer`
is what it is told, and `after` what it leaves. -/
structure Admits (dist : Distributor) (now : Time) (client : String) (requested : Nat)
    (answer : Except Refusal Unit) (after : Distributor) : Prop where
  /-- It is told what `register` tells. -/
  registers : dist.register now client requested = answer.map fun _ => after
  /-- It asks for no more than the minimum, -/
  notAboveMinimum :
    answer = .error (.notAboveMinimum requested dist.config.minimalRequest.toNat) ↔
      requested ≤ dist.config.minimalRequest.toNat
  /-- or else for more nodes than are stored, -/
  aboveTotal : dist.config.minimalRequest.toNat < requested →
    (answer = .error (.aboveTotal requested dist.nodes.stored.length) ↔
      dist.nodes.stored.length < requested)
  /-- or else for more than the stores without owner hold, -/
  aboveFree : dist.config.minimalRequest.toNat < requested →
    requested ≤ dist.nodes.stored.length →
      (answer = .error (.aboveFree requested) ↔ dist.freeNodes.length < requested)
  /-- or else its id is taken. -/
  clientExists : dist.config.minimalRequest.toNat < requested →
    requested ≤ dist.nodes.stored.length → requested ≤ dist.freeNodes.length →
      (answer = .error (.clientExists client) ↔ ∃ held, dist.client? client = some held)
  /-- If there is nothing against it, the client is known from then on. -/
  admitted : dist.config.minimalRequest.toNat < requested →
    requested ≤ dist.nodes.stored.length → requested ≤ dist.freeNodes.length →
      dist.client? client = none → answer = .ok () ∧ ∃ held, after.client? client = some held
  /-- A refusal leaves everything as it is. -/
  unchanged : ∀ refusal, answer = .error refusal → after = dist

theorem Admits.eq_of_refused {told : Except Refusal Unit × Distributor} {refusal : Refusal}
    (admits : dist.Admits now client requested told.1 told.2) (refused : told.1 = .error refusal) :
    told = (.error refusal, dist) :=
  Prod.ext refused (admits.unchanged refusal refused)

/-- A registration that is granted makes its client known. -/
theorem exists_client_of_register {next : Distributor}
    (accepted : dist.register now client requested = .ok next) :
    ∃ held, next.client? client = some held := by
  obtain ⟨-, versions, metrics, breaker, backend, rfl⟩ := register_eq_ok accepted
  obtain ⟨assigned, after, -, -, -, same⟩ := dist.allocate_spec client requested
  exact ⟨_, (client?_of_clients (congrArg Distributor.clients same) client).trans (if_pos rfl)⟩

/-- A registration is refused for the first objection that there is. -/
theorem refusal?_of_error {refusal : Refusal}
    (refused : dist.register now client requested = .error refusal) :
    dist.refusal? client requested = some refusal := by
  unfold register at refused
  split at refused
  · next objection => rw [objection, Except.error.inj refused]
  · cases refused

/-- The figures say what the nodes in the stores say. -/
theorem Reachable.refusal?_eq (reached : Reachable config trace dist) (client : String)
    (requested : Nat) : dist.refusal? client requested =
      if requested ≤ dist.config.minimalRequest.toNat then
        some (.notAboveMinimum requested dist.config.minimalRequest.toNat)
      else if dist.nodes.stored.length < requested then
        some (.aboveTotal requested dist.nodes.stored.length)
      else if dist.freeNodes.length < requested then some (.aboveFree requested)
      else if (dist.client? client).isSome then some (.clientExists client)
      else none := by
  rw [refusal?, reached.totalHosts_eq]
  by_cases below : requested ≤ dist.config.minimalRequest.toNat
  · simp only [below, if_true]
  · have covers := reached.sound.hasFree_iff (Nat.zero_lt_of_lt (Nat.lt_of_not_le below))
    have short : (!dist.nodes.hasFree requested) = decide (dist.freeNodes.length < requested) := by
      rw [Bool.eq_iff_iff, Bool.not_eq_true', ← Bool.not_eq_true, covers, decide_eq_true_eq,
        Nat.not_le]
    simp only [below, if_false, short, decide_eq_true_eq]

/-- In a reachable state, a registration is refused for the reasons that the nodes in the stores
give, and for no other ones, and a refusal changes nothing at all. -/
theorem admission (reached : Reachable config trace dist) (now : Time) (client : String)
    (requested : Nat) : dist.Admits now client requested
      ((registering now client requested).run.run dist).1
      ((registering now client requested).run.run dist).2 := by
  have judged := reached.refusal?_eq client requested
  rw [registering_run]
  cases registered : dist.register now client requested with
  | ok next =>
    obtain ⟨granted, -⟩ := register_eq_ok registered
    have known := exists_client_of_register registered
    rw [granted] at judged
    split_ifs at judged with below short unfree taken
    have fresh : dist.client? client = none := by simpa using taken
    exact ⟨registered, by simpa using below, fun _ => by simpa using short,
      fun _ _ => by simpa using unfree, fun _ _ _ => by simp [fresh],
      fun _ _ _ _ => ⟨rfl, known⟩, by simp⟩
  | error refusal =>
    rw [refusal?_of_error registered] at judged
    -- Each objection contradicts what the later ones presuppose.
    split_ifs at judged with below short unfree taken <;> obtain rfl := Option.some.inj judged
    · exact ⟨registered, by simp [below], by omega, by omega, by omega, by omega, by simp⟩
    · exact ⟨registered, by simp [below], by simp [short], by omega, by omega, by omega, by simp⟩
    · exact ⟨registered, by simp [below], by simp [short], by simp [unfree], by omega, by omega,
        by simp⟩
    · obtain ⟨held, found⟩ := Option.isSome_iff_exists.mp taken
      exact ⟨registered, by simp [below], by simp [short], by simp [unfree], by simp [found],
        by simp [found], by simp⟩

/-- When a client has taken one of two nodes, each objection is met by a request, and the request of
another client for the node that is left by none. -/
theorem admission_small :
    smallHalf.nodes.stored.length = 2 ∧ smallHalf.freeNodes.length = 1 ∧
      (registering 3 "e" 0).run.run smallHalf = (.error (.notAboveMinimum 0 0), smallHalf) ∧
      (registering 3 "e" 3).run.run smallHalf = (.error (.aboveTotal 3 2), smallHalf) ∧
      (registering 3 "e" 2).run.run smallHalf = (.error (.aboveFree 2), smallHalf) ∧
      (registering 3 "d" 1).run.run smallHalf = (.error (.clientExists "d"), smallHalf) ∧
      ((registering 3 "e" 1).run.run smallHalf).1 = .ok () := by
  have stored : smallHalf.nodes.stored.length = 2 := by decide +kernel
  have free : smallHalf.freeNodes.length = 1 := by decide +kernel
  have minimum : smallHalf.config.minimalRequest.toNat = 0 := by decide +kernel
  have unknown : smallHalf.client? "e" = none := by decide +kernel
  have admits := admission smallHalf_reachable 3
  have below := (admits "e" 0).notAboveMinimum.mpr (by omega)
  have aboveTotal := ((admits "e" 3).aboveTotal (by omega)).mpr (by omega)
  have aboveFree := ((admits "e" 2).aboveFree (by omega) (by omega)).mpr (by omega)
  have taken := ((admits "d" 1).clientExists (by omega) (by omega) (by omega)).mpr
    ⟨_, smallHalf_client⟩
  obtain ⟨admitted, -⟩ := (admits "e" 1).admitted (by omega) (by omega) (by omega) unknown
  rw [minimum] at below
  rw [stored] at aboveTotal
  exact ⟨stored, free, (admits "e" 0).eq_of_refused below, (admits "e" 3).eq_of_refused aboveTotal,
    (admits "e" 2).eq_of_refused aboveFree, (admits "d" 1).eq_of_refused taken, admitted⟩

end Distributor

end FleetRing
