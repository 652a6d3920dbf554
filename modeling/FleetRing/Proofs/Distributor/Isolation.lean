import FleetRing.Proofs.Distributor.Batches
import FleetRing.Proofs.Distributor.Operations
import FleetRing.Proofs.Store.Agreement
import FleetRing.Proofs.Watch.Mailbox

/-!
# Clients do not influence each other

Two distributors are `Alike` to a client when they hold the same for it: the same contents of the
stores that it was handed, and the same queue. What other clients do, and events that are routed
to stores of others, lead to a distributor that is alike; what the client does, and events that
are routed to its stores, keep distributors alike and show the client the same. So a client
sees of a run what it would see if it were alone with its own events (`isolation`).
-/

namespace FleetRing

namespace Distributor

/-- What one client sees. -/
inductive View where
  | listed (answer : Except Refusal (List Node × VersionMap))
  /-- A watch was asked for. -/
  | watched (answer : Except Refusal (Nat × Nat))
  /-- A forwarder of the client made a step, or the client itself, or neither could. -/
  | served (occurrence : Option ClientQueue.Occurrence)
  /-- An update entered the mailbox of a watch. -/
  | mailed (watch : Nat) (update : Update)
  deriving DecidableEq

/-- What a client is answered. -/
def answers (dist : Distributor) (client : String) : Operation → List View
  | .list other => if other = client then [.listed (dist.list client)] else []
  | .watch other floors capacity =>
    if other = client then
      [.watched ((dist.watchFrom client floors capacity).map fun answer => (answer.1, answer.2.1))]
    else []
  | .serve other service =>
    if other = client then [.served ((dist.serve? client service).map (·.2.1))] else []
  | .register .. | .ingest .. | .disturb .. => []

/-- What enters the mailboxes of a client's watches between two states. -/
def mailed (held : Client) (before after : Distributor) : List View :=
  match before.queues.get? held.queue, after.queues.get? held.queue with
  | some first, some second => (first.entered second).map fun entry => .mailed entry.1 entry.2
  | _, _ => []

/-- What a client sees of operations, one after the other. -/
def views (dist : Distributor) (client : String) (held : Client) : List Operation → List View
  | [] => []
  | operation :: operations =>
    let next := (dist.perform operation).2
    dist.answers client operation ++ mailed held dist next ++ next.views client held operations

/-- Does an event bring in an update that is routed to one of the client's stores? -/
def concerns (dist : Distributor) (held : Client) (event : NodeEvent) : Bool :=
  (accept? event).any (dist.nodes.reaches held.stores)

/-- What is left of an operation when a client is alone, and only some events come. -/
def Operation.alone? (client : String) (keeps : NodeEvent → Bool) : Operation → Option Operation
  | .ingest now events => some (.ingest now (events.filter keeps))
  | .disturb backend => some (.disturb backend)
  | .register now other requested =>
    if other = client then some (.register now other requested) else none
  | .list other => if other = client then some (.list other) else none
  | .watch other floors capacity =>
    if other = client then some (.watch other floors capacity) else none
  | .serve other service => if other = client then some (.serve other service) else none

/-- Two distributors hold the same for a client. -/
structure Alike (client : String) (held : Client) (one two : Distributor) : Prop where
  sound : one.Sound ∧ two.Sound
  known : one.client? client = some held ∧ two.client? client = some held
  nodes : one.nodes.AgreeOn held.stores two.nodes
  queue : one.queues.get? held.queue = two.queues.get? held.queue

/-- The queue of a client becomes another one. -/
def withQueue (dist : Distributor) (held : Client) (queue : ClientQueue) : Distributor :=
  { dist with queues := dist.queues.modify held.queue fun _ => queue }

variable {config : Config} {client other : String} {held : Client}
  {dist one two three : Distributor} {trace : Trace} {update : Update}

namespace Alike

theorem refl (sound : dist.Sound) (known : dist.client? client = some held) :
    Alike client held dist dist :=
  ⟨⟨sound, sound⟩, ⟨known, known⟩, .refl _ _, rfl⟩

theorem symm (alike : Alike client held one two) : Alike client held two one :=
  ⟨alike.sound.symm, alike.known.symm, alike.nodes.symm, alike.queue.symm⟩

theorem trans (first : Alike client held one two) (second : Alike client held two three) :
    Alike client held one three :=
  ⟨⟨first.sound.1, second.sound.2⟩, ⟨first.known.1, second.known.2⟩,
    first.nodes.trans second.nodes, first.queue.trans second.queue⟩

/-- The same is listed for the client. -/
theorem list_eq (alike : Alike client held one two) : one.list client = two.list client := by
  have stores : one.storesOf held = two.storesOf held :=
    List.filterMap_congr alike.nodes.stores
  simp only [list, alike.known.1, alike.known.2, stores]

/-- The same queue is found for the client. -/
theorem exists_queue (alike : Alike client held one two) :
    ∃ queue, one.queues.get? held.queue = some queue ∧ two.queues.get? held.queue = some queue := by
  obtain ⟨queue, here, -⟩ := alike.sound.1.queue client held alike.known.1
  exact ⟨queue, here, alike.queue.symm.trans here⟩

/-- The same entered the mailboxes, where distributors are alike before and after. -/
theorem mailed_eq {first second : Distributor} (before : Alike client held one two)
    (after : Alike client held first second) : mailed held one first = mailed held two second := by
  simp only [mailed, before.queue, after.queue]

/-- Nothing entered them, where distributors are alike. -/
theorem mailed_nil (alike : Alike client held one two) : mailed held one two = [] := by
  obtain ⟨queue, here, there⟩ := alike.exists_queue
  simp only [mailed, here, there, ClientQueue.entered_self, List.map_nil]

end Alike

section Others

variable (sound : dist.Sound) (known : dist.client? client = some held)
include sound known

theorem alike_administer (versions : VersionMap) (metrics : Metrics) (breaker : Breaker)
    (backend : Backend) :
    Alike client held (dist.administer versions metrics breaker backend) dist :=
  ⟨⟨sound.move (.administer versions metrics breaker backend), sound⟩, ⟨known, known⟩,
    ⟨rfl, rfl, fun _ _ => rfl⟩, rfl⟩

/-- The registration of another client takes no store from the client. -/
theorem alike_allocate {requested : Nat} (granted : dist.refusal? other requested = none) :
    Alike client held (dist.allocate other requested).2 dist := by
  obtain ⟨assigned, after, hands, -, -, same⟩ := dist.allocate_spec other requested
  obtain ⟨queue, here, -⟩ := sound.queue client held known
  refine ⟨⟨sound.register granted, sound⟩, ⟨?_, known⟩, ?_, ?_⟩
  · rw [client?_of_clients (congrArg clients same), if_neg (ne_of_granted granted known), known]
  · rw [same]
    refine ⟨rfl, rfl, fun k member => ?_⟩
    -- What is handed out has no owner, and the client's stores have one.
    obtain ⟨target, there, owner⟩ := sound.held client held k known member
    exact (hands.kept there owner).trans there.symm
  · rw [same, here]
    exact QueueTable.get?_add here

/-- A change of another client's queue is none to the client. -/
theorem alike_withQueue {theirs : Client} (others : dist.client? other = some theirs)
    (different : other ≠ client) {after : ClientQueue}
    (kept : (dist.withQueue theirs after).Sound) :
    Alike client held (dist.withQueue theirs after) dist := by
  have elsewhere : ¬ held.queue = theirs.queue := fun same =>
    different (sound.client_eq known others same.symm)
  exact ⟨⟨kept, sound⟩, ⟨known, known⟩, .refl _ _,
    by simp [withQueue, QueueTable.get?_modify, elsewhere]⟩

/-- An update that is routed to no store of the client is none to it. -/
theorem alike_submit (resolved : update.Resolved)
    (unreached : dist.nodes.reaches held.stores update = false) :
    Alike client held (dist.submit update) dist := by
  obtain ⟨queue, here, -⟩ := sound.queue client held known
  refine ⟨⟨sound.move (.submit resolved), sound⟩, ⟨known, known⟩, ?_, ?_⟩
  · rw [nodes_submit]
    exact NodeStore.agreeOn_absorb unreached
  · rw [sound.get?_submit known here, NodeStore.acceptor?_of_unreached unreached, here]
    rfl

/-- Whatever another client asks for is nothing to the client. -/
theorem alike_perform {operation : Operation} {keeps : NodeEvent → Bool}
    (gone : operation.alone? client keeps = none) :
    Alike client held (dist.perform operation).2 dist := by
  have kept : (dist.perform operation).2.Sound := sound.moves (dist.perform_steps operation).moves
  have unchanged : Alike client held dist dist := .refl sound known
  cases operation with
  | register now other requested =>
    simp only [perform]
    split
    · next accepted =>
      obtain ⟨granted, versions, metrics, breaker, backend, rfl⟩ := register_eq_ok accepted
      have allocated := alike_allocate sound known granted
      exact (alike_administer allocated.sound.1 allocated.known.1 ..).trans allocated
    · exact unchanged
  | list => exact unchanged
  | watch other floors capacity =>
    have different : other ≠ client := by simpa [Operation.alone?] using gone
    simp only [perform] at kept ⊢
    split at kept
    · next accepted =>
      obtain ⟨theirs, queue, opened, found, -, -, -, rfl, rfl⟩ := watchFrom_eq_ok.mp accepted
      exact alike_withQueue sound known found different kept
    · exact unchanged
  | serve other service =>
    have different : other ≠ client := by simpa [Operation.alone?] using gone
    simp only [perform] at kept ⊢
    split at kept
    · next served =>
      obtain ⟨theirs, queue, after, found, rfl, -, -, rfl⟩ := serve?_eq_some.mp served
      exact alike_withQueue sound known found different kept
    · exact unchanged
  | ingest | disturb => cases gone

end Others

/-- Who is registered is not registered again. -/
theorem register_of_known (known : dist.client? client = some held) (now : Time)
    (requested : Nat) : dist.perform (.register now client requested) = ([], dist) := by
  simp only [perform]
  split
  · next accepted =>
    have unknown := (client?_of_granted (register_eq_ok accepted).1).1
    rw [known] at unknown
    cases unknown
  · rfl

section Own

variable {queue : ClientQueue} (known : dist.client? client = some held)
  (here : dist.queues.get? held.queue = some queue)
include known here

/-- A watch is up to the client's queue, -/
theorem watchFrom_of_known (floors : List (Location × Version)) (capacity : Nat) :
    dist.watchFrom client floors capacity =
      (if floors.isEmpty then .error .noVersions
        else (queue.watchFrom floors capacity).mapError .core).map fun answer =>
          (held.queue, answer.1, dist.withQueue held answer.2) := by
  simp only [watchFrom, known, here]
  split
  · rfl
  · cases queue.watchFrom floors capacity <;> rfl

/-- and so is a service. -/
theorem serve?_of_known (service : ClientQueue.Service) :
    dist.serve? client service = (queue.serve? service).map fun answer =>
      (held.queue, answer.1, dist.withQueue held answer.2) := by
  simp only [serve?, known, here, Option.bind_eq_bind, Option.bind_some]
  cases queue.serve? service <;> rfl

end Own

namespace Alike

variable (alike : Alike client held one two)
include alike

/-- The client's own queue becomes another one. -/
theorem withQueue {after : ClientQueue}
    (sound : (one.withQueue held after).Sound ∧ (two.withQueue held after).Sound) :
    Alike client held (one.withQueue held after) (two.withQueue held after) :=
  ⟨sound, alike.known, alike.nodes,
    by simp only [Distributor.withQueue, QueueTable.get?_modify, if_true, alike.queue]⟩

/-- An update is routed to a store of the client. -/
theorem submit (resolved : update.Resolved)
    (reached : one.nodes.reaches held.stores update = true) :
    Alike client held (one.submit update) (two.submit update) := by
  obtain ⟨queue, here, there⟩ := alike.exists_queue
  refine ⟨⟨alike.sound.1.move (.submit resolved), alike.sound.2.move (.submit resolved)⟩,
    alike.known, ?_, ?_⟩
  · rw [nodes_submit, nodes_submit]
    exact alike.nodes.absorb reached
  · rw [alike.sound.1.get?_submit alike.known.1 here, alike.sound.2.get?_submit alike.known.2 there,
      alike.nodes.acceptor? reached]

/-- Of updates, the client is concerned by those that are routed to its stores. -/
theorem foldl_submit {updates : List Update} (resolved : ∀ update ∈ updates, update.Resolved) :
    Alike client held (updates.foldl Distributor.submit one)
      ((updates.filter (one.nodes.reaches held.stores)).foldl Distributor.submit two) := by
  induction updates generalizing one two with
  | nil => exact alike
  | cons update updates ih =>
    obtain ⟨first, rest⟩ := List.forall_mem_cons.mp resolved
    -- No update changes where the next ones are routed.
    have plan := NodeStore.samePlan_absorb one.nodes update
    have same := NodeStore.reaches_eq plan.ring plan.perLocation held.stores
    rw [← nodes_submit] at same
    rw [← same, List.foldl_cons]
    cases reached : one.nodes.reaches held.stores update with
    | true =>
      rw [List.filter_cons_of_pos (by rw [same, reached]), List.foldl_cons]
      exact ih (alike.submit first reached) rest
    | false =>
      rw [List.filter_cons_of_neg (by rw [same, reached]; exact Bool.false_ne_true)]
      exact ih ((alike_submit alike.sound.1 alike.known.1 first reached).trans alike) rest

/-- Of a batch, the client is concerned by the events that are. -/
theorem ingest (now : Time) (events : List NodeEvent) :
    Alike client held (one.ingest now events).dist
      (two.ingest now (events.filter (one.concerns held))).dist := by
  have arrived : arrivals now (events.filter (one.concerns held)) =
      (arrivals now events).filter (one.nodes.reaches held.stores) := by
    rw [arrivals_eq, arrivals_eq, List.filter_map, List.filterMap_filter, List.filter_filterMap]
    refine congrArg _ (List.filterMap_congr fun event _ => ?_)
    rw [concerns]
    cases accept? event with
    | none => rfl
    | some update => rfl
  rw [arrivals, arrivals] at arrived
  obtain ⟨versions, metrics, breaker, backend, left⟩ := one.ingest_eq now events
  obtain ⟨versions', metrics', breaker', backend', right⟩ :=
    two.ingest_eq now (events.filter (one.concerns held))
  have submitted := alike.foldl_submit (resolved_of_received now events)
  rw [left, right, arrived]
  exact (alike_administer submitted.sound.1 submitted.known.1 ..).trans
    (submitted.trans (alike_administer submitted.sound.2 submitted.known.2 ..).symm)

/-- What stays of an operation shows the client the same, and leaves the same. -/
theorem perform {operation kept : Operation}
    (stays : operation.alone? client (one.concerns held) = some kept) :
    one.answers client operation = two.answers client kept ∧
      Alike client held (one.perform operation).2 (two.perform kept).2 := by
  have sound : (one.perform operation).2.Sound ∧ (two.perform kept).2.Sound :=
    ⟨alike.sound.1.moves (one.perform_steps operation).moves,
      alike.sound.2.moves (two.perform_steps kept).moves⟩
  cases operation with
  | register now other requested =>
    obtain ⟨rfl, rfl⟩ : other = client ∧ .register now other requested = kept := by
      simpa [Operation.alone?] using stays
    rw [register_of_known alike.known.1, register_of_known alike.known.2]
    exact ⟨rfl, alike⟩
  | ingest now events =>
    obtain rfl := Option.some.inj stays
    exact ⟨rfl, alike.ingest now events⟩
  | list other =>
    obtain ⟨rfl, rfl⟩ : other = client ∧ .list other = kept := by
      simpa [Operation.alone?] using stays
    exact ⟨by simp only [answers, alike.list_eq], alike⟩
  | watch other floors capacity =>
    obtain ⟨rfl, rfl⟩ : other = client ∧ .watch other floors capacity = kept := by
      simpa [Operation.alone?] using stays
    obtain ⟨queue, here, there⟩ := alike.exists_queue
    simp only [answers, Distributor.perform, if_true, watchFrom_of_known alike.known.1 here,
      watchFrom_of_known alike.known.2 there] at sound ⊢
    generalize (if floors.isEmpty then .error .noVersions
      else (queue.watchFrom floors capacity).mapError Refusal.core) = answer at sound ⊢
    cases answer with
    | error refusal => exact ⟨rfl, alike⟩
    | ok opened => exact ⟨rfl, alike.withQueue sound⟩
  | serve other service =>
    obtain ⟨rfl, rfl⟩ : other = client ∧ .serve other service = kept := by
      simpa [Operation.alone?] using stays
    obtain ⟨queue, here, there⟩ := alike.exists_queue
    simp only [answers, Distributor.perform, if_true, serve?_of_known alike.known.1 here,
      serve?_of_known alike.known.2 there] at sound ⊢
    generalize queue.serve? service = answer at sound ⊢
    cases answer with
    | none => exact ⟨rfl, alike⟩
    | some served => exact ⟨rfl, alike.withQueue sound⟩
  | disturb backend =>
    obtain rfl := Option.some.inj stays
    exact ⟨rfl, sound, alike.known, alike.nodes, alike.queue⟩

end Alike

/-- Others are answered where the client cannot see it. -/
theorem answers_of_gone (dist : Distributor) {operation : Operation} {keeps : NodeEvent → Bool}
    (gone : operation.alone? client keeps = none) : dist.answers client operation = [] := by
  cases operation with
  | register | ingest | disturb => rfl
  | list other => simpa [Operation.alone?, answers] using gone
  | watch other floors capacity => simpa [Operation.alone?, answers] using gone
  | serve other service => simpa [Operation.alone?, answers] using gone

/-- What concerns a client stays the same. -/
theorem concerns_perform (dist : Distributor) (held : Client) (operation : Operation) :
    (dist.perform operation).2.concerns held = dist.concerns held := by
  obtain ⟨ring, perLocation⟩ := plan_of_moves (dist.perform_steps operation).moves
  funext event
  rw [concerns, concerns, NodeStore.reaches_eq ring perLocation]

/-- Distributors that are alike to a client show it the same of all operations and of those that
are left when it is alone, and stay alike. -/
theorem Alike.performAll (alike : Alike client held one two) (operations : List Operation) :
    one.views client held operations = two.views client held
        (operations.filterMap (·.alone? client (one.concerns held))) ∧
      Alike client held (one.performAll operations).2
        (two.performAll (operations.filterMap (·.alone? client (one.concerns held)))).2 := by
  induction operations generalizing one two with
  | nil => exact ⟨rfl, alike⟩
  | cons operation operations ih =>
    have later := one.concerns_perform held operation
    rw [List.filterMap_cons]
    cases stays : operation.alone? client (one.concerns held) with
    | none =>
      have gone := alike_perform alike.sound.1 alike.known.1 stays
      obtain ⟨seen, left⟩ := ih (gone.trans alike)
      rw [later] at seen left
      refine ⟨?_, left⟩
      simp only [views, one.answers_of_gone stays, gone.symm.mailed_nil, seen, List.nil_append]
    | some kept =>
      obtain ⟨answered, after⟩ := alike.perform stays
      obtain ⟨seen, left⟩ := ih after
      rw [later] at seen left
      refine ⟨?_, left⟩
      simp only [views, answered, alike.mailed_eq after, seen]

/-- Whatever others do, a client is shown the same as when it is alone: when other clients neither
register nor watch, take, receive, stop or let go of anything, and events that are routed to none
of its stores do not come. It is answered the same, the same enters the mailboxes of its watches,
and in the end the same is listed for it, retained for it and on its way to it. -/
theorem isolation (reached : Reachable config trace dist) (known : dist.client? client = some held)
    (operations : List Operation) :
    let alone := operations.filterMap (·.alone? client (dist.concerns held))
    let later := (dist.performAll operations).2
    let laterAlone := (dist.performAll alone).2
    dist.views client held operations = dist.views client held alone ∧
      later.list client = laterAlone.list client ∧
      ∃ queue, later.client? client = some held ∧ later.queues.get? held.queue = some queue ∧
        laterAlone.client? client = some held ∧ laterAlone.queues.get? held.queue = some queue := by
  obtain ⟨seen, alike⟩ := (Alike.refl reached.sound known).performAll operations
  obtain ⟨queue, here, there⟩ := alike.exists_queue
  exact ⟨seen, alike.list_eq, queue, alike.known.1, here, alike.known.2, there⟩

/-- In the small fleet, another client registers, watches, receives nothing, and loses its watch
when its mailbox is full, while events for both come in one batch. The first client sees what it
sees alone. -/
theorem isolation_small :
    ∃ (operations alone : List Operation) (later laterAlone : Distributor) (queue : ClientQueue),
      operations.length = 7 ∧ alone.length = 4 ∧
      (smallHalf.performAll operations).2 = later ∧ (smallHalf.performAll alone).2 = laterAlone ∧
      later.client? "e" = some ⟨1, [1]⟩ ∧ laterAlone.client? "e" = none ∧
      (later.queues.get? 1).map (fun other => (other.nextWatch, other.isWatching)) =
        some (2, false) ∧
      smallHalf.views "d" ⟨0, [0]⟩ operations = [.watched (.ok (0, 1)),
        .mailed 1 ⟨(reported .modified "b" 8 .beijing).stamp .distributorReceived 2,
          ⟨.beijing, .rp1⟩, 8⟩,
        .listed (later.list "d")] ∧
      smallHalf.views "d" ⟨0, [0]⟩ operations = smallHalf.views "d" ⟨0, [0]⟩ alone ∧
      later.list "d" = laterAlone.list "d" ∧
      later.queues.get? 0 = some queue ∧ laterAlone.queues.get? 0 = some queue := by
  let operations : List Operation := [
    .register 1 "e" 1,
    .watch "e" [(⟨.shanghai, .rp1⟩, 0)] 1,
    .watch "d" [(⟨.beijing, .rp1⟩, 0)] 4,
    .ingest 2 [reported .modified "a" 6 .shanghai, reported .modified "b" 8 .beijing],
    .ingest 3 [reported .modified "a" 7 .shanghai, reported .modified "a" 8 .shanghai],
    .serve "e" (.signal 1 .fired),
    .list "d"]
  obtain ⟨seen, listed, queue, -, here, -, there⟩ :=
    isolation smallHalf_reachable smallHalf_client operations
  have others : (smallHalf.performAll operations).2.client? "e" = some ⟨1, [1]⟩ := by decide +kernel
  have stalled : ((smallHalf.performAll operations).2.queues.get? 1).map
      (fun other => (other.nextWatch, other.isWatching)) = some (2, false) := by decide +kernel
  exact ⟨operations, _, _, _, queue, rfl, by decide +kernel, rfl, rfl, others, by decide +kernel,
    stalled, by decide +kernel, seen, listed, here, there⟩

end Distributor

end FleetRing
