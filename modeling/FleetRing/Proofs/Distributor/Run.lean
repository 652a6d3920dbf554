import FleetRing.Distributor
import FleetRing.Proofs.Chained
import FleetRing.Proofs.Store.Ingestion
import FleetRing.Proofs.Watch.Schedule

/-!
# Runs of a distributor

`Step` lists everything that changes a distributor: a registration or a watch that
is accepted, a batch of events, one step of one client queue, and whatever befalls
the backend. Listing and refused requests change nothing. Steps are strung together
in any order; a `Trace` keeps what they showed, and what a client is owed is read
off the trace alone.

Proofs go by the smaller `Move`s. A batch is a sequence of moves that submit one
update each, and what surrounds it — figures, persistence, the versions seen so
far — is a move of its own that concerns no client.
-/

namespace FleetRing

namespace ClientQueue

/-- Is it an occurrence between a forwarder and its client, which the queue has no part in? -/
def Occurrence.isService : Occurrence → Bool
  | forwarded _ | received _ _ | signalled _ _ | released _ _ => true
  | pushed _ | overflowed _ _ | opened _ _ | refused _ => false

end ClientQueue

namespace Distributor

/-- What a step of a distributor shows. -/
inductive Occurrence where
  | registered (client : String)
  /-- An update was submitted, and the store with the number applied it, if there is one. -/
  | submitted (update : Update) (acceptor : Option Nat)
  | watched (client : String) (queue watch : Nat)
  /-- A queue made a step of its own. -/
  | served (queue : Nat) (occurrence : ClientQueue.Occurrence)

/-- What the steps of a run showed. -/
abbrev Trace := List Occurrence

/-- Process one update. -/
def submit (dist : Distributor) (update : Update) : Distributor :=
  { dist with
    nodes := (NodeStore.submit (dist.nodes, dist.queues) update).1
    queues := (NodeStore.submit (dist.nodes, dist.queues) update).2 }

/-- What submitting updates one after the other shows. -/
def intake (dist : Distributor) : List Update → Trace
  | [] => []
  | update :: updates =>
    .submitted update (dist.nodes.acceptor? update) :: (dist.submit update).intake updates

/-- Everything that can happen next to a distributor. -/
inductive Step (dist : Distributor) : Trace → Distributor → Prop where
  | register {now : Time} {client : String} {requested : Nat} {next : Distributor}
      (accepted : dist.register now client requested = .ok next) :
      Step dist [.registered client] next
  | ingest (now : Time) (events : List NodeEvent) :
      Step dist (dist.intake ((receive now events).filterMap accept?)) (dist.ingest now events).dist
  /-- A watch names the floors of its map in any order. -/
  | watch {client : String} {floors : List (Location × Version)} {capacity number watch : Nat}
      {next : Distributor}
      (accepted : dist.watchFrom client floors capacity = .ok (number, watch, next)) :
      Step dist [.watched client number watch] next
  | serve {number : Nat} {queue next : ClientQueue} {occurrence : ClientQueue.Occurrence}
      (found : dist.queues.get? number = some queue) (service : occurrence.isService = true)
      (moved : ClientQueue.Step queue occurrence next) :
      Step dist [.served number occurrence]
        { dist with queues := dist.queues.modify number fun _ => next }
  | disturb (backend : Backend) : Step dist [] { dist with backend }

/-- Runs of a distributor. -/
abbrev Steps : Distributor → Trace → Distributor → Prop :=
  Chained Step

/-- The distributor that a run from its creation leads to. -/
def Reachable (config : Config) (trace : Trace) (dist : Distributor) : Prop :=
  ∃ start, create config = .ok start ∧ Steps start trace dist

/-- What happened after a client was registered. -/
def since (client : String) : Trace → Trace
  | [] => []
  | .registered other :: trace => if other = client then trace else since client trace
  | _ :: trace => since client trace

/-- The update of an occurrence, when one of the stores applied it. -/
def Occurrence.acceptedBy? (stores : List Nat) : Occurrence → Option Update
  | submitted update (some store) => if store ∈ stores then some update else none
  | submitted _ none | registered _ | watched _ _ _ | served _ _ => none

/-- The update of an occurrence, whether a store applied it or not. -/
def Occurrence.submitted? : Occurrence → Option Update
  | submitted update _ => some update
  | registered _ | watched _ _ _ | served _ _ => none

/-- The step of a queue, if that is what occurred. -/
def Occurrence.servedAt? (number : Nat) : Occurrence → Option ClientQueue.Occurrence
  | served queue occurrence => if queue = number then some occurrence else none
  | submitted _ _ | registered _ | watched _ _ _ => none

/-- The updates that some stores applied, in order. -/
def acceptedBy (stores : List Nat) (trace : Trace) : List Update :=
  trace.filterMap (Occurrence.acceptedBy? stores)

/-- The updates that were submitted, in order. -/
def submitted (trace : Trace) : List Update :=
  trace.filterMap Occurrence.submitted?

/-- The steps that a queue made on its own. -/
def servedAt (number : Nat) (trace : Trace) : List ClientQueue.Occurrence :=
  trace.filterMap (Occurrence.servedAt? number)

/-- The events that a client received of a watch, in order. -/
def received (number watch : Nat) (trace : Trace) : List NodeEvent :=
  ClientQueue.received watch (servedAt number trace)

/-- The events of a watch that went with its receiving end. -/
def lost (number watch : Nat) (trace : Trace) : List NodeEvent :=
  ClientQueue.lost watch (servedAt number trace)

section Appending

variable {number : Nat} {stores : List Nat} {earlier later : Trace}

@[simp]
theorem acceptedBy_append :
    acceptedBy stores (earlier ++ later) = acceptedBy stores earlier ++ acceptedBy stores later :=
  List.filterMap_append

@[simp]
theorem submitted_append (earlier later : Trace) :
    submitted (earlier ++ later) = submitted earlier ++ submitted later :=
  List.filterMap_append

@[simp]
theorem servedAt_append :
    servedAt number (earlier ++ later) = servedAt number earlier ++ servedAt number later :=
  List.filterMap_append

/-- An update alone was applied by some stores or not. -/
theorem acceptedBy_submitted (stores : List Nat) (update : Update) (acceptor : Option Nat) :
    acceptedBy stores [.submitted update acceptor] =
      if acceptor.any (· ∈ stores) then [update] else [] := by
  cases acceptor with
  | none => rfl
  | some k => by_cases mine : k ∈ stores <;> simp [acceptedBy, Occurrence.acceptedBy?, mine]

/-- An update is among those that some stores applied exactly when one of them did. -/
theorem mem_acceptedBy {update : Update} {trace : Trace} :
    update ∈ acceptedBy stores trace ↔ ∃ k ∈ stores, .submitted update (some k) ∈ trace := by
  rw [acceptedBy, List.mem_filterMap]
  constructor
  · rintro ⟨occurrence, shown, same⟩
    cases occurrence with
    | submitted other acceptor =>
      cases acceptor with
      | none => cases same
      | some k =>
        simp only [Occurrence.acceptedBy?, Option.ite_none_right_eq_some, Option.some.injEq] at same
        obtain ⟨mine, rfl⟩ := same
        exact ⟨k, mine, shown⟩
    | registered | watched | served => cases same
  · rintro ⟨k, mine, shown⟩
    exact ⟨_, shown, by simp [Occurrence.acceptedBy?, mine]⟩

/-- What happened after a registration happened. -/
theorem since_suffix (client : String) (trace : Trace) : since client trace <:+ trace := by
  induction trace with
  | nil => exact List.suffix_rfl
  | cons occurrence trace ih =>
    have longer : since client trace <:+ occurrence :: trace :=
      ih.trans (List.suffix_cons occurrence trace)
    cases occurrence with
    | registered other =>
      by_cases same : other = client
      · simp only [since, same, if_true]
        exact List.suffix_cons _ trace
      · simpa only [since, same, if_false] using longer
    | submitted | watched | served => exact longer

/-- Whatever happens to a client that was registered counts. -/
theorem since_append {client : String} (registered : .registered client ∈ earlier) :
    since client (earlier ++ later) = since client earlier ++ later := by
  induction earlier with
  | nil => cases registered
  | cons occurrence earlier ih =>
    cases occurrence with
    | registered other =>
      by_cases same : other = client
      · simp [since, same]
      · have rest : .registered client ∈ earlier := by
          have different : ¬ client = other := fun equal => same equal.symm
          simpa [different] using registered
        simpa [since, same] using ih rest
    | submitted | watched | served => simpa [since] using ih (by simpa using registered)

/-- After a registration, everything counts. -/
theorem since_registered {client : String} (fresh : .registered client ∉ earlier) :
    since client (earlier ++ .registered client :: later) = later := by
  induction earlier with
  | nil => simp [since]
  | cons occurrence earlier ih =>
    have rest : .registered client ∉ earlier := fun member => fresh (List.mem_cons_of_mem _ member)
    cases occurrence with
    | registered other =>
      have different : other ≠ client := by
        rintro rfl
        exact fresh List.mem_cons_self
      simpa [since, different] using ih rest
    | submitted | watched | served => simpa [since] using ih rest

end Appending

/-- Replace what concerns no client. -/
def administer (dist : Distributor) (versions : VersionMap) (metrics : Metrics)
    (breaker : Breaker) (backend : Backend) : Distributor :=
  { dist with nodes := { dist.nodes with versions }, metrics, breaker, backend }

/-- The parts of a step that concern clients, one at a time. -/
inductive Move (dist : Distributor) : Trace → Distributor → Prop where
  | register {client : String} {requested : Nat} (granted : dist.refusal? client requested = none) :
      Move dist [.registered client] (dist.allocate client requested).2
  | submit {update : Update} (resolved : update.Resolved) :
      Move dist [.submitted update (dist.nodes.acceptor? update)] (dist.submit update)
  | watch {client : String} {floors : List (Location × Version)} {capacity number watch : Nat}
      {next : Distributor}
      (accepted : dist.watchFrom client floors capacity = .ok (number, watch, next)) :
      Move dist [.watched client number watch] next
  | serve {number : Nat} {queue next : ClientQueue} {occurrence : ClientQueue.Occurrence}
      (found : dist.queues.get? number = some queue) (service : occurrence.isService = true)
      (moved : ClientQueue.Step queue occurrence next) :
      Move dist [.served number occurrence]
        { dist with queues := dist.queues.modify number fun _ => next }
  | administer (versions : VersionMap) (metrics : Metrics) (breaker : Breaker) (backend : Backend) :
      Move dist [] (dist.administer versions metrics breaker backend)

/-- Runs of moves. -/
abbrev Moves : Distributor → Trace → Distributor → Prop :=
  Chained Move

variable {dist next : Distributor} {trace : Trace}

/-- An accepted registration is an allocation, but for what concerns no client. -/
theorem register_eq_ok {now : Time} {client : String} {requested : Nat}
    (accepted : dist.register now client requested = .ok next) :
    dist.refusal? client requested = none ∧ ∃ versions metrics breaker backend,
      next = (dist.allocate client requested).2.administer versions metrics breaker backend := by
  unfold register at accepted
  split at accepted
  · cases accepted
  · next granted =>
    obtain rfl := Except.ok.inj accepted
    exact ⟨granted, _, _, _, _, rfl⟩

/-- Submitting updates to a distributor submits them to its stores and queues. -/
theorem foldl_submit (dist : Distributor) (updates : List Update) :
    updates.foldl submit dist = { dist with
      nodes := (updates.foldl NodeStore.submit (dist.nodes, dist.queues)).1
      queues := (updates.foldl NodeStore.submit (dist.nodes, dist.queues)).2 } := by
  induction updates generalizing dist with
  | nil => rfl
  | cons update updates ih => rw [List.foldl_cons, ih]; rfl

/-- A batch submits its updates, but for what concerns no client. -/
theorem ingest_eq (dist : Distributor) (now : Time) (events : List NodeEvent) :
    ∃ versions metrics breaker backend, (dist.ingest now events).dist =
      (((receive now events).filterMap accept?).foldl submit dist).administer versions metrics
        breaker backend := by
  obtain ⟨versions, store, queues⟩ :=
    dist.nodes.process_eq dist.queues ((receive now events).filterMap accept?)
  rw [foldl_submit]
  refine ⟨versions, (dist.ingest now events).dist.metrics, (dist.ingest now events).dist.breaker,
    (dist.ingest now events).dist.backend, ?_⟩
  simp only [administer, ← queues]
  rw [← store]
  rfl

/-- An event is accepted only if its type carries state, and then it is resolved. -/
theorem accept?_eq_some {event : NodeEvent} {update : Update}
    (accepted : accept? event = some update) :
    event.type.carriesState = true ∧ Update.ofEvent event = .ok update := by
  unfold accept? at accepted
  split at accepted
  · next supported =>
    cases made : Update.ofEvent event with
    | error error => simp [made, Except.toOption] at accepted
    | ok resolved =>
      obtain rfl : resolved = update := by simpa [made, Except.toOption] using accepted
      exact ⟨supported, rfl⟩
  · cases accepted

/-- What is accepted of a batch is resolved. -/
theorem resolved_of_received (now : Time) (events : List NodeEvent) :
    ∀ update ∈ (receive now events).filterMap accept?, update.Resolved := by
  intro update member
  obtain ⟨event, -, accepted⟩ := List.mem_filterMap.mp member
  exact (Update.resolved_of_ofEvent (accept?_eq_some accepted).2).1

/-- Submitting resolved updates is a run of moves. -/
theorem moves_intake (dist : Distributor) {updates : List Update}
    (resolved : ∀ update ∈ updates, update.Resolved) :
    Moves dist (dist.intake updates) (updates.foldl submit dist) := by
  induction updates generalizing dist with
  | nil => exact .refl
  | cons update updates ih =>
    have first : Move dist _ _ := .submit (resolved update List.mem_cons_self)
    have rest := ih (dist.submit update) fun other member =>
      resolved other (List.mem_cons_of_mem update member)
    exact (Chained.single first).trans rest

/-- Every step is a run of moves that shows the same. -/
theorem Step.moves (transition : Step dist trace next) : Moves dist trace next := by
  cases transition with
  | register accepted =>
    obtain ⟨granted, versions, metrics, breaker, backend, rfl⟩ := register_eq_ok accepted
    have first : Move dist _ _ := .register granted
    simpa using (Chained.single first).step (.administer versions metrics breaker backend)
  | ingest now events =>
    obtain ⟨versions, metrics, breaker, backend, same⟩ := dist.ingest_eq now events
    rw [same]
    have submitted := moves_intake dist (resolved_of_received now events)
    simpa using submitted.step (.administer versions metrics breaker backend)
  | watch accepted => exact .single (.watch accepted)
  | serve found service moved => exact .single (.serve found service moved)
  | disturb backend =>
    exact .single (.administer dist.nodes.versions dist.metrics dist.breaker backend)

/-- So is every run. -/
theorem Steps.moves (run : Steps dist trace next) : Moves dist trace next :=
  run.refine Step.moves

end Distributor

end FleetRing
