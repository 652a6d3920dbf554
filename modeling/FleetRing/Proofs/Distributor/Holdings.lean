import FleetRing.Proofs.Distributor.Retention
import FleetRing.Proofs.Store.Inventory

/-!
# What a fleet holds

To its node store, a run of a distributor is a history: updates are submitted, stores
are handed out, and queues become something else. So the nodes of a fleet, how often
they are held and how they are counted follow from the updates that were submitted, and
nothing that clients or the backend do has a part in it (`holds_submitted`).
-/

namespace FleetRing

namespace Distributor

variable {dist start next : Distributor} {trace : Trace} {updates : List Update}

/-- What submitting updates shows is these updates. -/
theorem submitted_intake (dist : Distributor) (updates : List Update) :
    submitted (dist.intake updates) = updates := by
  induction updates generalizing dist with
  | nil => rfl
  | cons update updates ih =>
    exact congrArg (update :: ·) (ih (dist.submit update))

/-- A store is handed out, or nothing happens. -/
theorem steps_assignOne (nodes : NodeStore) (queues : QueueTable) (client : String) (queue : Nat)
    (assigned : List Nat) (index : Nat) : NodeStore.Steps (nodes, queues) []
      ({ nodes with stores := (assignOne client queue (nodes.stores, assigned) index).1 },
        queues) := by
  cases here : nodes.stores[index]? with
  | none =>
    simp only [assignOne, here]
    exact .refl
  | some target =>
    cases given : target.assign? client queue with
    | none =>
      simp only [assignOne, here, given]
      exact .refl
    | some handed =>
      simp only [assignOne, here, given]
      exact .single (.assign here given)

/-- Stores are handed out one by one. -/
theorem steps_assignAll (nodes : NodeStore) (queues : QueueTable) (client : String) (queue : Nat)
    (assigned indices : List Nat) : NodeStore.Steps (nodes, queues) []
      ({ nodes with
        stores := (indices.foldl (assignOne client queue) (nodes.stores, assigned)).1 },
        queues) := by
  induction indices generalizing nodes assigned with
  | nil => exact .refl
  | cons index indices ih =>
    have first := steps_assignOne nodes queues client queue assigned index
    exact first.trans (ih _ (assignOne client queue (nodes.stores, assigned) index).2)

/-- Every step is a history of the node store, of the updates that it shows. -/
theorem Step.history (transition : Step dist trace next) :
    NodeStore.Steps (dist.nodes, dist.queues) (submitted trace) (next.nodes, next.queues) := by
  cases transition with
  | @register now client requested next accepted =>
    have same : next.nodes = (dist.allocate client requested).2.nodes := by
      unfold Distributor.register at accepted
      split at accepted
      · cases accepted
      · obtain rfl := Except.ok.inj accepted
        rfl
    rw [same]
    exact (steps_assignAll dist.nodes dist.queues client _ [] _).step (.requeue next.queues)
  | ingest now events =>
    rw [submitted_intake]
    exact .single (.process (resolved_of_received now events))
  | watch accepted =>
    obtain ⟨held, queue, opened, -, -, -, -, -, rfl⟩ := watchFrom_eq_ok.mp accepted
    exact .single (.requeue _)
  | serve found service moved => exact .single (.requeue _)
  | disturb backend => exact .refl

/-- Anything that can happen to a fleet, orderly or not: a step of the distributor, or something
that befalls its stores and queues without it, like a queue that is let go. -/
inductive Affair (dist : Distributor) : List Update → Distributor → Prop where
  | step {trace : Trace} {next : Distributor} (transition : Step dist trace next) :
      Affair dist (submitted trace) next
  | beside {updates : List Update} {nodes : NodeStore} {queues : QueueTable}
      (befalls : NodeStore.Step (dist.nodes, dist.queues) updates (nodes, queues)) :
      Affair dist updates { dist with nodes, queues }

/-- A run of a distributor is one way that things can go. -/
theorem affairs_of_steps (run : Steps start trace dist) :
    Chained Affair start (submitted trace) dist := by
  induction run with
  | refl => exact .refl
  | step prior transition ih =>
    rw [submitted_append]
    exact ih.step (.step transition)

/-- Whatever happens to a fleet is a history of its node store. -/
theorem history_of_affairs (run : Chained Affair start updates dist) :
    NodeStore.Steps (start.nodes, start.queues) updates (dist.nodes, dist.queues) := by
  induction run with
  | refl => exact .refl
  | step prior affair ih =>
    cases affair with
    | step transition => exact ih.trans transition.history
    | beside befalls => exact ih.step befalls

/-- Whatever happens to a fleet, what it holds is what the updates make that were submitted. -/
theorem holds_submitted {perLocation regions partitions : Nat}
    (created : NodeStore.create perLocation regions partitions = .ok start.nodes)
    (run : Chained Affair start updates dist) :
    dist.nodes.AccountsFor regions partitions updates := by
  have created : NodeStore.create perLocation regions partitions =
      .ok (start.nodes, start.queues).1 := created
  obtain ⟨reflects, covers⟩ := NodeStore.reflects_of_created created (history_of_affairs run)
  exact reflects.accountsFor covers

/-- In the small fleet, a client has taken both stores and its queue was let go. A node changes and
another one comes. -/
theorem holds_submitted_small :
    ∃ (updates : List Update) (dist : Distributor),
      Chained Affair smallStart updates dist ∧
      (dist.queues.get? 0).map (·.isAlive) = some false ∧
      updates.map (fun update => (update.node.id, update.version)) =
        [("a", 5), ("a", 6), ("b", 7)] ∧
      dist.nodes.AccountsFor 2 1 updates ∧ dist.nodes.totalHosts = 2 := by
  let queues := smallTaken.queues.modify 0 (·.disown)
  let dropped : Distributor := { smallTaken with queues }
  let events := [reported .modified "a" 6 .shanghai, reported .added "b" 7 .beijing]
  let updates := submitted smallTrace ++ [] ++
    submitted (dropped.intake ((receive 0 events).filterMap accept?))
  let dist := (dropped.ingest 0 events).dist
  have taken : Steps smallStart smallTrace smallTaken := by
    obtain ⟨start, created, run⟩ := smallTaken_reachable
    obtain rfl : smallStart = start := Except.ok.inj created
    exact run
  have run : Chained Affair smallStart updates dist :=
    ((affairs_of_steps taken).step (.beside (.requeue queues))).step (.step (.ingest 0 events))
  have created : NodeStore.create 1 2 1 = .ok smallStart.nodes := rfl
  have whole := holds_submitted created run
  have keys : (NodeStore.submittedKeys 2 1 updates).dedup.length = 2 := by decide +kernel
  exact ⟨updates, dist, run, by decide +kernel, by decide +kernel, whole,
    whole.total_eq_keys.trans keys⟩

end Distributor

end FleetRing
