import FleetRing.Proofs.Distributor.Ownership
import FleetRing.Proofs.Watch.Retention

/-!
# What a run is to one client

For each client, a move of the distributor is a schedule of that client's queue,
of one step or none. `Mirrors` says what the traces have in common: the updates
that the client's stores applied are the updates that were pushed, and both show
the same deliveries. What holds of every schedule of a queue thus holds of every
client of every run.
-/

namespace FleetRing

namespace Distributor

/-- A schedule of a client's queue shows of a run what concerns the client. -/
structure Mirrors (held : Client) (trace : Trace) (steps : List ClientQueue.Occurrence) : Prop where
  pushes : ClientQueue.pushes steps = acceptedBy held.stores trace
  received : ∀ watch, ClientQueue.received watch steps = received held.queue watch trace
  lost : ∀ watch, ClientQueue.lost watch steps = lost held.queue watch trace

namespace Mirrors

variable {held : Client} {earlier later : Trace} {first second : List ClientQueue.Occurrence}

theorem nil : Mirrors held [] [] :=
  ⟨rfl, fun _ => rfl, fun _ => rfl⟩

theorem append (before : Mirrors held earlier first) (after : Mirrors held later second) :
    Mirrors held (earlier ++ later) (first ++ second) where
  pushes := by simp [before.pushes, after.pushes]
  received watch := by
    simp [Distributor.received, before.received, after.received]
  lost watch := by
    simp [Distributor.lost, before.lost, after.lost]

/-- A run that does not concern the client shows nothing of it. -/
theorem idle (nothing : acceptedBy held.stores later = [])
    (unserved : servedAt held.queue later = []) :
    Mirrors held later [] where
  pushes := nothing.symm
  received watch := by
    rw [Distributor.received, unserved]
  lost watch := by
    rw [Distributor.lost, unserved]

end Mirrors

section Follow

variable {dist next : Distributor} {client : String} {held : Client} {queue : ClientQueue}
  {shown trace : Trace}

/-- What a run leaves of a client: what it holds, and its queue after a schedule. -/
def Follows (client : String) (held : Client) (queue : ClientQueue) (shown : Trace)
    (next : Distributor) : Prop :=
  next.client? client = some held ∧ ∃ later steps, next.queues.get? held.queue = some later ∧
    ClientQueue.Steps queue steps later ∧ Mirrors held shown steps

/-- A registration concerns no other client. -/
theorem follow_register (found : dist.client? client = some held)
    (here : dist.queues.get? held.queue = some queue) {other : String} {requested : Nat}
    (granted : dist.refusal? other requested = none) :
    Follows client held queue [.registered other] (dist.allocate other requested).2 := by
  obtain ⟨assigned, after, -, -, -, same⟩ := dist.allocate_spec other requested
  refine ⟨?_, queue, [], ?_, .refl, .idle rfl rfl⟩
  · rw [client?_of_clients (by rw [same]) client, if_neg (ne_of_granted granted found), found]
  · rw [same]
    exact QueueTable.get?_add here

/-- Queues carry the ids of their clients, so two clients never share one. -/
theorem Sound.client_eq (sound : dist.Sound) (found : dist.client? client = some held)
    {other : String} {theirs : Client} (alsoFound : dist.client? other = some theirs)
    (same : theirs.queue = held.queue) : other = client := by
  obtain ⟨queue, here, name, -⟩ := sound.queue client held found
  obtain ⟨again, there, alsoName, -⟩ := sound.queue other theirs alsoFound
  rw [same, here] at there
  obtain rfl := Option.some.inj there
  exact alsoName.symm.trans name

/-- A store of the client is one that tells the client's queue. -/
theorem Sound.mem_stores_iff (sound : dist.Sound) (found : dist.client? client = some held)
    {k : Nat} {target : VirtualStore} (there : dist.nodes.stores[k]? = some target) :
    k ∈ held.stores ↔ ∃ owner, target.owner = some owner ∧ owner.queue = held.queue := by
  constructor
  · intro member
    obtain ⟨other, same, owner⟩ := sound.held client held k found member
    obtain rfl := Option.some.inj (there.symm.trans same)
    exact ⟨_, owner, rfl⟩
  · rintro ⟨owner, owned, same⟩
    obtain ⟨other, alsoFound, queue, member⟩ := sound.owner k target owner there owned
    rw [sound.client_eq found alsoFound (queue.trans same), found] at alsoFound
    exact Option.some.inj alsoFound ▸ member

/-- An update is pushed to the client's queue exactly when a store of the client applies it. -/
theorem Sound.get?_submit (sound : dist.Sound) (found : dist.client? client = some held)
    (here : dist.queues.get? held.queue = some queue) (update : Update) :
    (dist.submit update).queues.get? held.queue =
      some (if (dist.nodes.acceptor? update).any (· ∈ held.stores) then queue.push update
        else queue) := by
  rcases NodeStore.submit_cases dist.nodes dist.queues update with
    ⟨nobody, same⟩ | ⟨k, target, accepted, -, there, -, same⟩
  · simpa [submit, same, nobody] using here
  · obtain ⟨known, knownHere, -, owned, -⟩ := sound.queue client held found
    obtain rfl := Option.some.inj (here.symm.trans knownHere)
    have alive : queue.isAlive = true := by simp [ClientQueue.isAlive, owned]
    have mine := sound.mem_stores_iff found there
    by_cases member : k ∈ held.stores
    · obtain ⟨owner, owns, tells⟩ := mine.mp member
      simp [submit, same, owns, QueueTable.deliver, QueueTable.get?_modify, tells, here, alive,
        accepted, member]
    · simp only [submit, same, accepted, Option.any_some, member, decide_false, Bool.false_eq_true,
        if_false]
      split
      · next owner owns =>
        have other : ¬ held.queue = owner.queue := fun equal =>
          member (mine.mpr ⟨owner, owns, equal.symm⟩)
        simpa [QueueTable.deliver, QueueTable.get?_modify, other] using here
      · exact here

theorem Sound.follow_submit (sound : dist.Sound) (found : dist.client? client = some held)
    (here : dist.queues.get? held.queue = some queue) (update : Update) :
    Follows client held queue [.submitted update (dist.nodes.acceptor? update)]
      (dist.submit update) := by
  refine ⟨found, ?_⟩
  rw [sound.get?_submit found here]
  split
  · next mine =>
    obtain ⟨occurrence, shape, transition⟩ := ClientQueue.Step.exists_push queue update
    refine ⟨queue.push update, [occurrence], rfl, ClientQueue.Steps.refl.step transition, ?_,
      fun watch => ?_, fun watch => ?_⟩
    · rw [acceptedBy_submitted, if_pos mine]
      rcases shape with rfl | ⟨watch, rfl⟩ <;> rfl
    · rcases shape with rfl | ⟨watch, rfl⟩ <;> rfl
    · rcases shape with rfl | ⟨watch, rfl⟩ <;> rfl
  · next other =>
    exact ⟨queue, [], rfl, .refl, .idle ((acceptedBy_submitted _ _ _).trans (if_neg other)) rfl⟩

/-- A watch and a step of a queue concern the client whose queue it is. -/
theorem follow_modify {number : Nat} {before after : ClientQueue} {occurrence : Occurrence}
    (found : dist.client? client = some held) (here : dist.queues.get? held.queue = some queue)
    (there : dist.queues.get? number = some before)
    (concerns : number = held.queue → ∃ steps, ClientQueue.Steps before steps after ∧
      Mirrors held [occurrence] steps)
    (ignores : number ≠ held.queue → Mirrors held [occurrence] []) :
    Follows client held queue [occurrence]
      { dist with queues := dist.queues.modify number fun _ => after } := by
  refine ⟨found, ?_⟩
  by_cases mine : number = held.queue
  · subst mine
    obtain rfl := Option.some.inj (here.symm.trans there)
    obtain ⟨steps, schedule, mirrors⟩ := concerns rfl
    exact ⟨after, steps, by simp [QueueTable.get?_modify, there], schedule, mirrors⟩
  · have other : ¬ held.queue = number := fun equal => mine equal.symm
    exact ⟨queue, [], by simp [QueueTable.get?_modify, other, here], .refl, ignores mine⟩

/-- Every move is, to a client, a schedule of its queue. -/
theorem Sound.follow (sound : dist.Sound) (found : dist.client? client = some held)
    (here : dist.queues.get? held.queue = some queue) (move : Move dist shown next) :
    Follows client held queue shown next := by
  cases move with
  | register granted => exact follow_register found here granted
  | submit resolved => exact sound.follow_submit found here _
  | watch accepted =>
    obtain ⟨other, before, opened, -, -, there, answer, rfl, rfl⟩ := watchFrom_eq_ok.mp accepted
    obtain ⟨replay, replayed⟩ := ClientQueue.exists_replay answer
    refine follow_modify found here there (fun mine => ?_) fun _ => .idle rfl rfl
    exact ⟨_, ClientQueue.Steps.refl.step (.watch replayed answer), rfl, fun _ => rfl, fun _ => rfl⟩
  | @serve number before after occurrence there service moved =>
    refine follow_modify found here there (fun mine => ?_) fun other => .idle rfl ?_
    · subst mine
      refine ⟨[occurrence], ClientQueue.Steps.refl.step moved, ?_, fun watch => ?_, fun watch => ?_⟩
      · cases occurrence <;> first | rfl | cases service
      · simp [received, servedAt, Occurrence.servedAt?]
      · simp [lost, servedAt, Occurrence.servedAt?]
    · simp [servedAt, Occurrence.servedAt?, other]
  | administer versions metrics breaker backend =>
    exact ⟨found, queue, [], here, .refl, .nil⟩

end Follow

end Distributor

end FleetRing
