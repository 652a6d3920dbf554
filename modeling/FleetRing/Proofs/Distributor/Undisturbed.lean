import FleetRing.Proofs.Distributor.Holdings
import FleetRing.Proofs.Distributor.Persistence
import FleetRing.Proofs.Distributor.Progress
import FleetRing.Proofs.Store.Agreement
import FleetRing.Proofs.Watch.Settling
import Mathlib.Logic.Relation

/-!
# Runs that nothing disturbs

Clients register and watch, events come in and forwarders run, but no client receives, stops or
lets go of a watch, and nothing is in the way of the backend. In such a run everything is persisted
(`Unhindered.run`), a watch carries all that its client's stores apply as long as there is room for
it (`Sound.carries_run`), and if no node is ever reported older than before, these are all updates
that are routed to them (`acceptedBy_eq_filter`).
-/

namespace FleetRing

/-- Calls to the backend go through. -/
structure Backend.Permits (backend : Backend) : Prop where
  script : backend.script = []
  calls : backend.records.failNext = 0

/-- Writing nodes leaves it open which calls fail. -/
theorem RecordStore.failNext_putAll (nodes : List Node) (store : RecordStore) :
    (nodes.foldl (fun store node => store.put node.recordKey node.text) store).failNext =
      store.failNext := by
  induction nodes generalizing store with
  | nil => rfl
  | cons node nodes ih => exact ih _

namespace Backend.Permits

variable {backend : Backend} (permits : backend.Permits)
include permits

/-- So they do after some time. -/
theorem wait : backend.wait.2.Permits :=
  ⟨permits.script, permits.calls⟩

/-- A call that is permitted succeeds, and so will the next one. -/
theorem attempt (writing : Writing) : ∃ (took : Time) (after : Backend), after.Permits ∧
    Backend.attempt writing.call backend = (⟨.succeeded, took⟩, after) := by
  obtain ⟨script, ⟨records, assignments, failNext, attempts⟩, pace, arrangement⟩ := backend
  obtain rfl : script = [] := permits.script
  obtain rfl : failNext = 0 := permits.calls
  cases writing with
  | nodes changed => exact ⟨_, _, ⟨rfl, RecordStore.failNext_putAll changed _⟩, rfl⟩
  | status reached entries => exact ⟨_, _, ⟨rfl, rfl⟩, rfl⟩
  | assignment given => exact ⟨_, _, ⟨rfl, rfl⟩, rfl⟩

/-- So does a run, as long as the breaker is closed. -/
theorem run (writing : Writing) {policy : PersistPolicy} (retries : 0 < policy.retryLimit)
    {breaker : Breaker} (closed : breaker.openUntil = none) (now : Time) :
    let run := backend.run policy breaker now writing.call
    run.outcome = .persisted ∧ run.breaker.openUntil = none ∧ run.backend.Permits := by
  obtain ⟨took, after, permitted, made⟩ := permits.wait.attempt writing
  obtain ⟨limit, positive⟩ := Nat.exists_eq_add_one.mpr retries
  have attempts : PersistPolicy.makeAttempts (Backend.attempt writing.call) policy.retryLimit 0 0
      backend.wait.2 = ⟨.persisted, 1, after, took⟩ := by
    simp [positive, PersistPolicy.makeAttempts, made]
  simp [Backend.run, PersistPolicy.run, Breaker.isOpen, closed, attempts, Breaker.record, permitted]

end Backend.Permits

namespace QueueTable

variable {table : QueueTable} {number : Nat} {queue : ClientQueue}

/-- Tables are the same if their queues are. -/
theorem ext_get? {one two : QueueTable} (same : ∀ number, one.get? number = two.get? number) :
    one = two :=
  congrArg QueueTable.mk (Array.ext_getElem? same)

/-- A queue that is replaced by itself stays. -/
theorem modify_self (here : table.get? number = some queue) :
    (table.modify number fun _ => queue) = table := by
  refine ext_get? fun other => ?_
  rw [get?_modify]
  split
  · next asked => rw [asked, here, Option.map_some]
  · rfl

/-- A queue that is replaced twice is replaced once. -/
theorem modify_modify (table : QueueTable) (number : Nat) (first second : ClientQueue) :
    ((table.modify number fun _ => first).modify number fun _ => second) =
      table.modify number fun _ => second := by
  refine ext_get? fun other => ?_
  simp only [get?_modify]
  split <;> simp [Function.comp_def]

/-- A queue is changed by putting what it becomes in its place. -/
theorem modify_of_found (here : table.get? number = some queue)
    (change : ClientQueue → ClientQueue) :
    table.modify number change = table.modify number fun _ => change queue := by
  refine ext_get? fun other => ?_
  simp only [get?_modify, here, Option.map_some]

/-- Where there is no queue, none is changed. -/
theorem modify_of_absent (absent : table.get? number = none)
    (change : ClientQueue → ClientQueue) : table.modify number change = table := by
  refine ext_get? fun other => ?_
  rw [get?_modify]
  split
  · next asked => rw [asked, absent, Option.map_none]
  · rfl

/-- A forwarder of some queue makes a step. -/
inductive Stirs (table : QueueTable) : QueueTable → Prop where
  | forward {number watch : Nat} {queue next : ClientQueue}
      (found : table.get? number = some queue)
      (moved : ClientQueue.Step queue (.forwarded watch) next) :
      Stirs table (table.modify number fun _ => next)

/-- A queue whose forwarders make steps becomes what these make of it. -/
theorem stirs_steps {after : ClientQueue} {occurrences : List ClientQueue.Occurrence}
    (here : table.get? number = some queue)
    (schedule : ClientQueue.Steps queue occurrences after)
    (forwarded : ∀ occurrence ∈ occurrences, ∃ watch, occurrence = .forwarded watch) :
    Relation.ReflTransGen Stirs table (table.modify number fun _ => after) := by
  induction schedule with
  | refl =>
    rw [modify_self here]
  | @step trace middle next occurrence prior transition ih =>
    obtain ⟨earlier, last⟩ := List.forall_mem_append.mp forwarded
    obtain ⟨watch, rfl⟩ := List.forall_mem_singleton.mp last
    have there : (table.modify number fun _ => middle).get? number = some middle := by
      rw [get?_modify, if_pos rfl, here, Option.map_some]
    have whole := (ih earlier).tail (.forward there transition)
    rwa [modify_modify] at whole

/-- The first queues of a table settle. -/
def settleFirst (table : QueueTable) (now : Time) (count : Nat) : QueueTable :=
  (List.range count).foldl (fun table number => table.modify number (·.settle now)) table

theorem settleFirst_succ (table : QueueTable) (now : Time) (count : Nat) :
    table.settleFirst now (count + 1) =
      (table.settleFirst now count).modify count (·.settle now) := by
  simp [settleFirst, List.range_succ]

/-- They settle, and the others stay. -/
theorem get?_settleFirst (table : QueueTable) (now : Time) (count number : Nat) :
    (table.settleFirst now count).get? number =
      if number < count then (table.get? number).map (·.settle now) else table.get? number := by
  induction count with
  | zero => rfl
  | succ count ih =>
    rw [settleFirst_succ, get?_modify]
    by_cases last : number = count
    · subst last
      simp [ih]
    · have below : number < count + 1 ↔ number < count := by omega
      simp [ih, last, below]

/-- Forwarders settle queue by queue. -/
theorem stirs_settleFirst (now : Time)
    (distinct : ∀ number queue, table.get? number = some queue → queue.ids.Nodup) (count : Nat) :
    Relation.ReflTransGen Stirs table (table.settleFirst now count) := by
  induction count with
  | zero => exact .refl
  | succ count ih =>
    rw [settleFirst_succ]
    have there : (table.settleFirst now count).get? count = table.get? count := by
      rw [get?_settleFirst, if_neg (Nat.lt_irrefl count)]
    cases here : table.get? count with
    | none =>
      rw [modify_of_absent (there.trans here)]
      exact ih
    | some queue =>
      obtain ⟨occurrences, schedule, forwarded⟩ :=
        queue.exists_steps_settle now (distinct count queue here)
      rw [modify_of_found (there.trans here)]
      exact ih.trans (stirs_steps (there.trans here) schedule forwarded)

/-- All of them are all that there are. -/
theorem settleFirst_size (table : QueueTable) (now : Time) :
    table.settleFirst now table.queues.size = table.settle now := by
  refine ext_get? fun number => ?_
  rw [get?_settleFirst]
  simp only [get?, settle, Array.getElem?_map]
  split
  · rfl
  · next outside => simp [outside]

end QueueTable

namespace Distributor

variable {config : Config} {start dist next : Distributor} {client : String} {held : Client}
  {updates : List Update} {shown before trace : Trace} {stores : List Nat}
  {watch capacity limit count : Nat}

/-- What happens while nothing is disturbed, with the updates that come in. -/
inductive Undisturbed (dist : Distributor) : List Update → Distributor → Prop where
  | register {now : Time} {client : String} {requested : Nat} {next : Distributor}
      (accepted : dist.register now client requested = .ok next) : Undisturbed dist [] next
  | ingest (now : Time) (events : List NodeEvent) :
      Undisturbed dist (arrivals now events) (dist.ingest now events).dist
  | watch {client : String} {floors : List (Location × Version)} {capacity number watch : Nat}
      {next : Distributor}
      (accepted : dist.watchFrom client floors capacity = .ok (number, watch, next)) :
      Undisturbed dist [] next
  | forward {queues : QueueTable} (stirred : dist.queues.Stirs queues) :
      Undisturbed dist [] { dist with queues }

/-- Queues make no step of their own but those of forwarders. -/
def Forwards (shown : Trace) : Prop :=
  ∀ number occurrence, .served number occurrence ∈ shown → ∃ watch, occurrence = .forwarded watch

theorem Forwards.append (earlier : Forwards before) (later : Forwards shown) :
    Forwards (before ++ shown) := by
  intro number occurrence member
  rcases List.mem_append.mp member with first | second
  · exact earlier number occurrence first
  · exact later number occurrence second

/-- What submitting updates shows are no steps of queues. -/
theorem served_not_mem_intake (dist : Distributor) (updates : List Update) {number : Nat}
    {occurrence : ClientQueue.Occurrence} : .served number occurrence ∉ dist.intake updates := by
  induction updates generalizing dist with
  | nil => exact List.not_mem_nil
  | cons update updates ih => simpa [intake] using ih (dist.submit update)

/-- All of it are steps of the distributor. -/
theorem Undisturbed.exists_step (undisturbed : Undisturbed dist updates next) :
    ∃ shown, Step dist shown next ∧ submitted shown = updates ∧ Forwards shown := by
  cases undisturbed with
  | register accepted => exact ⟨_, .register accepted, rfl, by simp [Forwards]⟩
  | ingest now events =>
    exact ⟨_, .ingest now events, submitted_intake _ _, fun number occurrence member =>
      absurd member (served_not_mem_intake dist _)⟩
  | watch accepted => exact ⟨_, .watch accepted, rfl, by simp [Forwards]⟩
  | forward stirred =>
    obtain @⟨number, watch, queue, after, found, moved⟩ := stirred
    refine ⟨_, .serve found rfl moved, rfl, fun other occurrence member => ⟨watch, ?_⟩⟩
    cases List.mem_singleton.mp member
    rfl

theorem exists_steps (run : Chained Undisturbed dist updates next) :
    ∃ shown, Steps dist shown next ∧ submitted shown = updates ∧ Forwards shown := by
  induction run with
  | refl => exact ⟨[], .refl, rfl, by simp [Forwards]⟩
  | step prior transition ih =>
    obtain ⟨earlier, run, came, forwards⟩ := ih
    obtain ⟨last, step, also, later⟩ := transition.exists_step
    exact ⟨earlier ++ last, run.step step, by rw [submitted_append, came, also],
      forwards.append later⟩

/-- Clients stay known. -/
theorem client?_of_run (run : Chained Undisturbed dist updates next)
    (found : dist.client? client = some held) : next.client? client = some held := by
  obtain ⟨shown, steps, -, -⟩ := exists_steps run
  exact client?_of_moves steps.moves found

/-- Nothing is in the way of persistence. -/
structure Unhindered (dist : Distributor) : Prop where
  permits : dist.backend.Permits
  closed : dist.breaker.openUntil = none
  retries : 0 < dist.config.policy.retryLimit

namespace Unhindered

/-- Nothing is in the way of a new distributor. -/
theorem create (created : Distributor.create config = .ok start) : start.Unhindered := by
  obtain ⟨faultless, topology, -, rfl⟩ := create_eq_ok created
  refine ⟨⟨rfl, rfl⟩, rfl, Nat.pos_of_ne_zero fun zero => ?_⟩
  have word : config.retryLimit = 0 := UInt64.toNat_inj.mp zero
  unfold Config.fault? at faultless
  split_ifs at faultless

/-- All that is written goes through, and so will the next. -/
theorem step (unhindered : dist.Unhindered) (undisturbed : Undisturbed dist updates next) :
    next.Unhindered ∧
      ∃ deeds, Works dist deeds next ∧ ∀ deed ∈ deeds, deed.outcome = .persisted := by
  have retries := unhindered.retries
  cases undisturbed with
  | @register now client requested _ accepted =>
    have works : Works dist _ next := .register accepted
    obtain ⟨granted, metrics, rfl⟩ := register_eq accepted
    obtain ⟨first, closed, permits⟩ := unhindered.permits.run
      (.assignment (dist.allocate client requested).1) retries unhindered.closed now
    obtain ⟨second, closed, permits⟩ := permits.run
      (.status (dist.allocate client requested).2.nodes.status _) retries closed
      (dist.assignmentRun now client requested).ended
    exact ⟨⟨permits, closed, retries⟩, _, works,
      List.forall_mem_cons.mpr ⟨first, List.forall_mem_singleton.mpr second⟩⟩
  | ingest now events =>
    obtain ⟨first, closed, permits⟩ := unhindered.permits.run
      (.nodes (dist.nodes.process dist.queues (arrivals now events)).stats.touched.toList)
      retries unhindered.closed now
    obtain ⟨second, closed, permits⟩ := permits.run
      (.status (dist.ingest now events).dist.nodes.status _) retries closed
      (dist.nodesRun now events).ended
    exact ⟨⟨permits, closed, retries⟩, _, .ingest now events,
      List.forall_mem_cons.mpr ⟨first, List.forall_mem_singleton.mpr second⟩⟩
  | watch accepted =>
    have works : Works dist [] next := .watch accepted
    obtain ⟨held, queue, opened, -, -, -, -, -, rfl⟩ := watchFrom_eq_ok.mp accepted
    exact ⟨⟨unhindered.permits, unhindered.closed, retries⟩, [], works, by simp⟩
  | forward stirred =>
    obtain ⟨found, moved⟩ := stirred
    exact ⟨⟨unhindered.permits, unhindered.closed, retries⟩, [], .serve found rfl moved, by simp⟩

theorem run (unhindered : dist.Unhindered) (run : Chained Undisturbed dist updates next) :
    next.Unhindered ∧
      ∃ deeds, Chained Works dist deeds next ∧ ∀ deed ∈ deeds, deed.outcome = .persisted := by
  induction run with
  | refl => exact ⟨unhindered, [], .refl, by simp⟩
  | step prior transition ih =>
    obtain ⟨still, earlier, works, persisted⟩ := ih
    obtain ⟨again, last, work, also⟩ := still.step transition
    exact ⟨again, earlier ++ last, works.step work,
      List.forall_mem_append.mpr ⟨persisted, also⟩⟩

end Unhindered

/-- After its first update, a node is only ever modified, and to a larger version. -/
def Orderly (updates : List Update) : Prop :=
  updates.Pairwise fun earlier later => earlier.node.id = later.node.id →
    earlier.location = later.location → later.type = .modified ∧ earlier.version < later.version

/-- An update is applied by the store that it is routed to, if it is a modification to a larger
version than all that the store applied of the node. -/
theorem acceptor?_of_newer (created : Distributor.create config = .ok start)
    (run : Moves start trace dist) {update : Update} (supported : update.type.carriesState = true)
    (newer : ∀ earlier ∈ submitted trace, earlier.node.id = update.node.id →
      earlier.location = update.location →
        update.type = .modified ∧ earlier.version < update.version) :
    dist.nodes.acceptor? update = dist.nodes.route? update.node.id update.location := by
  have sound := (sound_create created).moves run
  cases routed : dist.nodes.route? update.node.id update.location with
  | none => simp only [NodeStore.acceptor?, routed]
  | some k =>
    obtain ⟨target, here, standing⟩ := sound.nodes.laid.location_of_locate? routed
    have applied : (target.apply (.ofId update.node.id) update).2.isApplied = true := by
      rw [VirtualStore.apply_mutation target _ supported]
      cases found : target.find? (.ofId update.node.id) update.node.id with
      | none => rfl
      | some stored =>
        have there : dist.nodes.find? k update.node.id = some stored := by
          rw [NodeStore.find?, here, Option.bind_some, found]
        obtain ⟨earlier, came, rfl⟩ := submitted_of_stored (find?_create created) run there
        have id : earlier.node.id = update.node.id := (Chain.id_of_find? found).2
        have place := (sound_create created).placeOf_submitted run came
        rw [placeOf, here, Option.map_some, standing] at place
        obtain ⟨modified, older⟩ := newer earlier
          (List.mem_filterMap.mpr ⟨_, came, rfl⟩) id (Option.some.inj place).symm
        have version : ¬ update.version ≤ earlier.toStored.version := UInt64.not_le.mpr older
        simp [Mutation.judge, modified, version, Mutation.isApplied]
    simp only [NodeStore.acceptor?, routed, here, applied, if_true]

/-- In an orderly run, stores apply all that is routed to them. -/
theorem acceptedBy_eq_filter (created : Distributor.create config = .ok start)
    (run : Moves start trace dist) (orderly : Orderly (submitted trace))
    (supported : ∀ update ∈ submitted trace, update.type.carriesState = true) (stores : List Nat) :
    acceptedBy stores trace = (submitted trace).filter (dist.nodes.reaches stores) := by
  induction run with
  | refl => rfl
  | @step trace shown state next prior transition ih =>
    obtain ⟨ring, perLocation⟩ := plan_of_move transition
    rw [submitted_append] at orderly supported ⊢
    obtain ⟨before, -, newer⟩ := List.pairwise_append.mp orderly
    obtain ⟨first, second⟩ := List.forall_mem_append.mp supported
    rw [NodeStore.reaches_eq ring perLocation, acceptedBy_append, List.filter_append,
      ih before first]
    congr 1
    rcases submits_or_keeps transition with ⟨update, -, rfl, rfl⟩ | ⟨-, silent⟩
    · have alone : update ∈ submitted [.submitted update (state.nodes.acceptor? update)] :=
        List.mem_singleton_self update
      have accepted := acceptor?_of_newer created prior (second update alone) fun earlier came =>
        newer earlier came update alone
      rw [acceptedBy_submitted, accepted]
      change _ = [update].filter (state.nodes.reaches stores)
      rw [List.filter_singleton, Bool.cond_eq_ite]
      rfl
    · have nothing : submitted shown = [] := by
        refine List.filterMap_eq_nil_iff.mpr fun occurrence member => ?_
        cases occurrence with
        | submitted update acceptor => exact absurd member (silent update acceptor)
        | registered | watched | served => rfl
      rw [acceptedBy_of_silent silent, nothing, List.filter_nil]

/-- The watch of a client carries some number of events, and there is room for `limit`. -/
def Carries (dist : Distributor) (held : Client) (watch capacity limit count : Nat) : Prop :=
  ∃ queue, dist.queues.get? held.queue = some queue ∧ queue.Carries watch capacity limit count

/-- A move adds to what a watch carries what the client's stores apply. -/
theorem Sound.carries_move (sound : dist.Sound) (found : dist.client? client = some held)
    (carries : dist.Carries held watch capacity limit count) (move : Move dist shown next)
    (forwards : Forwards shown) (room : count + (acceptedBy held.stores shown).length ≤ limit) :
    next.Carries held watch capacity limit (count + (acceptedBy held.stores shown).length) := by
  obtain ⟨queue, here, standing⟩ := carries
  cases move with
  | @register other requested granted =>
    obtain ⟨assigned, after, -, -, -, same⟩ := dist.allocate_spec other requested
    exact ⟨queue, by rw [same]; exact QueueTable.get?_add here, standing⟩
  | @submit update resolved =>
    have told := sound.get?_submit found here update
    rw [acceptedBy_submitted] at room ⊢
    split at told
    · next mine =>
      rw [if_pos mine] at room ⊢
      exact ⟨_, told, standing.push room update⟩
    · next other =>
      rw [if_neg other]
      exact ⟨queue, told, standing⟩
  | watch accepted =>
    obtain ⟨other, before, opened, known, -, there, answer, rfl, rfl⟩ := watchFrom_eq_ok.mp accepted
    refine ⟨queue, ?_, standing⟩
    rw [QueueTable.get?_modify, if_neg ?_]
    · exact here
    · intro same
      rw [same, there] at here
      obtain rfl := Option.some.inj here
      obtain ⟨replay, replayed⟩ := ClientQueue.exists_replay answer
      have idle := ((ClientQueue.watchFrom_eq_ok replayed).mp answer).1
      rw [standing.isWatching] at idle
      cases idle
  | @serve number before after occurrence there service moved =>
    obtain ⟨other, rfl⟩ := forwards number occurrence (List.mem_singleton_self _)
    by_cases mine : held.queue = number
    · obtain rfl := Option.some.inj (here.symm.trans (mine ▸ there))
      exact ⟨after, by rw [QueueTable.get?_modify, if_pos mine, ← mine, here]; rfl,
        standing.forwarded moved⟩
    · exact ⟨queue, by rw [QueueTable.get?_modify, if_neg mine, here], standing⟩
  | administer => exact ⟨queue, here, standing⟩

/-- So it does along a run. -/
theorem Sound.carries_run (sound : dist.Sound) (found : dist.client? client = some held)
    (carries : dist.Carries held watch capacity limit count) (run : Moves dist shown next)
    (forwards : Forwards shown) (room : count + (acceptedBy held.stores shown).length ≤ limit) :
    next.Carries held watch capacity limit (count + (acceptedBy held.stores shown).length) := by
  induction run with
  | refl => exact carries
  | @step earlier last state next prior transition ih =>
    have earlierForwards : Forwards earlier := fun number occurrence member =>
      forwards number occurrence (List.mem_append_left _ member)
    have lastForwards : Forwards last := fun number occurrence member =>
      forwards number occurrence (List.mem_append_right _ member)
    rw [acceptedBy_append, List.length_append, ← Nat.add_assoc] at room ⊢
    have so_far := ih earlierForwards (by omega)
    exact (sound.moves prior).carries_move (client?_of_moves prior found) so_far transition
      lastForwards room

/-- In a reachable state, the streams of a queue have ids of their own. -/
theorem Reachable.nodup_ids (reached : Reachable config trace dist) {number : Nat}
    {queue : ClientQueue} (here : dist.queues.get? number = some queue) : queue.ids.Nodup := by
  obtain ⟨held, known, rfl⟩ := reached.enrolled.client number queue here
  obtain ⟨again, locations, steps, there, schedule, -⟩ := exists_account reached known
  obtain rfl := Option.some.inj (here.symm.trans there)
  exact schedule.nodup_ids

/-- There, forwarders can all settle. -/
theorem Reachable.stirs_settle (reached : Reachable config trace dist) (now : Time) :
    Relation.ReflTransGen QueueTable.Stirs dist.queues (dist.queues.settle now) := by
  rw [← QueueTable.settleFirst_size]
  exact QueueTable.stirs_settleFirst now (fun _ _ => reached.nodup_ids) dist.queues.queues.size

/-- Forwarders that make steps disturb nothing. -/
theorem undisturbed_of_stirs {queues : QueueTable}
    (stirred : Relation.ReflTransGen QueueTable.Stirs dist.queues queues) :
    Chained Undisturbed dist [] { dist with queues } := by
  induction stirred with
  | refl => exact .refl
  | @tail middle last _ step ih => exact ih.step (.forward step)

end Distributor

end FleetRing
