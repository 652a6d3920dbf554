import FleetRing.Proofs.Distributor.Covering
import FleetRing.Proofs.Distributor.Calm
import FleetRing.Simulation

/-!
# The stages of a simulation

However forwarders take their turns (`Scheduler.Fair`), taking in batches and enlisting clients are
undisturbed runs (`takeInAll_run`, `enlistAll_run`), so all that holds of those holds of a
simulation. A client that is enlisted is listed the nodes of its stores, and then receives every
update that is routed to them, as long as no more than its window holds are sent before it begins
to receive (`enlist_spec`).
-/

namespace FleetRing

namespace Simulation

open Distributor

variable {config : Config} {dist next : Distributor} {client : String} {hosts : Nat}
  {watcher : Watcher} {updates : List Update} {scheduler : Scheduler}

/-- A scheduler lets forwarders make any steps, and in the end all those that pass something on to
a client that receives. -/
structure Scheduler.Fair (scheduler : Scheduler) : Prop where
  settles : ∀ {config trace dist}, Reachable config trace dist →
    Relation.ReflTransGen QueueTable.Stirs dist.queues (scheduler.settle dist)
  receives : ∀ {config trace dist number queue watch capacity stream},
    Reachable config trace dist → dist.queues.get? number = some queue →
    ClientQueue.Standing watch capacity queue stream → 0 < capacity →
      queue.Drains watch (scheduler.receive queue watch)

/-- To run every forwarder until it has to wait is fair. -/
theorem Scheduler.eager_fair : Scheduler.eager.Fair where
  settles reached := reached.stirs_settle 0
  receives reached here standing room := standing.drains_receiveAll (reached.nodup_ids here) room 0

theorem settle_run (fair : scheduler.Fair) (calm : Calm config updates dist) :
    Chained Undisturbed dist [] (settle scheduler dist) := by
  obtain ⟨trace, reached, -⟩ := calm.reachable
  exact undisturbed_of_stirs (fair.settles reached)

/-- A batch comes in, and the forwarders pass on what they do. -/
theorem takeIn_run (fair : scheduler.Fair) (calm : Calm config updates dist)
    (events : List NodeEvent) :
    Chained Undisturbed dist (arrivals 0 events) (takeIn scheduler dist events) := by
  have taken : Chained Undisturbed dist _ _ := .single (.ingest 0 events)
  have whole := taken.trans (settle_run fair (calm.trans taken))
  rwa [List.append_nil] at whole

theorem arrivals_append (now : Time) (first second : List NodeEvent) :
    arrivals now (first ++ second) = arrivals now first ++ arrivals now second := by
  simp [arrivals, receive]

/-- So do batches, one after the other. -/
theorem takeInAll_run (fair : scheduler.Fair) (calm : Calm config updates dist)
    (parts : List (List NodeEvent)) :
    Chained Undisturbed dist (arrivals 0 parts.flatten)
      (parts.foldl (takeIn scheduler) dist) := by
  induction parts generalizing updates dist with
  | nil => exact .refl
  | cons part parts ih =>
    have first := takeIn_run fair calm part
    rw [List.flatten_cons, arrivals_append]
    exact first.trans (ih (calm.trans first))

/-- They make no client known. -/
theorem clients_takeInAll (scheduler : Scheduler) (parts : List (List NodeEvent))
    (dist : Distributor) : (parts.foldl (takeIn scheduler) dist).clients = dist.clients := by
  induction parts generalizing dist with
  | nil => rfl
  | cons part parts ih => exact ih _

/-- What enlisting a client consists of. -/
theorem enlist_eq_ok (enlisted : enlist scheduler dist client hosts = .ok (watcher, next)) :
    ∃ registered listing floors capacity opened, dist.register 0 client hosts = .ok registered ∧
      (settle scheduler registered).list client = .ok (listing, floors) ∧
      Limit.queueFits capacity = true ∧
      (settle scheduler registered).watch client floors capacity =
        .ok (watcher.queue, watcher.watch, opened) ∧
      opened.queues.watchFits watcher.queue watcher.watch = true ∧
      watcher.client = client ∧ watcher.listed = listing.length ∧
      next = settle scheduler opened := by
  unfold enlist at enlisted
  split at enlisted
  · cases enlisted
  · next registered accepted =>
    dsimp only at enlisted
    split at enlisted
    · cases enlisted
    · next listing floors listed =>
      split at enlisted
      · cases enlisted
      · next fits =>
        split at enlisted
        · cases enlisted
        · next queue watch opened granted =>
          split at enlisted
          · next made =>
            obtain ⟨rfl, rfl⟩ := Prod.mk.inj (Except.ok.inj enlisted)
            exact ⟨registered, listing, floors, _, opened, accepted, listed, by simpa using fits,
              granted, made, rfl, rfl, rfl⟩
          · cases enlisted

/-- A client without id is handed nothing, so it is listed no floor. -/
theorem toList_of_unnamed {registered : Distributor} {floors : VersionMap} {listing : List Node}
    (accepted : dist.register 0 "" hosts = .ok registered)
    (listed : (settle scheduler registered).list "" = .ok (listing, floors)) :
    floors.toList = [] := by
  have known : (settle scheduler registered).client? "" = some ⟨dist.queues.queues.size, []⟩ := by
    obtain ⟨-, metrics, rfl⟩ := register_eq accepted
    have clients : (settle scheduler { (dist.allocate "" hosts).2 with metrics }).clients =
        ("", ⟨dist.queues.queues.size, []⟩) :: dist.clients := by
      simp only [settle, allocate, assignAll_unnamed]
      rfl
    exact (client?_of_clients clients "").trans (if_pos rfl)
  obtain ⟨-, rfl⟩ := Prod.mk.inj (Except.ok.inj ((list_eq known).symm.trans listed))
  rfl

/-- A client was enlisted: `registered` is the distributor when it was registered, `opened` when its
watch began. -/
structure Enlists (scheduler : Scheduler) (config : Config) (dist : Distributor) (hosts : Nat)
    (watcher : Watcher) (registered : Distributor) (held : Client) (opened : Distributor)
    (capacity : Nat) : Prop where
  accepted : dist.register 0 watcher.client hosts = .ok registered
  known : registered.client? watcher.client = some held
  /-- It is listed the nodes of its stores, -/
  listed : (settle scheduler registered).list watcher.client =
    .ok (registered.listing held, registered.floors held)
  count : watcher.listed = (registered.listing held).length
  /-- which are as many as it asked for. -/
  enough : hosts ≤ watcher.listed
  queue : watcher.queue = held.queue
  begun : Chained Undisturbed registered [] opened
  window : config.windowLength.toNat ≤ Limit.entries
  room : 0 < capacity
  /-- Its watch begins with nothing to receive, and has room for a window of updates. -/
  carries : opened.Carries held watcher.watch capacity config.windowLength.toNat 0

/-- A watch with nothing to replay has a mailbox for a window of updates. -/
theorem mailboxCapacity_start (watch length capacity : Nat) :
    (WatchStream.start watch [] length capacity).mailboxCapacity = max (max length 0) 1 :=
  rfl

/-- If both of its queues can be made, so can one for a window, and its client can receive. -/
theorem limits_of_fits {watch length capacity : Nat}
    (fits : (WatchStream.start watch [] length capacity).fits = true) :
    length ≤ Limit.entries ∧ 0 < capacity := by
  obtain ⟨mailbox, output⟩ := Bool.and_eq_true_iff.mp fits
  obtain ⟨-, window⟩ := of_decide_eq_true mailbox
  obtain ⟨room, -⟩ := of_decide_eq_true output
  rw [mailboxCapacity_start] at window
  exact ⟨by omega, room⟩

/-- A client that is enlisted is given what it asked for. -/
theorem enlist_spec (fair : scheduler.Fair) (calm : Calm config updates dist)
    (enlisted : enlist scheduler dist client hosts = .ok (watcher, next)) :
    watcher.client = client ∧ ∃ registered held opened capacity,
      Enlists scheduler config dist hosts watcher registered held opened capacity ∧
        Chained Undisturbed opened [] next := by
  obtain ⟨registered, listing, floors, capacity, opened, accepted, listed, fits, granted, made,
    rfl, count, rfl⟩ := enlist_eq_ok enlisted
  have first : Chained Undisturbed dist [] registered := .single (.register accepted)
  have calmRegistered := calm.quietly first
  have second := settle_run fair calmRegistered
  have third : Chained Undisturbed registered [] opened := second.trans (.single (.watch granted))
  obtain ⟨trace, reached, -⟩ := (calmRegistered.quietly second).reachable
  obtain ⟨given, queue, after, known, nonempty, here, answered, number, rfl⟩ :=
    watchFrom_eq_ok.mp granted
  have named : watcher.client ≠ "" := by
    intro unnamed
    rw [unnamed] at accepted listed
    rw [toList_of_unnamed accepted listed] at nonempty
    cases nonempty
  obtain ⟨held, found, enough⟩ := le_hosts_of_register named accepted
  obtain rfl : held = given := Option.some.inj (found.symm.trans known)
  obtain ⟨rfl, rfl⟩ := Prod.mk.inj (Except.ok.inj ((list_eq known).symm.trans listed))
  obtain ⟨again, steps, there, schedule, replayed⟩ :=
    replay_floors reached named known (VersionMap.enumerates_iff_perm.mpr (.refl _))
  obtain rfl := Option.some.inj (here.symm.trans there)
  have standing := ClientQueue.Standing.opened (schedule.fresh (ClientQueue.fresh_new _ _))
    replayed answered
  have opens : ((settle scheduler registered).queues.modify held.queue fun _ => after).get?
      held.queue = some after := by
    rw [QueueTable.get?_modify, if_pos rfl, here]
    rfl
  have length : queue.windowLength = config.windowLength.toNat := schedule.settings.1
  rw [length] at standing
  obtain ⟨window, room⟩ : config.windowLength.toNat ≤ Limit.entries ∧ 0 < capacity := by
    simp only [QueueTable.watchFits, number, opens, standing.found, Option.all_some] at made
    exact limits_of_fits made
  have nodes : ((settle scheduler registered).listing held).length =
      hostsAt registered.nodes.stores held.stores :=
    calmRegistered.sound.length_nodesAt held.stores
  exact ⟨rfl, registered, held, _, capacity, {
    accepted
    known := found
    listed
    count
    enough := by rw [count, nodes]; exact enough
    queue := number
    begun := third
    window
    room
    carries := ⟨after, opens, _, standing, rfl, by rw [mailboxCapacity_start]; omega⟩ },
    settle_run fair (calmRegistered.quietly third)⟩

/-- A client is enlisted without disturbance, and nothing comes in. -/
theorem enlist_run (fair : scheduler.Fair) (calm : Calm config updates dist)
    (enlisted : enlist scheduler dist client hosts = .ok (watcher, next)) :
    Chained Undisturbed dist [] next := by
  obtain ⟨-, registered, held, opened, capacity, enlists, settled⟩ :=
    enlist_spec fair calm enlisted
  have first : Chained Undisturbed dist [] registered := .single (.register enlists.accepted)
  exact (first.trans enlists.begun).trans settled

/-- It was not known before, and is then. -/
theorem client?_of_enlist (fair : scheduler.Fair) (calm : Calm config updates dist)
    (enlisted : enlist scheduler dist client hosts = .ok (watcher, next)) :
    dist.client? client = none ∧ watcher.client = client ∧
      ∃ held, next.client? client = some held := by
  obtain ⟨rfl, registered, held, opened, capacity, enlists, settled⟩ :=
    enlist_spec fair calm enlisted
  exact ⟨(client?_of_granted (register_eq enlists.accepted).1).1, rfl, held,
    client?_of_run (enlists.begun.trans settled) enlists.known⟩

variable {draw : Nat → String} {count first : Nat} {watchers : List Watcher}

/-- They are enlisted one by one. -/
theorem enlistAll_succ
    (enlisted : enlistAll scheduler hosts draw (count + 1) first dist = .ok (watchers, next)) :
    ∃ watcher middle others, enlist scheduler dist (draw first) hosts = .ok (watcher, middle) ∧
      enlistAll scheduler hosts draw count (first + 1) middle = .ok (others, next) ∧
      watchers = watcher :: others := by
  unfold enlistAll at enlisted
  split at enlisted
  · cases enlisted
  · next watcher middle one =>
    split at enlisted
    · cases enlisted
    · next others last rest =>
      obtain ⟨rfl, rfl⟩ := Prod.mk.inj (Except.ok.inj enlisted)
      exact ⟨watcher, middle, others, one, rest, rfl⟩

/-- That is not a disturbance either. -/
theorem enlistAll_run (fair : scheduler.Fair) (calm : Calm config updates dist)
    (enlisted : enlistAll scheduler hosts draw count first dist = .ok (watchers, next)) :
    Chained Undisturbed dist [] next := by
  induction count generalizing first dist watchers updates with
  | zero =>
    obtain ⟨-, rfl⟩ := Prod.mk.inj (Except.ok.inj enlisted)
    exact .refl
  | succ count ih =>
    obtain ⟨watcher, middle, others, one, rest, -⟩ := enlistAll_succ enlisted
    have run := enlist_run fair calm one
    exact run.trans (ih (calm.trans run) rest)

/-- Each of them is enlisted after those in front of it. -/
theorem enlistAll_split
    (enlisted : enlistAll scheduler hosts draw count first dist = .ok (watchers, next)) :
    watchers.length = count ∧ ∀ i watcher, watchers[i]? = some watcher →
      ∃ earlier before after later,
        enlistAll scheduler hosts draw i first dist = .ok (earlier, before) ∧
        enlist scheduler before (draw (first + i)) hosts = .ok (watcher, after) ∧
        enlistAll scheduler hosts draw (count - (i + 1)) (first + i + 1) after =
          .ok (later, next) := by
  induction count generalizing first dist watchers with
  | zero =>
    obtain ⟨rfl, rfl⟩ := Prod.mk.inj (Except.ok.inj enlisted)
    exact ⟨rfl, fun i watcher found => by simp at found⟩
  | succ count ih =>
    obtain ⟨one, middle, others, here, rest, rfl⟩ := enlistAll_succ enlisted
    obtain ⟨length, each⟩ := ih rest
    refine ⟨by rw [List.length_cons, length], fun i watcher found => ?_⟩
    cases i with
    | zero =>
      obtain rfl : one = watcher := by simpa using found
      exact ⟨[], dist, middle, others, rfl, here, by simpa using rest⟩
    | succ i =>
      obtain ⟨earlier, before, after, later, prior, self, further⟩ :=
        each i watcher (by simpa using found)
      have place : first + (i + 1) = first + 1 + i := by omega
      refine ⟨one :: earlier, before, after, later, ?_, by rwa [place], ?_⟩
      · simp only [enlistAll, here, prior]
      · rwa [place, Nat.add_sub_add_right]

/-- No two are enlisted under the same id. -/
theorem nodup_enlistAll (fair : scheduler.Fair) (calm : Calm config updates dist)
    (enlisted : enlistAll scheduler hosts draw count first dist = .ok (watchers, next)) :
    (∀ watcher ∈ watchers, dist.client? watcher.client = none) ∧
      (watchers.map (·.client)).Nodup := by
  induction count generalizing first dist watchers updates with
  | zero =>
    obtain ⟨rfl, -⟩ := Prod.mk.inj (Except.ok.inj enlisted)
    simp
  | succ count ih =>
    obtain ⟨one, middle, others, here, rest, rfl⟩ := enlistAll_succ enlisted
    have run := enlist_run fair calm here
    obtain ⟨unknown, name, held, known⟩ := client?_of_enlist fair calm here
    rw [← name] at unknown known
    obtain ⟨fresh, distinct⟩ := ih (calm.trans run) rest
    refine ⟨List.forall_mem_cons.mpr ⟨unknown, fun watcher member => ?_⟩,
      List.nodup_cons.mpr ⟨fun member => ?_, distinct⟩⟩
    · cases before : dist.client? watcher.client with
      | none => rfl
      | some theirs => rw [← fresh watcher member, client?_of_run run before]
    · obtain ⟨watcher, listed, same⟩ := List.mem_map.mp member
      have absent := fresh watcher listed
      rw [same, known] at absent
      cases absent

end Simulation

end FleetRing
