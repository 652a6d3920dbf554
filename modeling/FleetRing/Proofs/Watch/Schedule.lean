import FleetRing.Proofs.Call
import FleetRing.Watch.ClientQueue
import Mathlib.Data.List.TakeWhile

/-!
# Schedules of a client queue

The relation, rather than the scheduler that `settle` implements, is
authoritative. `Step` lists everything that can happen next to one client queue:
an update is pushed, a watch is asked for, one forwarder makes one of the steps
that are open to it, or a client receives, signals or lets go. `Steps` strings
such steps together in any order and keeps what each of them showed.

What a schedule has pushed, delivered and lost is read off its occurrences alone,
so statements about streams never mention how a state was reached.
-/

namespace FleetRing

namespace WatchStream

/-- One step of a forwarder. Its mailbox is `fed` as long as its watch is installed. -/
inductive Forwards (fed : Bool) (stream next : WatchStream) : Prop where
  | take (now : Time) (taken : stream.take? now = some next)
  | deliver (delivered : stream.deliver? = some next)
  | quit (stopped : stream.quit? = some next)
  | finish (drained : stream.finish? fed = some next)
  | leave (left : stream.leave? = some next)

end WatchStream

namespace ClientQueue

/-- What one step of a client queue shows. -/
inductive Occurrence where
  | pushed (update : Update)
  /-- An update was pushed that the mailbox of the installed watch had no room for. -/
  | overflowed (watch : Nat) (update : Update)
  | opened (watch : Nat) (replay : List Update)
  | refused (error : Error)
  | forwarded (watch : Nat)
  | received (watch : Nat) (event : NodeEvent)
  | signalled (watch : Nat) (signal : StopSignal)
  /-- The receiving end was let go, and with it the events that waited there. -/
  | released (watch : Nat) (lost : List NodeEvent)
  deriving DecidableEq

/-- Can the next update enter the mailbox of the installed watch, if there is one? -/
def hasRoom (queue : ClientQueue) : Bool :=
  match queue.watcher with
  | none => true
  | some watch => (queue.stream? watch).any (·.hasRoom)

/-- Collect what is to be replayed, floor by floor, behind what was collected before. -/
def collecting (collected : List Update) :
    List (Location × Version) → Call Error ClientQueue (List Update)
  | [] => pure collected
  | (location, floor) :: floors => do
    match (← get).windows[location]? with
    | none => throw (.locationNotWatched (← get).client location)
    | some window =>
      match window.since floor with
      | .error error => throw error
      | .ok updates => collecting (collected ++ updates) floors

/-- A watch is asked for: the queue is looked at, the replay collected, an id drawn, the watch
installed and its forwarder sent off, in this order. -/
def watching (floors : List (Location × Version)) (outputCapacity : Nat) :
    Call Error ClientQueue Nat := do
  Call.refuseIf (← get).isWatching (.alreadyWatching (← get).client)
  let replay ← collecting [] floors
  let id ← modifyGet fun queue => (queue.nextWatch, { queue with nextWatch := queue.nextWatch + 1 })
  modify fun queue => { queue with watcher := some id }
  modify fun queue => { queue with
    streams := queue.streams ++ [.start id replay queue.windowLength outputCapacity] }
  return id

/-- Collecting answers what `replay` answers, and touches nothing. -/
theorem collecting_run (queue : ClientQueue) (collected : List Update)
    (floors : List (Location × Version)) : (collecting collected floors).run.run queue =
      ((queue.replay floors).map (collected ++ ·), queue) := by
  induction floors generalizing collected with
  | nil => rw [collecting, Call.run_pure, replay, Except.map, List.append_nil]
  | cons first rest ih =>
    obtain ⟨location, floor⟩ := first
    rw [collecting, replay, Call.run_get]
    cases queue.windows[location]? with
    | none => rfl
    | some window =>
      simp only
      cases window.since floor with
      | error error => rfl
      | ok updates =>
        refine (ih (collected ++ updates)).trans ?_
        cases queue.replay rest <;> simp [Except.map]

/-- What comes of asking for a watch is what `watchFrom` answers, and a queue that refuses it is
left as it was. -/
theorem watching_run (queue : ClientQueue) (floors : List (Location × Version)) (capacity : Nat) :
    (watching floors capacity).run.run queue =
      match queue.watchFrom floors capacity with
      | .ok (watch, next) => (.ok watch, next)
      | .error error => (.error error, queue) := by
  rw [watching, watchFrom]
  simp only [Call.run_get, Call.run_refuseIf]
  split
  · rfl
  · rw [Call.run_bind, collecting_run]
    cases queue.replay floors <;> rfl

/-- A watch that is refused leaves the queue as it was. -/
theorem watching_refused {queue next : ClientQueue} {floors : List (Location × Version)}
    {capacity : Nat} {error : Error} :
    (watching floors capacity).run.run queue = (.error error, next) ↔
      queue.watchFrom floors capacity = .error error ∧ next = queue := by
  rw [watching_run]
  cases queue.watchFrom floors capacity with
  | ok granted => exact iff_of_false (fun same => nomatch same) (fun same => nomatch same.1)
  | error other =>
    constructor
    · rintro ⟨⟩
      exact ⟨rfl, rfl⟩
    · rintro ⟨⟨⟩, rfl⟩
      rfl

/-- Everything that can happen next to a client queue. -/
inductive Step (queue : ClientQueue) : Occurrence → ClientQueue → Prop where
  | push (update : Update) (room : queue.hasRoom = true) :
      Step queue (.pushed update) (queue.push update)
  | overflow {watch : Nat} (update : Update) (installed : queue.watcher = some watch)
      (full : queue.hasRoom = false) :
      Step queue (.overflowed watch update) (queue.push update)
  | watch {floors : List (Location × Version)} {capacity watch : Nat} {replay : List Update}
      {next : ClientQueue} (replayed : queue.replay floors = .ok replay)
      (accepted : queue.watchFrom floors capacity = .ok (watch, next)) :
      Step queue (.opened watch replay) next
  | refuse {floors : List (Location × Version)} {capacity : Nat} {error : Error}
      {next : ClientQueue}
      (refused : (watching floors capacity).run.run queue = (.error error, next)) :
      Step queue (.refused error) next
  | forward {watch : Nat} {stream next : WatchStream} (found : queue.stream? watch = some stream)
      (moved : stream.Forwards (queue.watcher == some watch) next) :
      Step queue (.forwarded watch) (queue.putStream watch next)
  | receive {watch : Nat} {event : NodeEvent} {next : ClientQueue}
      (received : queue.receive? watch = some (event, next)) :
      Step queue (.received watch event) next
  | signal (watch : Nat) (signal : StopSignal) (spent : signal ≠ .armed) :
      Step queue (.signalled watch signal) (queue.signal watch signal)
  | release {watch : Nat} {stream : WatchStream} (found : queue.stream? watch = some stream) :
      Step queue (.released watch stream.output.toList) (queue.dropReceiver watch)

/-- Zero or more steps from a queue, with what they showed. -/
inductive Steps (start : ClientQueue) : List Occurrence → ClientQueue → Prop where
  | refl : Steps start [] start
  | step {trace : List Occurrence} {queue next : ClientQueue} {occurrence : Occurrence}
      (prior : Steps start trace queue) (transition : Step queue occurrence next) :
      Steps start (trace ++ [occurrence]) next

/-- Any update can be pushed next. -/
theorem Step.exists_push (queue : ClientQueue) (update : Update) :
    ∃ occurrence : Occurrence, (occurrence = .pushed update ∨
      ∃ watch, occurrence = .overflowed watch update) ∧
        Step queue occurrence (queue.push update) := by
  cases room : queue.hasRoom with
  | true => exact ⟨.pushed update, .inl rfl, .push update room⟩
  | false =>
    cases installed : queue.watcher with
    | none => simp [hasRoom, installed] at room
    | some watch =>
      exact ⟨.overflowed watch update, .inr ⟨watch, rfl⟩, .overflow update installed room⟩

/-- Compose two schedules that meet at the same queue. -/
theorem Steps.trans {start middle finish : ClientQueue} {earlier later : List Occurrence}
    (first : Steps start earlier middle) (second : Steps middle later finish) :
    Steps start (earlier ++ later) finish := by
  induction second with
  | refl => simpa using first
  | step prior transition ih =>
    rw [← List.append_assoc]
    exact .step ih transition

/-- Cut a schedule in two. -/
theorem Steps.split {start finish : ClientQueue} {earlier later : List Occurrence}
    (schedule : Steps start (earlier ++ later) finish) :
    ∃ middle, Steps start earlier middle ∧ Steps middle later finish := by
  generalize whole : earlier ++ later = trace at schedule
  induction schedule generalizing later with
  | refl =>
    obtain ⟨rfl, rfl⟩ := List.append_eq_nil_iff.mp whole
    exact ⟨_, .refl, .refl⟩
  | @step trace queue next occurrence prior transition ih =>
    rcases List.eq_nil_or_concat later with rfl | ⟨rest, last, rfl⟩
    · rw [List.append_nil] at whole
      subst whole
      exact ⟨_, .step prior transition, .refl⟩
    · rw [List.concat_eq_append, ← List.append_assoc] at whole
      obtain ⟨same, rfl⟩ := List.append_singleton_inj.mp whole
      obtain ⟨middle, first, second⟩ := ih same
      exact ⟨middle, first, List.concat_eq_append ▸ .step second transition⟩

/-- Without occurrences there is no step. -/
theorem Steps.eq_of_nil {start finish : ClientQueue} (schedule : Steps start [] finish) :
    finish = start := by
  generalize empty : ([] : List Occurrence) = trace at schedule
  cases schedule with
  | refl => rfl
  | step prior transition => simp at empty

/-- The first step of a schedule. -/
theorem Steps.head {start finish : ClientQueue} {occurrence : Occurrence}
    {later : List Occurrence} (schedule : Steps start (occurrence :: later) finish) :
    ∃ next, Step start occurrence next ∧ Steps next later finish := by
  obtain ⟨next, first, rest⟩ :=
    Steps.split (show Steps start ([occurrence] ++ later) finish from schedule)
  refine ⟨next, ?_, rest⟩
  generalize single : [occurrence] = trace at first
  cases first with
  | refl => simp at single
  | @step trace queue _ last prior transition =>
    obtain ⟨rfl, rfl⟩ : trace = [] ∧ last = occurrence := by
      simpa [List.append_eq_singleton_iff] using single.symm
    exact prior.eq_of_nil ▸ transition

namespace Occurrence

/-- The update that was pushed, whether it fitted into a mailbox or not. -/
def update? : Occurrence → Option Update
  | pushed update | overflowed _ update => some update
  | opened _ _ | refused _ | forwarded _ | received _ _ | signalled _ _ | released _ _ => none

/-- The event that the client received of a watch. -/
def receivedOf? (watch : Nat) : Occurrence → Option NodeEvent
  | received other event => if other = watch then some event else none
  | pushed _ | overflowed _ _ | opened _ _ | refused _ | forwarded _ | signalled _ _
  | released _ _ => none

/-- The events of a watch that were let go unreceived. -/
def lostOf (watch : Nat) : Occurrence → List NodeEvent
  | released other lost => if other = watch then lost else []
  | pushed _ | overflowed _ _ | opened _ _ | refused _ | forwarded _ | received _ _
  | signalled _ _ => []

/-- Did an update not fit into the mailbox of a watch? -/
def cuts (watch : Nat) : Occurrence → Bool
  | overflowed other _ => other == watch
  | pushed _ | opened _ _ | refused _ | forwarded _ | received _ _ | signalled _ _
  | released _ _ => false

end Occurrence

section Traces

variable (watch : Nat) (trace : List Occurrence)

/-- The updates pushed, in order. -/
def pushes : List Update :=
  trace.filterMap Occurrence.update?

/-- The events that the client received of a watch, in order. -/
def received : List NodeEvent :=
  trace.filterMap (Occurrence.receivedOf? watch)

/-- The events of a watch that went with its receiving end. -/
def lost : List NodeEvent :=
  trace.flatMap (Occurrence.lostOf watch)

/-- The updates pushed before the first one that did not fit into the mailbox of a watch. -/
def admitted : List Update :=
  pushes (trace.takeWhile fun occurrence => !occurrence.cuts watch)

end Traces

section Appending

variable {watch : Nat} {trace : List Occurrence} {occurrence : Occurrence}

@[simp]
theorem pushes_append (earlier later : List Occurrence) :
    pushes (earlier ++ later) = pushes earlier ++ pushes later :=
  List.filterMap_append

@[simp]
theorem received_append (earlier later : List Occurrence) :
    received watch (earlier ++ later) = received watch earlier ++ received watch later :=
  List.filterMap_append

@[simp]
theorem lost_append (earlier later : List Occurrence) :
    lost watch (earlier ++ later) = lost watch earlier ++ lost watch later :=
  List.flatMap_append

theorem received_concat : received watch (trace ++ [occurrence]) =
    received watch trace ++ (occurrence.receivedOf? watch).toList := by
  rw [received_append]
  cases given : occurrence.receivedOf? watch <;> simp [received, given]

theorem lost_concat : lost watch (trace ++ [occurrence]) =
    lost watch trace ++ occurrence.lostOf watch := by
  rw [lost_append]
  simp [lost]

/-- Only an update can fail to fit. -/
theorem Occurrence.cuts_eq_false (unpushed : occurrence.update? = none) :
    occurrence.cuts watch = false := by
  cases occurrence <;> first | rfl | cases unpushed

/-- Either every update fitted, or there is one that did not. -/
theorem uncut_or_cut (watch : Nat) (trace : List Occurrence) :
    (∀ other ∈ trace, other.cuts watch = false) ∨ ∃ other ∈ trace, other.cuts watch = true := by
  by_cases cut : ∃ other ∈ trace, other.cuts watch = true
  · exact .inr cut
  · refine .inl fun other member => ?_
    simpa using fun cuts => cut ⟨other, member, cuts⟩

/-- Until an update does not fit, every update is admitted. -/
theorem admitted_eq_pushes (uncut : ∀ other ∈ trace, other.cuts watch = false) :
    admitted watch trace = pushes trace := by
  rw [admitted, List.takeWhile_eq_self_iff.mpr]
  intro other member
  simp [uncut other member]

/-- Once an update did not fit, no further one is admitted. -/
theorem admitted_append_of_cut {rest : List Occurrence}
    (cut : ∃ other ∈ trace, other.cuts watch = true) :
    admitted watch (trace ++ rest) = admitted watch trace := by
  obtain ⟨other, member, holds⟩ := cut
  have stops : (trace.takeWhile fun other => !other.cuts watch).length ≠ trace.length := by
    intro same
    have whole :=
      (List.takeWhile_sublist fun other => !Occurrence.cuts watch other).eq_of_length same
    have kept := List.takeWhile_eq_self_iff.mp whole other member
    simp [holds] at kept
  rw [admitted, List.takeWhile_append, if_neg stops, admitted]

/-- Until then, what is admitted next comes behind. -/
theorem admitted_append_of_uncut {rest : List Occurrence}
    (uncut : ∀ other ∈ trace, other.cuts watch = false) :
    admitted watch (trace ++ rest) = admitted watch trace ++ admitted watch rest := by
  have whole : ∀ other ∈ trace, (!other.cuts watch) = true := by
    simpa using uncut
  rw [admitted, List.takeWhile_append_of_pos whole, pushes_append, ← admitted_eq_pushes uncut]
  rfl

/-- Later occurrences take nothing back that was admitted. -/
theorem admitted_prefix_append (rest : List Occurrence) :
    admitted watch trace <+: admitted watch (trace ++ rest) := by
  rcases uncut_or_cut watch trace with uncut | cut
  · rw [admitted_append_of_uncut uncut]
    exact List.prefix_append _ _
  · simp only [admitted_append_of_cut cut, List.prefix_rfl]

/-- Without an update there is nothing to admit. -/
theorem admitted_concat_of_none (unpushed : occurrence.update? = none) :
    admitted watch (trace ++ [occurrence]) = admitted watch trace := by
  rcases uncut_or_cut watch trace with uncut | cut
  · have passes : (!occurrence.cuts watch) = true := by simp [Occurrence.cuts_eq_false unpushed]
    rw [admitted_append_of_uncut uncut]
    simp [admitted, passes, pushes, unpushed]
  · rw [admitted_append_of_cut cut]

/-- What is admitted is the first part of what is pushed. -/
theorem admitted_prefix_pushes (watch : Nat) (trace : List Occurrence) :
    admitted watch trace <+: pushes trace :=
  (List.takeWhile_prefix _).filterMap _

/-- Everything is admitted up to the first update that does not fit. -/
theorem admitted_of_overflow {first rest : List Occurrence} {update : Update}
    (uncut : ∀ other ∈ first, other.cuts watch = false) :
    admitted watch (first ++ .overflowed watch update :: rest) = pushes first := by
  rw [admitted_append_of_uncut uncut, admitted_eq_pushes uncut]
  simp [admitted, Occurrence.cuts, pushes]

/-- Any updates can be pushed one after the other. -/
theorem Steps.exists_pushes (queue : ClientQueue) (updates : List Update) :
    ∃ trace, Steps queue trace (updates.foldl push queue) ∧ pushes trace = updates := by
  induction updates generalizing queue with
  | nil => exact ⟨[], .refl, rfl⟩
  | cons update updates ih =>
    obtain ⟨occurrence, shape, transition⟩ := Step.exists_push queue update
    obtain ⟨trace, rest, pushed⟩ := ih (queue.push update)
    refine ⟨[occurrence] ++ trace, (Steps.refl.step transition).trans rest, ?_⟩
    rw [pushes_append, pushed]
    rcases shape with rfl | ⟨watch, rfl⟩ <;> rfl

end Appending

end ClientQueue

end FleetRing
