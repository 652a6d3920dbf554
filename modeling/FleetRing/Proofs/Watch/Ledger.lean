import FleetRing.Proofs.Watch.Delivery

/-!
# Every schedule delivers a gap-free prefix

`Ledger` ties one accepted watch to the occurrences since: its stream is balanced
against the replay and whatever was pushed before an update did not fit. It is
established when the watch is accepted and preserved by every step, whichever
stream the step is about. `schedule_delivers` states what follows for a whole
schedule, whatever other watches there were before and after.

Events that went with a receiving end are counted as `lost`. They stood in the
output, and a client that holds its end has lost none. `unreceived_event_missing`
shows what is missing when they are not counted, and what is missing between the
end of a forwarder and its leave.
-/

namespace FleetRing

namespace ClientQueue

/-- No stream has an id that is still to be given. -/
def Fresh (queue : ClientQueue) : Prop :=
  ∀ id, queue.nextWatch ≤ id → queue.stream? id = none

section Ids

variable {start queue next : ClientQueue} {occurrence : Occurrence} {trace : List Occurrence}

/-- A new queue has no streams. -/
theorem fresh_new (client : String) (windowLength : Nat) :
    Fresh { client, windowLength } :=
  fun _ _ => rfl

/-- An accepted watch adds one stream to those that are there. -/
theorem stream?_of_accepted {floors : List (Location × Version)} {capacity watch : Nat}
    {replay : List Update} {opened : ClientQueue} (fresh : queue.Fresh)
    (replayed : queue.replay floors = .ok replay)
    (accepted : queue.watchFrom floors capacity = .ok (watch, opened)) (id : Nat) :
    opened.stream? id =
      if id = watch then some (.start watch replay queue.windowLength capacity)
      else queue.stream? id := by
  obtain ⟨-, rfl, rfl⟩ := (watchFrom_eq_ok replayed).mp accepted
  simp only [stream?, List.find?_append]
  by_cases asked : id = queue.nextWatch
  · have unused : queue.streams.find? (fun stream => stream.id == id) = none :=
      fresh id (Nat.le_of_eq asked.symm)
    simp [asked ▸ unused, asked, WatchStream.start]
  · have unequal : ¬ queue.nextWatch = id := fun equal => asked equal.symm
    simp [asked, WatchStream.start, unequal]

/-- A step uses no id but the next one. -/
theorem Step.fresh (fresh : queue.Fresh) (transition : Step queue occurrence next) :
    next.Fresh := by
  cases transition with
  | push update room =>
    intro id unused
    rw [nextWatch_push] at unused
    rw [stream?_push_of_room room, fresh id unused]
    rfl
  | overflow update installed full =>
    rw [push_of_full full]
    exact fresh
  | watch replayed accepted =>
    intro id unused
    have added := stream?_of_accepted fresh replayed accepted id
    obtain ⟨-, rfl, rfl⟩ := (watchFrom_eq_ok replayed).mp accepted
    simp only at unused
    rw [added, if_neg (by omega)]
    exact fresh id (by omega)
  | refuse refused =>
    obtain ⟨-, rfl⟩ := watching_refused.mp refused
    exact fresh
  | forward found moved =>
    intro id unused
    rw [nextWatch_putStream] at unused
    rw [stream?_putStream found (moved.id_eq.trans (id_of_stream? found))]
    split
    · next same => simp [← same, fresh id unused] at found
    · exact fresh id unused
  | receive received =>
    obtain ⟨stream, moved, found, given, rfl⟩ := receive?_eq_some received
    intro id unused
    rw [stream?_of_receive? found given]
    split
    · next same => simp [← same, fresh id unused] at found
    · exact fresh id unused
  | signal watch signal spent =>
    intro id unused
    rw [ClientQueue.signal, nextWatch_withStream] at unused
    rw [stream?_signal]
    split
    · next same => simp [← same, fresh id unused]
    · exact fresh id unused
  | release found =>
    intro id unused
    rw [ClientQueue.dropReceiver, nextWatch_withStream] at unused
    rw [stream?_dropReceiver]
    split
    · next same => simp [← same, fresh id unused]
    · exact fresh id unused

/-- Ids stay unused until they are given, along every schedule. -/
theorem Steps.fresh (fresh : start.Fresh) (schedule : Steps start trace queue) :
    queue.Fresh := by
  induction schedule with
  | refl => exact fresh
  | step prior transition ih => exact transition.fresh ih

end Ids

/-- An accepted watch against what happened since. -/
structure Ledger (watch : Nat) (replay : List Update) (trace : List Occurrence)
    (queue : ClientQueue) (stream : WatchStream) : Prop where
  known : watch < queue.nextWatch
  found : queue.stream? watch = some stream
  balanced : stream.Balanced (replay ++ admitted watch trace) (received watch trace)
    (lost watch trace)
  /-- An installed watch is served, and everything fitted so far. -/
  installed : queue.watcher = some watch →
    stream.serving = true ∧ ∀ other ∈ trace, other.cuts watch = false
  /-- A watch whose forwarder runs and that is not installed was cut off. -/
  live : stream.forwarder = .running →
    queue.watcher = some watch ∨ ∃ other ∈ trace, other.cuts watch = true

namespace Ledger

variable {watch : Nat} {replay : List Update} {trace : List Occurrence}
  {queue next : ClientQueue} {stream moved : WatchStream} {occurrence : Occurrence}

/-- The ledger of a watch that was just accepted. -/
theorem opened {floors : List (Location × Version)} {capacity : Nat} (fresh : queue.Fresh)
    (replayed : queue.replay floors = .ok replay)
    (accepted : queue.watchFrom floors capacity = .ok (watch, next)) :
    Ledger watch replay [] next (.start watch replay queue.windowLength capacity) := by
  have added := stream?_of_accepted fresh replayed accepted watch
  obtain ⟨-, rfl, rfl⟩ := (watchFrom_eq_ok replayed).mp accepted
  refine ⟨Nat.lt_succ_self _, ?_, ?_, fun _ => ⟨rfl, by simp⟩, fun _ => .inl rfl⟩
  · simpa using added
  · simpa [admitted, pushes, received, lost] using WatchStream.Balanced.start _ replay _ capacity

/-- A step that pushes nothing keeps the ledger, when the stream stays balanced and the watch
is served and installed as before. -/
theorem quiet (ledger : Ledger watch replay trace queue stream)
    (unpushed : occurrence.update? = none) (known : queue.nextWatch ≤ next.nextWatch)
    (found : next.stream? watch = some moved)
    (balanced : moved.Balanced (replay ++ admitted watch trace)
      (received watch trace ++ (occurrence.receivedOf? watch).toList)
      (lost watch trace ++ occurrence.lostOf watch))
    (installed : next.watcher = some watch → queue.watcher = some watch ∧ moved.serving = true)
    (live : moved.forwarder = .running →
      stream.forwarder = .running ∧ (queue.watcher = some watch → next.watcher = some watch)) :
    Ledger watch replay (trace ++ [occurrence]) next moved where
  known := Nat.lt_of_lt_of_le ledger.known known
  found := found
  balanced := by
    rw [admitted_concat_of_none unpushed, received_concat, lost_concat]
    exact balanced
  installed watching := by
    obtain ⟨before, serving⟩ := installed watching
    refine ⟨serving, fun other member => ?_⟩
    rcases List.mem_append.mp member with earlier | last
    · exact (ledger.installed before).2 other earlier
    · rw [List.mem_singleton.mp last]
      exact Occurrence.cuts_eq_false unpushed
  live running := by
    obtain ⟨ran, stays⟩ := live running
    rcases ledger.live ran with before | ⟨other, member, cuts⟩
    · exact .inl (stays before)
    · exact .inr ⟨other, List.mem_append_left _ member, cuts⟩

/-- So does a step that leaves the installed watch and its forwarder alone. -/
theorem altered (ledger : Ledger watch replay trace queue stream)
    (unpushed : occurrence.update? = none) (watcher : next.watcher = queue.watcher)
    (nextWatch : next.nextWatch = queue.nextWatch) (found : next.stream? watch = some moved)
    (forwarder : moved.forwarder = stream.forwarder)
    (balanced : moved.Balanced (replay ++ admitted watch trace)
      (received watch trace ++ (occurrence.receivedOf? watch).toList)
      (lost watch trace ++ occurrence.lostOf watch)) :
    Ledger watch replay (trace ++ [occurrence]) next moved := by
  refine ledger.quiet unpushed (Nat.le_of_eq nextWatch.symm) found balanced ?_ ?_
  · intro installed
    have watching := watcher.symm.trans installed
    have serving := (ledger.installed watching).1
    exact ⟨watching, by rwa [WatchStream.serving, forwarder]⟩
  · exact fun running => ⟨forwarder.symm.trans running, watcher.trans⟩

/-- The stream of a watch that is not installed is fed nothing. -/
theorem unfed (ledger : Ledger watch replay trace queue stream)
    (idle : queue.watcher ≠ some watch) (rest : List Occurrence) :
    stream.Balanced (replay ++ admitted watch (trace ++ rest)) (received watch trace)
      (lost watch trace) := by
  by_cases running : stream.forwarder = .running
  · have cut := (ledger.live running).resolve_left idle
    rw [admitted_append_of_cut cut]
    exact ledger.balanced
  · exact ledger.balanced.extend running
      ((List.prefix_append_right_inj replay).mpr (admitted_prefix_append rest))

/-- An update that fits enters the stream of the installed watch only. -/
theorem pushed (ledger : Ledger watch replay trace queue stream) {update : Update}
    (room : queue.hasRoom = true) :
    Ledger watch replay (trace ++ [.pushed update]) (queue.push update)
      (if queue.watcher = some watch then stream.post update else stream) := by
  have uncut : ∀ other ∈ trace ++ [.pushed update], (∀ earlier ∈ trace,
      earlier.cuts watch = false) → other.cuts watch = false := by
    intro other member earlier
    rcases List.mem_append.mp member with before | last
    · exact earlier other before
    · rw [List.mem_singleton.mp last]
      rfl
  have found : (queue.push update).stream? watch =
      some (if queue.watcher = some watch then stream.post update else stream) := by
    rw [stream?_push_of_room room, ledger.found]
    rfl
  by_cases watching : queue.watcher = some watch
  · obtain ⟨serving, fitted⟩ := ledger.installed watching
    simp only [watching, if_true] at found ⊢
    refine ⟨by simpa using ledger.known, found, ?_, fun _ => ?_, fun _ => .inl ?_⟩
    · have posted := ledger.balanced.post update
      rw [admitted_append_of_uncut fitted, received_concat, lost_concat, ← List.append_assoc]
      simpa [Occurrence.receivedOf?, Occurrence.lostOf, admitted, Occurrence.cuts, pushes,
        Occurrence.update?] using posted
    · exact ⟨serving, fun other member => uncut other member fitted⟩
    · rw [watcher_push_of_room room, watching]
  · simp only [watching, if_false] at found ⊢
    refine ⟨by simpa using ledger.known, found, ?_, fun installed => ?_, fun running => ?_⟩
    · rw [received_concat, lost_concat]
      simpa [Occurrence.receivedOf?, Occurrence.lostOf] using ledger.unfed watching _
    · rw [watcher_push_of_room room] at installed
      exact absurd installed watching
    · obtain ⟨other, member, cuts⟩ := (ledger.live running).resolve_left watching
      exact .inr ⟨other, List.mem_append_left _ member, cuts⟩

/-- An update that does not fit enters no stream, and cuts the installed watch off. -/
theorem overflowed (ledger : Ledger watch replay trace queue stream) {other : Nat}
    {update : Update} (installed : queue.watcher = some other) (full : queue.hasRoom = false) :
    Ledger watch replay (trace ++ [.overflowed other update]) (queue.push update) stream := by
  rw [push_of_full full]
  refine ⟨ledger.known, ledger.found, ?_, fun watching => (nomatch watching), fun running => ?_⟩
  · rw [received_concat, lost_concat]
    simp only [Occurrence.receivedOf?, Occurrence.lostOf, Option.toList_none, List.append_nil]
    by_cases same : other = watch
    · subst same
      obtain ⟨-, fitted⟩ := ledger.installed installed
      have stays := admitted_eq_pushes fitted
      rw [admitted_of_overflow fitted, ← stays]
      exact ledger.balanced
    · refine ledger.unfed (fun watching => same ?_) _
      exact Option.some.inj (installed.symm.trans watching)
  · rcases ledger.live running with watching | ⟨earlier, member, cuts⟩
    · obtain rfl := Option.some.inj (installed.symm.trans watching)
      exact .inr ⟨_, List.mem_append_right _ (List.mem_singleton_self _), by simp [Occurrence.cuts]⟩
    · exact .inr ⟨earlier, List.mem_append_left _ member, cuts⟩

/-- A step of some forwarder. -/
theorem forwarded (ledger : Ledger watch replay trace queue stream) {other : Nat}
    {before after : WatchStream} (found : queue.stream? other = some before)
    (forwards : before.Forwards (queue.watcher == some other) after) :
    ∃ moved, Ledger watch replay (trace ++ [.forwarded other]) (queue.putStream other after)
      moved := by
  have same : after.id = other := forwards.id_eq.trans (id_of_stream? found)
  have stays := stream?_putStream found same watch
  have nothing := ledger.balanced
  by_cases here : watch = other
  · subst here
    obtain rfl := Option.some.inj (ledger.found.symm.trans found)
    refine ⟨after, ledger.quiet rfl (by simp) (by simpa using stays) ?_ ?_ fun running => ?_⟩
    · simpa [Occurrence.receivedOf?, Occurrence.lostOf] using nothing.forwards forwards
    · rw [watcher_putStream]
      intro installed
      cases serving : after.serving with
      | true => exact ⟨by simpa [serving] using installed, rfl⟩
      | false => by_cases watching : queue.watcher = some watch <;> simp_all
    · refine ⟨forwards.running_before running, fun watching => ?_⟩
      simp [watcher_putStream, WatchStream.serving_of_running running, watching]
  · refine ⟨stream, ledger.quiet rfl (by simp) (by simp [stays, here, ledger.found]) ?_ ?_
      fun running => ⟨running, fun watching => ?_⟩⟩
    · simpa [Occurrence.receivedOf?, Occurrence.lostOf] using nothing
    · rw [watcher_putStream]
      intro installed
      have watching : queue.watcher = some watch := by
        split at installed
        · cases installed
        · exact installed
      exact ⟨watching, (ledger.installed watching).1⟩
    · simp [watcher_putStream, watching, here]

/-- A client received an event. -/
theorem received (ledger : Ledger watch replay trace queue stream) {other : Nat}
    {event : NodeEvent} (given : queue.receive? other = some (event, next)) :
    ∃ moved, Ledger watch replay (trace ++ [.received other event]) next moved := by
  obtain ⟨before, after, found, taken, rfl⟩ := receive?_eq_some given
  have stays := stream?_of_receive? found taken watch
  by_cases here : watch = other
  · subst here
    obtain rfl := Option.some.inj (ledger.found.symm.trans found)
    have forwarder : after.forwarder = stream.forwarder := by
      obtain ⟨_, -, rfl⟩ := WatchStream.receive?_eq_some taken
      rfl
    refine ⟨after, ledger.altered rfl rfl rfl (by simpa using stays) forwarder ?_⟩
    simpa [Occurrence.receivedOf?, Occurrence.lostOf] using ledger.balanced.receive taken
  · have unequal : ¬ other = watch := fun equal => here equal.symm
    rw [if_neg here, ledger.found] at stays
    refine ⟨stream, ledger.altered rfl rfl rfl stays rfl ?_⟩
    simpa [Occurrence.receivedOf?, Occurrence.lostOf, unequal] using ledger.balanced

/-- A stop handle was fired or dropped. -/
theorem signalled (ledger : Ledger watch replay trace queue stream) (other : Nat)
    (signal : StopSignal) :
    ∃ moved, Ledger watch replay (trace ++ [.signalled other signal]) (queue.signal other signal)
      moved := by
  have stays := stream?_signal queue other signal watch
  by_cases here : watch = other
  · subst here
    rw [if_pos rfl, ledger.found] at stays
    refine ⟨_, ledger.altered rfl (by simp [ClientQueue.signal]) (by simp [ClientQueue.signal])
      stays rfl ?_⟩
    simpa [Occurrence.receivedOf?, Occurrence.lostOf] using ledger.balanced.signal signal
  · rw [if_neg here, ledger.found] at stays
    refine ⟨_, ledger.altered rfl (by simp [ClientQueue.signal]) (by simp [ClientQueue.signal])
      stays rfl ?_⟩
    simpa [Occurrence.receivedOf?, Occurrence.lostOf] using ledger.balanced

/-- A receiving end was let go. -/
theorem released (ledger : Ledger watch replay trace queue stream) {other : Nat}
    {before : WatchStream} (found : queue.stream? other = some before) :
    ∃ moved, Ledger watch replay (trace ++ [.released other before.output.toList])
      (queue.dropReceiver other) moved := by
  have stays := stream?_dropReceiver queue other watch
  by_cases here : watch = other
  · subst here
    obtain rfl := Option.some.inj (ledger.found.symm.trans found)
    rw [if_pos rfl, ledger.found] at stays
    refine ⟨_, ledger.altered rfl (by simp [ClientQueue.dropReceiver])
      (by simp [ClientQueue.dropReceiver]) stays rfl ?_⟩
    simpa [Occurrence.receivedOf?, Occurrence.lostOf] using ledger.balanced.dropReceiver
  · have unequal : ¬ other = watch := fun equal => here equal.symm
    rw [if_neg here, ledger.found] at stays
    refine ⟨_, ledger.altered rfl (by simp [ClientQueue.dropReceiver])
      (by simp [ClientQueue.dropReceiver]) stays rfl ?_⟩
    simpa [Occurrence.receivedOf?, Occurrence.lostOf, unequal] using ledger.balanced

/-- Another watch was accepted. It takes the place of one that is not served. -/
theorem reopened (ledger : Ledger watch replay trace queue stream)
    {floors : List (Location × Version)} {capacity id : Nat} {again : List Update}
    (replayed : queue.replay floors = .ok again)
    (accepted : queue.watchFrom floors capacity = .ok (id, next)) :
    Ledger watch replay (trace ++ [.opened id again]) next stream := by
  obtain ⟨idle, rfl, rfl⟩ := (watchFrom_eq_ok replayed).mp accepted
  have older : watch ≠ queue.nextWatch := Nat.ne_of_lt ledger.known
  refine ledger.quiet rfl (Nat.le_succ _) ?_ ?_ (fun installed => ?_)
    fun running => ⟨running, fun watching => ?_⟩
  · have found : queue.streams.find? (fun stream => stream.id == watch) = some stream :=
      ledger.found
    simp [stream?, found]
  · simpa [Occurrence.receivedOf?, Occurrence.lostOf] using ledger.balanced
  · exact absurd (Option.some.inj installed).symm older
  · have serving := WatchStream.serving_of_running running
    simp [isWatching, isServed, watching, ledger.found, serving] at idle

/-- Every step keeps the ledger of every accepted watch. -/
theorem step (ledger : Ledger watch replay trace queue stream)
    (transition : Step queue occurrence next) :
    ∃ moved, Ledger watch replay (trace ++ [occurrence]) next moved := by
  cases transition with
  | push update room => exact ⟨_, ledger.pushed room⟩
  | overflow update installed full => exact ⟨_, ledger.overflowed installed full⟩
  | watch replayed accepted => exact ⟨_, ledger.reopened replayed accepted⟩
  | refuse refused =>
    obtain ⟨-, rfl⟩ := watching_refused.mp refused
    refine ⟨_, ledger.altered rfl rfl rfl ledger.found rfl ?_⟩
    simpa [Occurrence.receivedOf?, Occurrence.lostOf] using ledger.balanced
  | forward found moved => exact ledger.forwarded found moved
  | receive given => exact ledger.received given
  | signal other signal spent => exact ledger.signalled other signal
  | release found => exact ledger.released found

/-- So does every schedule. -/
theorem steps {opened later : ClientQueue}
    (initial : ∃ stream, Ledger watch replay [] opened stream)
    (schedule : Steps opened trace later) : ∃ moved, Ledger watch replay trace later moved := by
  induction schedule with
  | refl => exact initial
  | step prior transition ih =>
    obtain ⟨stream, ledger⟩ := ih
    exact ledger.step transition

end Ledger

open WatchStream (unsent)

/-- What a watch that replays `replay` delivered along a schedule from its acceptance on, and
what it still carries. Events are compared as they were before the forwarder stamped them. -/
structure Delivers (watch : Nat) (replay : List Update) (trace : List Occurrence)
    (queue : ClientQueue) (stream : WatchStream) : Prop where
  /-- A client that holds its end has lost nothing. -/
  attached : stream.receiver = true → lost watch trace = []
  /-- Nothing is skipped, repeated or reordered while the forwarder runs. -/
  running : stream.forwarder = .running →
    unsent (received watch trace ++ lost watch trace ++ stream.underway) <+:
      unsent ((replay ++ pushes trace).map (·.event))
  /-- While the watch is installed its forwarder is there, and until it stops passing events on
  nothing is missing either. -/
  installed : queue.watcher = some watch → stream.serving = true ∧
    (stream.forwarder = .running →
      unsent (received watch trace ++ lost watch trace ++ stream.underway) =
        unsent ((replay ++ pushes trace).map (·.event)))
  /-- An update that does not fit ends what the stream will ever carry in front of it. -/
  cut : ∀ (earlier later : List Occurrence) (update : Update),
    trace = earlier ++ .overflowed watch update :: later →
      (stream.forwarder = .running →
        unsent (received watch trace ++ lost watch trace ++ stream.underway) =
          unsent ((replay ++ pushes earlier).map (·.event))) ∧
      unsent (received watch trace ++ lost watch trace ++ stream.output.toList) <+:
        unsent ((replay ++ pushes earlier).map (·.event))
  /-- What reached the output is a prefix, whatever became of the forwarder. -/
  delivered : unsent (received watch trace ++ lost watch trace ++ stream.output.toList) <+:
    unsent ((replay ++ pushes trace).map (·.event))

/-- A balanced ledger says what is delivered, when an installed watch is cut off only once. -/
theorem Ledger.delivers {watch : Nat} {replay : List Update} {trace : List Occurrence}
    {queue : ClientQueue} {stream : WatchStream}
    (ledger : Ledger watch replay trace queue stream)
    (once : ∀ (earlier later : List Occurrence) (update : Update),
      trace = earlier ++ .overflowed watch update :: later →
        ∀ other ∈ earlier, other.cuts watch = false) :
    Delivers watch replay trace queue stream := by
  have longer : unsent ((replay ++ admitted watch trace).map (·.event)) <+:
      unsent ((replay ++ pushes trace).map (·.event)) :=
    (((List.prefix_append_right_inj replay).mpr (admitted_prefix_pushes watch trace)).map _).map _
  have balanced := ledger.balanced
  refine ⟨balanced.attached, fun running => ?_, fun watching => ?_, ?_,
    balanced.delivered.trans longer⟩
  · rw [balanced.running running]
    exact longer
  · obtain ⟨serving, uncut⟩ := ledger.installed watching
    refine ⟨serving, fun running => ?_⟩
    rw [balanced.running running, admitted_eq_pushes uncut]
  · intro earlier later update split
    have stays : admitted watch trace = pushes earlier := by
      rw [split, admitted_of_overflow (once earlier later update split)]
    rw [← stays]
    exact ⟨balanced.running, balanced.delivered⟩

/-- A watch is cut off only once: afterwards it is not installed any more. -/
theorem Ledger.uncut_before {watch : Nat} {replay : List Update} {trace : List Occurrence}
    {opened later : ClientQueue} (initial : ∃ stream, Ledger watch replay [] opened stream)
    (schedule : Steps opened trace later) (before after : List Occurrence) (update : Update)
    (split : trace = before ++ .overflowed watch update :: after) :
    ∀ other ∈ before, other.cuts watch = false := by
  subst split
  obtain ⟨middle, first, rest⟩ := schedule.split
  obtain ⟨stream, ledger⟩ := Ledger.steps initial first
  obtain ⟨next, transition, -⟩ := rest.head
  cases transition with
  | overflow update installed full => exact (ledger.installed installed).2

/-- Every accepted watch delivers its replay and what is pushed after it, in that order and
without a gap, under every schedule of its queue: whatever was pushed and watched before it,
and whatever happens to it and to other watches later. Its mailbox takes the whole replay. -/
theorem schedule_delivers {client : String} {windowLength capacity watch : Nat}
    {before trace : List Occurrence} {queue opened later : ClientQueue}
    {floors : List (Location × Version)} {replay : List Update}
    (prior : Steps { client, windowLength } before queue)
    (replayed : queue.replay floors = .ok replay)
    (accepted : queue.watchFrom floors capacity = .ok (watch, opened))
    (schedule : Steps opened trace later) :
    (∃ initial, opened.stream? watch = some initial ∧ initial.mailbox.toList = replay ∧
      replay.length ≤ initial.mailboxCapacity ∧
      (replay.foldl WatchStream.tryPost { initial with mailbox := .empty }).mailbox.toList =
        replay) ∧
    ∃ stream, later.stream? watch = some stream ∧ Delivers watch replay trace later stream := by
  have fresh : queue.Fresh := prior.fresh (fresh_new client windowLength)
  have initial := Ledger.opened fresh replayed accepted
  constructor
  · refine ⟨_, initial.found, Fifo.toList_ofList replay, ?_, ?_⟩
    · simp only [WatchStream.start]
      omega
    · rw [WatchStream.start_eq_posted]
      exact Fifo.toList_ofList replay
  · obtain ⟨stream, ledger⟩ := Ledger.steps ⟨_, initial⟩ schedule
    exact ⟨stream, ledger.found,
      ledger.delivers (Ledger.uncut_before ⟨_, initial⟩ schedule)⟩

/-- The update that adds a node in the first partition of Beijing. -/
private def added (id : String) (version : Version) : Update where
  event := { type := .added, node := .fresh id version ⟨.beijing, .rp1⟩ }
  location := ⟨.beijing, .rp1⟩
  version := version

/-- A queue that retains one update. -/
private def retainingOne : ClientQueue :=
  (({ client := "c", windowLength := 2 } : ClientQueue).push (.bookmark ⟨.beijing, .rp1⟩)).push
    (added "a" 1)

/-- The queue when a watch is to replay that update. -/
private def replayingOne : ClientQueue :=
  { retainingOne with
    watcher := some 1, nextWatch := 2, streams := [.start 1 [added "a" 1] 2 4] }

private theorem steps_retainingOne : Steps { client := "c", windowLength := 2 }
    [.pushed (.bookmark ⟨.beijing, .rp1⟩), .pushed (added "a" 1)] retainingOne :=
  .step (.step .refl (.push _ rfl)) (.push _ rfl)

private theorem replay_retainingOne :
    retainingOne.replay [(⟨.beijing, .rp1⟩, 0)] = .ok [added "a" 1] := by
  decide +kernel

private theorem watchFrom_retainingOne :
    retainingOne.watchFrom [(⟨.beijing, .rp1⟩, 0)] 4 = .ok (1, replayingOne) :=
  (watchFrom_eq_ok replay_retainingOne).mpr ⟨rfl, rfl, rfl⟩

/-- A watch that replays one update, takes it, and is cut off by the third one that follows. -/
theorem schedule_delivers_until_cut :
    ∃ (opened later : ClientQueue) (stream : WatchStream),
      Steps opened [.forwarded 1, .pushed (added "b" 2), .pushed (added "c" 3),
        .overflowed 1 (added "d" 4)] later ∧
      later.stream? 1 = some stream ∧
      Delivers 1 [added "a" 1] [.forwarded 1, .pushed (added "b" 2), .pushed (added "c" 3),
        .overflowed 1 (added "d" 4)] later stream := by
  have taken : Step replayingOne (.forwarded 1) _ := .forward rfl (.take 0 rfl)
  have schedule := (((Steps.refl.step taken).step (.push (added "b" 2) rfl)).step
    (.push (added "c" 3) rfl)).step (.overflow (added "d" 4) rfl rfl)
  obtain ⟨-, stream, found, delivers⟩ :=
    schedule_delivers steps_retainingOne replay_retainingOne watchFrom_retainingOne schedule
  exact ⟨replayingOne, _, stream, schedule, found, delivers⟩

/-- What a client does not receive because it lets go of the receiving end is missing from then
on, while the watch is installed and its forwarder runs. What the forwarder holds when it is told
to stop is missing as soon as it stops, while the watch is still installed. -/
theorem unreceived_event_missing :
    ∃ queue opened, (∃ before, Steps { client := "c", windowLength := 2 } before queue) ∧
      queue.replay [(⟨.beijing, .rp1⟩, 0)] = .ok [added "a" 1] ∧
      queue.watchFrom [(⟨.beijing, .rp1⟩, 0)] 4 = .ok (1, opened) ∧
      (∃ trace later stream, Steps opened trace later ∧ later.watcher = some 1 ∧
        later.stream? 1 = some stream ∧ stream.forwarder = .running ∧
        ¬ unsent (received 1 trace ++ stream.underway) <+:
          unsent (([added "a" 1] ++ pushes trace).map (·.event))) ∧
      ∃ trace later stream, Steps opened trace later ∧ later.watcher = some 1 ∧
        later.stream? 1 = some stream ∧ stream.receiver = true ∧
        unsent (received 1 trace ++ stream.underway) ≠
          unsent (([added "a" 1] ++ pushes trace).map (·.event)) := by
  have taken : Step replayingOne (.forwarded 1) _ := .forward rfl (.take 0 rfl)
  refine ⟨retainingOne, replayingOne, ⟨_, steps_retainingOne⟩, replay_retainingOne,
    watchFrom_retainingOne, ?released, ?stopped⟩
  case released =>
    have delivered := (Steps.refl.step taken).step (@Step.forward _ 1 _ _ rfl (.deliver rfl))
    have schedule := (delivered.step (.push (added "b" 2) rfl)).step (@Step.release _ 1 _ rfl)
    exact ⟨_, _, _, schedule, rfl, rfl, rfl, by decide +kernel⟩
  case stopped =>
    have signalled := ((Steps.refl.step taken).step (.push (added "b" 2) rfl)).step
      (.signal 1 .fired (by decide))
    have schedule := signalled.step (@Step.forward _ 1 _ _ rfl (.quit rfl))
    exact ⟨_, _, _, schedule, rfl, rfl, rfl, by decide +kernel⟩

end ClientQueue

end FleetRing
