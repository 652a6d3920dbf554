import FleetRing.Proofs.Watch.Mailbox

/-!
# Watches that follow one another

A queue feeds one watch at a time, but a watch that was cut off is drained by its forwarder while
the next one is installed already, so several forwarders of one queue may be there at once. They
act on the queue only when they take leave of it, and then each of them takes off its own watch and
no other.

`Numbered` gives the ids of the watches that were ever accepted and ties the installed one to
them. `Standing` is what a watch keeps through every step that is not its own stop, overflow or
lost receiver: it stays installed, so everything pushed enters its mailbox, and the steps of its
own forwarder and client bring it to the end. `succession` collects what follows for every
schedule of a queue.

An update enters at most one mailbox when it is pushed (`Succession.once`). A later watch may replay
the same update into a mailbox of its own, from what is retained; that is a choice of the client,
who passes the versions from which to replay.
-/

namespace FleetRing

namespace WatchStream

/-- A stream whose forwarder has no reason to stop as long as it is fed. -/
structure Steady (stream : WatchStream) : Prop where
  running : stream.forwarder = .running
  armed : stream.stop = .armed
  attached : stream.receiver = true

/-- What is left to do until everything underway is received: take, deliver and receive. -/
def work (stream : WatchStream) : Nat :=
  3 * stream.mailbox.toList.length + 2 * stream.held.toList.length + stream.output.toList.length

variable {stream next : WatchStream}

/-- A steady stream is served. -/
theorem Steady.serving (steady : stream.Steady) : stream.serving = true :=
  serving_of_running steady.running

/-- The forwarder of a steady stream that is fed takes or delivers one more event, and stays. -/
theorem Steady.forwards (steady : stream.Steady) (moved : stream.Forwards true next) :
    next.Steady ∧ next.outputCapacity = stream.outputCapacity ∧ next.work < stream.work := by
  cases moved with
  | take now taken =>
    obtain ⟨-, free, update, mailbox, front, rfl⟩ := take?_eq_some taken
    refine ⟨⟨steady.running, steady.armed, steady.attached⟩, rfl, ?_⟩
    simp only [work, free, front, List.length_cons, Option.toList_some, Option.toList_none,
      List.length_nil]
    omega
  | deliver delivered =>
    obtain ⟨-, event, held, ⟨-, -, rfl⟩ | ⟨detached, -⟩⟩ := deliver?_eq_some delivered
    · refine ⟨⟨steady.running, steady.armed, steady.attached⟩, rfl, ?_⟩
      simp only [work, held, Fifo.toList_push, List.length_append, List.length_cons,
        Option.toList_some, Option.toList_none, List.length_nil]
      omega
    · exact absurd (detached.symm.trans steady.attached) (by decide)
  | quit stopped => simp [quit?, steady.armed] at stopped
  | finish drained => simp [finish?] at drained
  | leave left => simp [leave?, steady.running] at left

/-- Its client receives one more event. -/
theorem Steady.receive (steady : stream.Steady) {event : NodeEvent}
    (given : stream.receive? = some (event, next)) :
    next.Steady ∧ next.outputCapacity = stream.outputCapacity ∧ next.work < stream.work := by
  obtain ⟨output, front, rfl⟩ := receive?_eq_some given
  refine ⟨⟨steady.running, steady.armed, steady.attached⟩, rfl, ?_⟩
  simp only [work, front, List.length_cons]
  omega

/-- As long as something is underway, the client or the forwarder can move it on. -/
theorem Steady.progress (steady : stream.Steady) (capacity : 0 < stream.outputCapacity)
    (underway : stream.underway ≠ []) :
    (∃ event next, stream.receive? = some (event, next)) ∨
      ∃ next, stream.Forwards true next := by
  cases waiting : stream.output.pop? with
  | some popped =>
    obtain ⟨event, output⟩ := popped
    exact .inl ⟨event, { stream with output := output }, by simp only [receive?, waiting]⟩
  | none =>
    have empty : stream.output.toList = [] := Fifo.pop?_eq_none.mp waiting
    cases held : stream.held with
    | some event =>
      have room : stream.output.size < stream.outputCapacity := by
        simpa [Fifo.size_eq_length, empty] using capacity
      exact .inr ⟨_, .deliver (by
        simp only [deliver?, steady.running, steady.attached, held, room, if_true]
        rfl)⟩
    | none =>
      cases taken : stream.mailbox.pop? with
      | some popped =>
        obtain ⟨update, mailbox⟩ := popped
        refine .inr ⟨{ stream with
          mailbox := mailbox
          held := some (update.event.stamp .distributorSending 0) }, .take 0 ?_⟩
        simp only [take?, steady.running, held, taken, and_self, if_true]
      | none =>
        have unfed := Fifo.pop?_eq_none.mp taken
        simp [WatchStream.underway, empty, held, unfed] at underway

end WatchStream

namespace ClientQueue

variable {queue next start : ClientQueue} {watch capacity : Nat} {occurrence : Occurrence}
  {stream : WatchStream} {trace : List Occurrence}

namespace Occurrence

/-- Does an occurrence end a watch: an update that its mailbox has no room for, its stop handle,
or its lost receiver? -/
def ends (watch : Nat) : Occurrence → Bool
  | overflowed other _ | signalled other _ | released other _ => other == watch
  | pushed _ | opened _ _ | refused _ | forwarded _ | received _ _ => false

/-- Does an occurrence move the events of a watch on: a step of its forwarder or its client? -/
def attends (watch : Nat) : Occurrence → Bool
  | forwarded other | received other _ => other == watch
  | pushed _ | overflowed _ _ | opened _ _ | refused _ | signalled _ _ | released _ _ => false

/-- The watch that an occurrence opens. -/
def opened? : Occurrence → Option Nat
  | opened watch _ => some watch
  | pushed _ | overflowed _ _ | refused _ | forwarded _ | received _ _ | signalled _ _
  | released _ _ => none

/-- Moving events on ends nothing, and pushes nothing. -/
theorem ends_of_attends (attends : occurrence.attends watch = true) :
    occurrence.ends watch = false ∧ occurrence.update? = none := by
  cases occurrence with
  | forwarded other | received other event => exact ⟨rfl, rfl⟩
  | pushed update | overflowed other update | opened other replay | refused error
  | signalled other signal | released other lost => cases attends

end Occurrence

/-- The watches that were accepted, in order. -/
def openings (trace : List Occurrence) : List Nat :=
  trace.filterMap Occurrence.opened?

theorem openings_concat : openings (trace ++ [occurrence]) =
    openings trace ++ occurrence.opened?.toList := by
  rw [openings, List.filterMap_append]
  cases given : occurrence.opened? <;> simp [openings, given]

/-- Only the receiver that is let go loses events. -/
theorem lost_of_spared (spared : ∀ other ∈ trace, other.ends watch = false) :
    lost watch trace = [] := by
  refine List.flatMap_eq_nil_iff.mpr fun other member => ?_
  cases other with
  | released released lost =>
    have different : ¬ released = watch := by
      simpa [Occurrence.ends] using spared _ member
    simp [Occurrence.lostOf, different]
  | pushed update | overflowed cut update | opened opened replay | refused error
  | forwarded moved | received receiver event | signalled signalled signal => rfl

/-- A queue after the watches `opened` were accepted. -/
structure Numbered (opened : List Nat) (queue : ClientQueue) : Prop where
  ids : opened = List.range' 1 opened.length
  nextWatch : queue.nextWatch = opened.length + 1
  /-- The installed watch is the last one, and its forwarder is there. -/
  installed : ∀ watch, queue.watcher = some watch →
    opened.getLast? = some watch ∧ queue.isServed watch = true

theorem numbered_new (client : String) (windowLength : Nat) :
    Numbered [] { client, windowLength } :=
  ⟨rfl, rfl, fun _ installed => nomatch installed⟩

/-- A watch whose stream is there is served as that stream is. -/
theorem isServed_of_stream? (found : queue.stream? watch = some stream) :
    queue.isServed watch = stream.serving := by
  simp only [isServed, found]

/-- Only streams decide whether a watch is served. -/
theorem isServed_congr (same : next.stream? watch = queue.stream? watch) :
    next.isServed watch = queue.isServed watch := by
  simp only [isServed, same]

/-- A change of a stream that keeps its forwarder keeps every watch served. -/
theorem isServed_of_changed {changed : Nat} {change : WatchStream → WatchStream}
    (streams : ∀ other, next.stream? other =
      if other = changed then (queue.stream? changed).map change else queue.stream? other)
    (served : ∀ stream : WatchStream, queue.stream? changed = some stream →
      (change stream).serving = stream.serving) (watch : Nat) :
    next.isServed watch = queue.isServed watch := by
  simp only [isServed, streams]
  by_cases here : watch = changed
  · subst here
    cases found : queue.stream? watch with
    | none => simp
    | some stream => simp [served stream found]
  · simp [here]

/-- A step that accepts no watch and installs none keeps the ids. -/
theorem Numbered.quiet {opened : List Nat} (numbered : Numbered opened queue)
    (nextWatch : next.nextWatch = queue.nextWatch)
    (installed : ∀ watch, next.watcher = some watch →
      queue.watcher = some watch ∧ (queue.isServed watch = true → next.isServed watch = true)) :
    Numbered opened next where
  ids := numbered.ids
  nextWatch := nextWatch.trans numbered.nextWatch
  installed watch watching := by
    obtain ⟨before, served⟩ := installed watch watching
    obtain ⟨last, serving⟩ := numbered.installed watch before
    exact ⟨last, served serving⟩

/-- Every step keeps the ids, and a watch that it accepts gets the next one. -/
theorem Numbered.step {opened : List Nat} (numbered : Numbered opened queue)
    (fresh : queue.Fresh) (transition : Step queue occurrence next) :
    Numbered (opened ++ occurrence.opened?.toList) next := by
  cases transition with
  | push update room =>
    simp only [Occurrence.opened?, Option.toList_none, List.append_nil]
    refine numbered.quiet (nextWatch_push update) fun watch watching => ?_
    rw [watcher_push_of_room room] at watching
    refine ⟨watching, fun served => ?_⟩
    simp only [isServed, stream?_push_of_room room, watching, if_true] at served ⊢
    cases found : queue.stream? watch with
    | none => simp [found] at served
    | some stream => simpa [found] using served
  | overflow update installed full =>
    simp only [Occurrence.opened?, Option.toList_none, List.append_nil]
    rw [push_of_full full]
    exact numbered.quiet rfl fun _ watching => by cases watching
  | watch replayed accepted =>
    have added := stream?_of_accepted fresh replayed accepted
    obtain ⟨-, rfl, rfl⟩ := (watchFrom_eq_ok replayed).mp accepted
    refine ⟨?_, by simp [Occurrence.opened?, numbered.nextWatch], fun watch watching => ?_⟩
    · simp only [Occurrence.opened?, Option.toList_some, List.length_append, List.length_singleton]
      rw [List.range'_1_concat, ← numbered.ids, numbered.nextWatch, Nat.add_comm]
    · obtain rfl := Option.some.inj watching
      have found := added queue.nextWatch
      rw [if_pos rfl] at found
      exact ⟨by simp [Occurrence.opened?], isServed_of_stream? found⟩
  | refuse refused =>
    obtain ⟨-, rfl⟩ := watching_refused.mp refused
    simpa [Occurrence.opened?] using numbered
  | @forward watch stream after found moved =>
    simp only [Occurrence.opened?, Option.toList_none, List.append_nil]
    have stored := stream?_putStream found (moved.id_eq.trans (id_of_stream? found))
    refine numbered.quiet (nextWatch_putStream after) fun other watching => ?_
    rw [watcher_putStream] at watching
    split at watching
    · cases watching
    · next stays =>
      refine ⟨watching, fun served => ?_⟩
      by_cases here : other = watch
      · subst here
        simpa [isServed, stored, watching] using stays
      · have untouched := stored other
        rw [if_neg here] at untouched
        rwa [isServed_congr untouched]
  | @receive watch event _ received =>
    simp only [Occurrence.opened?, Option.toList_none, List.append_nil]
    obtain ⟨stream, after, found, given, rfl⟩ := receive?_eq_some received
    have streams := stream?_map_of_stored found (stream?_of_receive? found given)
    have serving : after.serving = stream.serving := by
      obtain ⟨output, -, rfl⟩ := WatchStream.receive?_eq_some given
      rfl
    refine numbered.quiet rfl fun other watching => ⟨watching, fun served => ?_⟩
    rwa [isServed_of_changed streams fun before same =>
      Option.some.inj (found.symm.trans same) ▸ serving]
  | signal watch signal spent =>
    simp only [Occurrence.opened?, Option.toList_none, List.append_nil]
    refine numbered.quiet (nextWatch_withStream _) fun other watching => ?_
    refine ⟨(watcher_withStream _).symm.trans watching, fun served => ?_⟩
    rwa [isServed_of_changed (stream?_signal queue watch signal) fun _ _ => rfl]
  | @release watch stream found =>
    simp only [Occurrence.opened?, Option.toList_none, List.append_nil]
    refine numbered.quiet (nextWatch_withStream _) fun other watching => ?_
    refine ⟨(watcher_withStream _).symm.trans watching, fun served => ?_⟩
    rwa [isServed_of_changed (stream?_dropReceiver queue watch) fun _ _ => rfl]

/-- So does every schedule. -/
theorem Numbered.steps {opened : List Nat} (numbered : Numbered opened start)
    (fresh : start.Fresh) (schedule : Steps start trace queue) :
    Numbered (opened ++ openings trace) queue := by
  induction schedule with
  | refl => simpa [openings] using numbered
  | step prior transition ih =>
    rw [openings_concat, ← List.append_assoc]
    exact ih.step (prior.fresh fresh) transition

/-- A watch that is installed and whose forwarder has no reason to leave it. -/
structure Standing (watch capacity : Nat) (queue : ClientQueue) (stream : WatchStream) : Prop where
  installed : queue.watcher = some watch
  found : queue.stream? watch = some stream
  steady : stream.Steady
  capacity : stream.outputCapacity = capacity

namespace Standing

/-- A watch that was just accepted. -/
theorem opened {floors : List (Location × Version)} {replay : List Update} (fresh : queue.Fresh)
    (replayed : queue.replay floors = .ok replay)
    (accepted : queue.watchFrom floors capacity = .ok (watch, next)) :
    Standing watch capacity next (.start watch replay queue.windowLength capacity) := by
  have added := stream?_of_accepted fresh replayed accepted watch
  obtain ⟨-, rfl, rfl⟩ := (watchFrom_eq_ok replayed).mp accepted
  exact ⟨rfl, by simpa using added, ⟨rfl, rfl, rfl⟩, rfl⟩

/-- While it stands, no other watch is accepted. -/
theorem watching (standing : Standing watch capacity queue stream) :
    queue.isWatching = true := by
  simp only [isWatching, standing.installed, isServed_of_stream? standing.found,
    standing.steady.serving]

/-- A change of another stream that leaves the watch installed. -/
theorem apart (standing : Standing watch capacity queue stream)
    (watcher : next.watcher = queue.watcher)
    (streams : next.stream? watch = queue.stream? watch) :
    Standing watch capacity next stream :=
  ⟨watcher.trans standing.installed, streams.trans standing.found, standing.steady,
    standing.capacity⟩

/-- Every step but its own stop, overflow and lost receiver keeps a watch standing, whatever other
forwarders do. The steps of its own forwarder and client leave less to do. -/
theorem step (standing : Standing watch capacity queue stream)
    (transition : Step queue occurrence next) (spared : occurrence.ends watch = false) :
    ∃ moved, Standing watch capacity next moved ∧
      (occurrence.attends watch = true → moved.work < stream.work) := by
  cases transition with
  | push update room =>
    refine ⟨stream.post update, ⟨?_, ?_, ?_, standing.capacity⟩, fun attends => nomatch attends⟩
    · rw [watcher_push_of_room room, standing.installed]
    · simp [stream?_push_of_room room, standing.found, standing.installed]
    · exact ⟨standing.steady.running, standing.steady.armed, standing.steady.attached⟩
  | overflow update installed full =>
    obtain rfl := Option.some.inj (installed.symm.trans standing.installed)
    simp [Occurrence.ends] at spared
  | watch replayed accepted =>
    obtain ⟨idle, -, -⟩ := (watchFrom_eq_ok replayed).mp accepted
    exact absurd (idle.symm.trans standing.watching) (by decide)
  | refuse refused =>
    obtain ⟨-, rfl⟩ := watching_refused.mp refused
    exact ⟨stream, standing, fun attends => nomatch attends⟩
  | @forward other before after found moved =>
    have stored := stream?_putStream found (moved.id_eq.trans (id_of_stream? found)) watch
    by_cases here : watch = other
    · -- Its own forwarder takes or delivers, since the mailbox is still fed.
      subst here
      obtain rfl := Option.some.inj (standing.found.symm.trans found)
      rw [show (queue.watcher == some watch) = true by simp [standing.installed]] at moved
      obtain ⟨steady, capacity, less⟩ := standing.steady.forwards moved
      refine ⟨after, ⟨?_, by simpa using stored, steady, capacity.trans standing.capacity⟩,
        fun _ => less⟩
      simp [watcher_putStream, steady.serving, standing.installed]
    · -- Another forwarder takes off its own watch at most, and that is not installed.
      rw [if_neg here] at stored
      have different : ¬ other = watch := fun same => here same.symm
      refine ⟨stream, standing.apart ?_ stored, by simp [Occurrence.attends, different]⟩
      simp [watcher_putStream, standing.installed, here]
  | @receive other event _ received =>
    obtain ⟨before, after, found, given, rfl⟩ := receive?_eq_some received
    have stored := stream?_of_receive? found given watch
    by_cases here : watch = other
    · subst here
      obtain rfl := Option.some.inj (standing.found.symm.trans found)
      obtain ⟨steady, capacity, less⟩ := standing.steady.receive given
      exact ⟨after, ⟨standing.installed, by simpa using stored, steady,
        capacity.trans standing.capacity⟩, fun _ => less⟩
    · rw [if_neg here] at stored
      have different : ¬ other = watch := fun same => here same.symm
      exact ⟨stream, standing.apart rfl stored, by simp [Occurrence.attends, different]⟩
  | signal other signal spent =>
    have different : ¬ other = watch := by simpa [Occurrence.ends] using spared
    have stored := stream?_signal queue other signal watch
    rw [if_neg fun same => different same.symm] at stored
    exact ⟨stream, standing.apart (watcher_withStream _) stored, fun attends => nomatch attends⟩
  | @release other before found =>
    have different : ¬ other = watch := by simpa [Occurrence.ends] using spared
    have stored := stream?_dropReceiver queue other watch
    rw [if_neg fun same => different same.symm] at stored
    exact ⟨stream, standing.apart (watcher_withStream _) stored, fun attends => nomatch attends⟩

/-- A watch stands through every schedule that does not end it. -/
theorem steps (standing : Standing watch capacity start stream)
    (schedule : Steps start trace queue) (spared : ∀ other ∈ trace, other.ends watch = false) :
    ∃ moved, Standing watch capacity queue moved := by
  induction schedule with
  | refl => exact ⟨stream, standing⟩
  | step prior transition ih =>
    simp only [List.forall_mem_append, List.forall_mem_singleton] at spared
    obtain ⟨moved, stands⟩ := ih spared.1
    obtain ⟨final, still, -⟩ := stands.step transition spared.2
    exact ⟨final, still⟩

/-- Its forwarder and its client make no more steps than there is work left. -/
theorem bounded (standing : Standing watch capacity start stream)
    (schedule : Steps start trace queue) (attended : ∀ other ∈ trace, other.attends watch = true) :
    ∃ moved, Standing watch capacity queue moved ∧ trace.length + moved.work ≤ stream.work := by
  induction schedule with
  | refl => exact ⟨stream, standing, by simp⟩
  | step prior transition ih =>
    simp only [List.forall_mem_append, List.forall_mem_singleton] at attended
    obtain ⟨moved, stands, done⟩ := ih attended.1
    obtain ⟨final, still, less⟩ :=
      stands.step transition (Occurrence.ends_of_attends attended.2).1
    refine ⟨final, still, ?_⟩
    have decreased := less attended.2
    simp only [List.length_append, List.length_singleton]
    omega

/-- As long as something is underway, one of them can make a step. -/
theorem progress (standing : Standing watch capacity queue stream) (room : 0 < capacity)
    (underway : stream.underway ≠ []) :
    ∃ occurrence next, Step queue occurrence next ∧ occurrence.attends watch = true := by
  obtain ⟨event, moved, given⟩ | ⟨moved, forwards⟩ :=
    standing.steady.progress (standing.capacity.symm ▸ room) underway
  · have received : queue.receive? watch = some (event, queue.setStream watch moved) := by
      simp only [receive?, standing.found, given]
    exact ⟨.received watch event, _, .receive received, by simp [Occurrence.attends]⟩
  · have fed : stream.Forwards (queue.watcher == some watch) moved := by
      simpa [standing.installed] using forwards
    exact ⟨.forwarded watch, _, .forward standing.found fed, by simp [Occurrence.attends]⟩

/-- So they can bring everything that is underway to the client. -/
theorem drains (standing : Standing watch capacity queue stream) (room : 0 < capacity) :
    ∃ more final moved, Steps queue more final ∧ (∀ other ∈ more, other.attends watch = true) ∧
      Standing watch capacity final moved ∧ moved.underway = [] := by
  -- Every step leaves less work, and with something underway there is a next one.
  induction left : stream.work using Nat.strong_induction_on generalizing queue stream with
  | _ amount ih =>
    by_cases done : stream.underway = []
    · exact ⟨[], queue, stream, .refl, by simp, standing, done⟩
    · obtain ⟨occurrence, next, transition, attends⟩ := standing.progress room done
      obtain ⟨moved, stands, less⟩ :=
        standing.step transition (Occurrence.ends_of_attends attends).1
      obtain ⟨more, final, last, schedule, attended, still, empty⟩ :=
        ih moved.work (left ▸ less attends) stands rfl
      refine ⟨[occurrence] ++ more, final, last, (Steps.refl.step transition).trans schedule, ?_,
        still, empty⟩
      simpa [attends] using attended

end Standing

open WatchStream (unsent)

/-- A watch that replays `replay`, after a schedule that did not end it. -/
structure Endures (watch : Nat) (replay : List Update) (trace : List Occurrence)
    (queue : ClientQueue) (stream : WatchStream) : Prop where
  installed : queue.watcher = some watch
  served : queue.isServed watch = true
  /-- What was pushed since it was accepted was received, or is on its way. -/
  carries : unsent (received watch trace ++ stream.underway) =
    unsent ((replay ++ pushes trace).map (·.event))

/-- A watch that is accepted endures every schedule that does not end it. -/
theorem endures {floors : List (Location × Version)} {replay : List Update} {opened : ClientQueue}
    (fresh : queue.Fresh) (replayed : queue.replay floors = .ok replay)
    (accepted : queue.watchFrom floors capacity = .ok (watch, opened))
    (schedule : Steps opened trace next) (spared : ∀ other ∈ trace, other.ends watch = false) :
    ∃ stream, Standing watch capacity next stream ∧ Endures watch replay trace next stream := by
  obtain ⟨stream, standing⟩ := (Standing.opened fresh replayed accepted).steps schedule spared
  have initial : ∃ stream, Ledger watch replay [] opened stream :=
    ⟨_, Ledger.opened fresh replayed accepted⟩
  obtain ⟨same, ledger⟩ := Ledger.steps initial schedule
  obtain rfl := Option.some.inj (standing.found.symm.trans ledger.found)
  have delivers := ledger.delivers (Ledger.uncut_before initial schedule)
  refine ⟨stream, standing, standing.installed, ?_, ?_⟩
  · rw [isServed_of_stream? standing.found, standing.steady.serving]
  · have whole := (delivers.installed standing.installed).2 standing.steady.running
    simpa [lost_of_spared spared] using whole

/-- The errors of a window concern what it retains. -/
theorem since_ne_alreadyWatching (window : Window Update) (version : Version) (client : String) :
    window.since version ≠ .error (.alreadyWatching client) := by
  intro refused
  simp only [Window.since, Window.indexSince, Window.from?] at refused
  grind

/-- A replay is refused by a window, or because there is none. -/
theorem replay_ne_alreadyWatching (queue : ClientQueue) (floors : List (Location × Version))
    (client : String) : queue.replay floors ≠ .error (.alreadyWatching client) := by
  induction floors with
  | nil => simp [replay]
  | cons floor floors ih =>
    obtain ⟨location, version⟩ := floor
    simp only [replay]
    split
    · simp
    · next window held =>
      split
      · next error refused =>
        exact fun same => since_ne_alreadyWatching window version client (same ▸ refused)
      · split
        · next error refused => exact fun same => ih (same ▸ refused)
        · simp

/-- A watch is refused for another one if and only if that one is installed and served. -/
theorem refused_iff (floors : List (Location × Version)) (capacity : Nat) (name : String) :
    queue.watchFrom floors capacity = .error (.alreadyWatching name) ↔
      name = queue.client ∧
        ∃ watch stream, queue.watcher = some watch ∧ queue.stream? watch = some stream ∧
          stream.serving = true := by
  rw [← isWatching_iff, watchFrom]
  split
  · next watching => simp [watching, eq_comm]
  · next idle =>
    have other := queue.replay_ne_alreadyWatching floors name
    split
    · next error refused => simpa [idle, refused] using other
    · simp [idle]

/-- How the watches of a queue followed one another, and what the next one can rely on. -/
structure Succession (before : List Occurrence) (queue : ClientQueue) : Prop where
  /-- No id is given twice. -/
  numbered : openings before = List.range' 1 (openings before).length
  distinct : (openings before).Nodup
  /-- The installed watch is the last one that was accepted, and its forwarder is there. -/
  installed : ∀ watch, queue.watcher = some watch →
    (openings before).getLast? = some watch ∧ queue.isServed watch = true
  /-- A watch is refused for another one exactly as long as the forwarder of that one runs. -/
  refused : ∀ floors capacity name,
    queue.watchFrom floors capacity = .error (.alreadyWatching name) ↔
      name = queue.client ∧
        ∃ watch stream, queue.watcher = some watch ∧ queue.stream? watch = some stream ∧
          stream.serving = true
  /-- An update enters the mailbox of the installed watch if that has room, and no other one. -/
  entered : ∀ update, queue.entered (queue.push update) =
    if queue.hasRoom then queue.watcher.toList.map fun watch => (watch, update) else []
  /-- No update enters two mailboxes by being pushed. A watch that is accepted later and replays it
  has a mailbox of its own, which it enters then. -/
  once : ∀ update, (queue.entered (queue.push update)).length ≤ 1
  /-- A watch that is accepted, whatever became of the ones before it, has a new id and receives
  everything that is pushed until its own stop, overflow or lost receiver: it stays installed
  whatever other forwarders do, and the steps of its own forwarder and client, which are always
  possible and not more than there is work, bring it all to the client. -/
  lasting : ∀ {floors capacity watch opened trace later} {replay : List Update},
    queue.replay floors = .ok replay →
    queue.watchFrom floors capacity = .ok (watch, opened) →
    Steps opened trace later → (∀ other ∈ trace, other.ends watch = false) →
      watch ∉ openings before ∧
      ∃ stream, later.stream? watch = some stream ∧ Endures watch replay trace later stream ∧
        (∀ {more final}, Steps later more final →
          (∀ other ∈ more, other.attends watch = true) → more.length ≤ stream.work) ∧
        (0 < capacity → ∃ more final, Steps later more final ∧
          (∀ other ∈ more, other.attends watch = true) ∧ final.watcher = some watch ∧
          unsent (received watch (trace ++ more)) =
            unsent ((replay ++ pushes trace).map (·.event)))

/-- An update that is pushed enters at most the mailbox of the installed watch. -/
theorem entered_push_eq (fresh : queue.Fresh) (update : Update) :
    queue.entered (queue.push update) =
      if queue.hasRoom then queue.watcher.toList.map fun watch => (watch, update) else [] := by
  split
  · next room => exact entered_push fresh room
  · next full =>
    rw [push_of_full (by simpa using full)]
    exact entered_self queue

/-- Under every schedule of a queue, one watch follows the other under ids of their own, an update
enters at most one mailbox, a watch is refused for the installed one as long as that is served, and
an accepted one stays until something of its own ends it. -/
theorem succession {client : String} {windowLength : Nat} {before : List Occurrence}
    {queue : ClientQueue} (prior : Steps { client, windowLength } before queue) :
    Succession before queue := by
  have fresh : queue.Fresh := prior.fresh (fresh_new client windowLength)
  have numbered : Numbered (openings before) queue := by
    simpa using (numbered_new client windowLength).steps (fresh_new client windowLength) prior
  refine {
    numbered := numbered.ids
    distinct := numbered.ids ▸ List.nodup_range'
    installed := numbered.installed
    refused := refused_iff
    entered := entered_push_eq fresh
    once := fun update => ?_
    lasting := ?_ }
  · rw [entered_push_eq fresh]
    split
    · cases queue.watcher <;> simp
    · simp
  · intro floors capacity watch opened trace later replay replayed accepted schedule spared
    obtain ⟨stream, standing, lasts⟩ := endures fresh replayed accepted schedule spared
    obtain ⟨-, given, -⟩ := (watchFrom_eq_ok replayed).mp accepted
    refine ⟨fun member => ?_, stream, standing.found, lasts, ?_, fun room => ?_⟩
    · rw [numbered.ids, List.mem_range'_1] at member
      have next := numbered.nextWatch
      omega
    · intro more final rest attended
      obtain ⟨moved, -, done⟩ := standing.bounded rest attended
      omega
    · obtain ⟨more, final, moved, rest, attended, still, empty⟩ := standing.drains room
      have spares : ∀ other ∈ trace ++ more, other.ends watch = false :=
        List.forall_mem_append.mpr ⟨spared, fun other member =>
          (Occurrence.ends_of_attends (attended other member)).1⟩
      have unpushed : pushes more = [] :=
        List.filterMap_eq_nil_iff.mpr fun other member =>
          (Occurrence.ends_of_attends (attended other member)).2
      obtain ⟨same, stands, drained⟩ :=
        endures fresh replayed accepted (schedule.trans rest) spares
      obtain rfl := Option.some.inj (stands.found.symm.trans still.found)
      refine ⟨more, final, rest, attended, still.installed, ?_⟩
      simpa [empty, unpushed] using drained.carries

/-- The update that adds a node in the second partition of Beijing. -/
private def entering (id : String) (version : Version) : Update where
  event := { type := .added, node := .fresh id version ⟨.beijing, .rp2⟩ }
  location := ⟨.beijing, .rp2⟩
  version := version

/-- The first watch is cut off and still drained when the second one is accepted. Its forwarder
finishes and takes leave later, and what is pushed then enters the mailbox of the second watch. -/
theorem succession_after_overflow :
    ∃ (before trace : List Occurrence) (queue opened later : ClientQueue) (stream : WatchStream),
      Steps { client := "c", windowLength := 1 } before queue ∧ Succession before queue ∧
      .overflowed 1 (entering "b" 2) ∈ before ∧ openings before = [1] ∧
      queue.isServed 1 = true ∧
      trace = [.forwarded 1, .forwarded 1, .forwarded 1, .forwarded 1,
        .pushed (entering "c" 3)] ∧
      Steps opened trace later ∧ later.isServed 1 = false ∧
      later.stream? 2 = some stream ∧ Endures 2 [] trace later stream ∧
      later.waiting 2 = [entering "c" 3] := by
  let empty : ClientQueue := { client := "c", windowLength := 1 }
  let filled := empty.push (entering "a" 1)
  let first : ClientQueue := { filled with
    watcher := some 1, nextWatch := 2, streams := [.start 1 [] 1 4] }
  have nothing : filled.replay [(⟨.beijing, .rp2⟩, 1)] = .ok [] := by decide +kernel
  have start : filled.watchFrom [(⟨.beijing, .rp2⟩, 1)] 4 = .ok (1, first) :=
    (watchFrom_eq_ok nothing).mpr ⟨rfl, rfl, rfl⟩
  let fed := first.push (entering "a" 2)
  let cut := fed.push (entering "b" 2)
  have prior : Steps empty [.pushed (entering "a" 1), .opened 1 [], .pushed (entering "a" 2),
      .overflowed 1 (entering "b" 2)] cut :=
    .step (.step (.step (.step .refl (.push _ rfl)) (.watch nothing start))
      (.push _ rfl)) (.overflow _ rfl rfl)
  let second : ClientQueue := { cut with
    watcher := some 2, nextWatch := 3, streams := cut.streams ++ [.start 2 [] 1 4] }
  have replayed : cut.replay [(⟨.beijing, .rp2⟩, 2)] = .ok [] := by decide +kernel
  have accepted : cut.watchFrom [(⟨.beijing, .rp2⟩, 2)] 4 = .ok (2, second) :=
    (watchFrom_eq_ok replayed).mpr ⟨rfl, rfl, rfl⟩
  have taken : Step second (.forwarded 1) _ := .forward rfl (.take 0 rfl)
  have schedule := ((((Steps.refl.step taken).step
    (show Step _ (.forwarded 1) _ from .forward rfl (.deliver rfl))).step
    (show Step _ (.forwarded 1) _ from .forward rfl (.finish rfl))).step
    (show Step _ (.forwarded 1) _ from .forward rfl (.leave rfl))).step
    (.push (entering "c" 3) rfl)
  obtain ⟨-, stream, found, lasts, -⟩ :=
    (succession prior).lasting replayed accepted schedule (by simp [Occurrence.ends])
  exact ⟨_, _, cut, second, _, stream, prior, succession prior, by simp, rfl, rfl, rfl, schedule,
    rfl, found, lasts, rfl⟩

end ClientQueue

end FleetRing
