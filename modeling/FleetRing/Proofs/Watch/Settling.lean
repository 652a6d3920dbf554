import FleetRing.Proofs.Watch.Succession
import Mathlib.Data.List.Nodup

/-!
# Letting forwarders run

`settle` lets a forwarder run until it has to wait. That is one schedule among all those that are
possible (`exists_steps_settle`), so whatever holds of every schedule holds of it. What a standing
watch carries is neither lost nor multiplied on the way (`Carries`), and a client that receives
until nothing comes any more, with forwarders running in between in any order, receives exactly as
many events as its watch carries (`Carries.length_of_drains`). `receiveAll` is one way to receive
like that (`Standing.drains_receiveAll`).
-/

namespace FleetRing

namespace WatchStream

variable {stream next : WatchStream} {fed : Bool} {now : Time}

/-- The step that a forwarder chooses is open to it. -/
theorem forwards_of_advance? (chosen : stream.advance? fed now = some next) :
    stream.Forwards fed next := by
  unfold advance? at chosen
  split at chosen
  · next left => exact .leave (left.trans chosen)
  · split at chosen
    · next stopped => exact .quit (stopped.trans chosen)
    · split at chosen
      · next delivered => exact .deliver (delivered.trans chosen)
      · split at chosen
        · next taken => exact .take now (taken.trans chosen)
        · exact .finish chosen

/-- A forwarder that is gone chooses nothing. -/
theorem advance?_of_gone (gone : stream.serving = false) : stream.advance? fed now = none := by
  have left : stream.forwarder = .gone := by simpa [WatchStream.serving] using gone
  simp [advance?, leave?, quit?, deliver?, take?, finish?, left]

/-- The steps that a forwarder has yet to make. -/
def load (stream : WatchStream) : Nat :=
  2 * stream.mailbox.toList.length + stream.held.toList.length

/-- A stream whose events were moved on: it is steady, and has as many of them as before. -/
structure Onward (stream next : WatchStream) : Prop where
  id : next.id = stream.id
  steady : next.Steady
  outputCapacity : next.outputCapacity = stream.outputCapacity
  mailboxCapacity : next.mailboxCapacity = stream.mailboxCapacity
  underway : next.underway.length = stream.underway.length

theorem Onward.trans {middle : WatchStream} (first : stream.Onward middle)
    (second : middle.Onward next) : stream.Onward next where
  id := second.id.trans first.id
  steady := second.steady
  outputCapacity := second.outputCapacity.trans first.outputCapacity
  mailboxCapacity := second.mailboxCapacity.trans first.mailboxCapacity
  underway := second.underway.trans first.underway

/-- A forwarder that is fed moves events on, and loses none. -/
theorem Steady.onward (steady : stream.Steady) (moved : stream.Forwards true next) :
    stream.Onward next ∧ next.load < stream.load := by
  obtain ⟨still, capacity, -⟩ := steady.forwards moved
  have underway : next.underway.length = stream.underway.length := by
    obtain ⟨-, rfl | ⟨-, -, -, -, same⟩⟩ | ⟨-, rfl⟩ := moved.cases
    · cases still.running
    · simpa using congrArg List.length same
    · cases still.running
  have moved_id := moved.id_eq
  cases moved with
  | take now taken =>
    obtain ⟨-, free, update, mailbox, front, rfl⟩ := take?_eq_some taken
    refine ⟨⟨moved_id, still, capacity, rfl, underway⟩, ?_⟩
    simp only [load, free, front, List.length_cons, Option.toList_some, Option.toList_none,
      List.length_nil]
    omega
  | deliver delivered =>
    obtain ⟨-, event, held, ⟨-, -, rfl⟩ | ⟨-, rfl⟩⟩ := deliver?_eq_some delivered
    · refine ⟨⟨moved_id, still, capacity, rfl, underway⟩, ?_⟩
      simp [load, held]
    · cases still.running
  | quit stopped =>
    obtain ⟨-, rfl⟩ := quit?_eq_some stopped
    cases still.running
  | finish drained =>
    obtain ⟨-, rfl⟩ := finish?_eq_some drained
    cases still.running
  | leave left =>
    obtain ⟨-, rfl⟩ := leave?_eq_some left
    cases still.running

/-- With enough steps to make, a forwarder that is fed comes to where it has to wait. -/
theorem Steady.advanceAtMost (steady : stream.Steady) {fuel : Nat} (enough : stream.load < fuel) :
    stream.Onward (advanceAtMost true now fuel stream) ∧
      (advanceAtMost true now fuel stream).advance? true now = none := by
  induction fuel generalizing stream with
  | zero => cases enough
  | succ fuel ih =>
    simp only [WatchStream.advanceAtMost]
    split
    · next moved chosen =>
      obtain ⟨onward, less⟩ := steady.onward (forwards_of_advance? chosen)
      obtain ⟨rest, stuck⟩ := ih onward.steady (by omega)
      exact ⟨onward.trans rest, stuck⟩
    · next stuck => exact ⟨⟨rfl, steady, rfl, rfl, rfl⟩, stuck⟩

/-- So it does when it settles. -/
theorem Steady.settle (steady : stream.Steady) (now : Time) :
    stream.Onward (stream.settle true now) ∧ (stream.settle true now).advance? true now = none := by
  refine steady.advanceAtMost ?_
  have held : stream.held.toList.length ≤ 1 := by cases stream.held <;> simp
  rw [load, Fifo.size_eq_length]
  omega

/-- A forwarder that has to wait while the output is empty has delivered everything. -/
theorem Steady.underway_eq_nil (steady : stream.Steady) (room : 0 < stream.outputCapacity)
    (stuck : stream.advance? true now = none) (empty : stream.output.toList = []) :
    stream.underway = [] := by
  have size : stream.output.size = 0 := by rw [Fifo.size_eq_length, empty, List.length_nil]
  have held : stream.held = none := by
    cases held : stream.held with
    | none => rfl
    | some event =>
      simp [advance?, leave?, quit?, deliver?, steady.running, steady.armed, steady.attached, held,
        size, room] at stuck
  have taken : stream.mailbox.pop? = none := by
    cases waiting : stream.mailbox.pop? with
    | none => rfl
    | some popped =>
      simp [advance?, leave?, quit?, deliver?, take?, steady.running, steady.armed, held,
        waiting] at stuck
  simp [underway, empty, held, Fifo.pop?_eq_none.mp taken]

end WatchStream

namespace ClientQueue

variable {start queue next : ClientQueue} {watch other capacity limit count : Nat} {now : Time}
  {stream : WatchStream} {occurrence : Occurrence} {trace : List Occurrence}

/-- The ids of the streams of a queue. -/
def ids (queue : ClientQueue) : List Nat :=
  queue.streams.map (·.id)

theorem ids_setStream (same : stream.id = watch) :
    (queue.setStream watch stream).ids = queue.ids := by
  simp only [ids, setStream, List.map_map]
  refine List.map_congr_left fun other _ => ?_
  simp only [Function.comp_apply]
  split
  · next here => exact same.trans here.symm
  · rfl

theorem ids_putStream (same : stream.id = watch) :
    (queue.putStream watch stream).ids = queue.ids := by
  have stored : (queue.setStream watch stream).ids = queue.ids := ids_setStream same
  simp only [putStream]
  split <;> exact stored

theorem ids_withStream (change : WatchStream → WatchStream)
    (same : ∀ stream : WatchStream, (change stream).id = stream.id) :
    (queue.withStream watch change).ids = queue.ids := by
  simp only [withStream]
  split
  · next stream found => exact ids_setStream ((same stream).trans (id_of_stream? found))
  · rfl

theorem ids_push (update : Update) : (queue.push update).ids = queue.ids := by
  have kept : (queue.retain update).ids = queue.ids := rfl
  simp only [push, offer]
  split
  · exact kept
  · split
    · next stream found =>
      split
      · have posted : stream.id = _ := id_of_stream? found
        exact (ids_setStream (show (stream.post update).id = _ from posted)).trans kept
      · exact kept
    · exact kept

/-- A step adds the stream of the watch that it accepts. -/
theorem Step.ids_eq (transition : Step queue occurrence next) :
    next.ids = queue.ids ++ occurrence.opened?.toList := by
  cases transition with
  | push update room => simpa [Occurrence.opened?] using ids_push update
  | overflow update installed full => simpa [Occurrence.opened?] using ids_push update
  | watch replayed accepted =>
    obtain ⟨-, rfl, rfl⟩ := (watchFrom_eq_ok replayed).mp accepted
    simp [ids, Occurrence.opened?, WatchStream.start]
  | refuse refused =>
    obtain ⟨-, rfl⟩ := watching_refused.mp refused
    simp [Occurrence.opened?]
  | forward found moved =>
    simpa [Occurrence.opened?] using ids_putStream (moved.id_eq.trans (id_of_stream? found))
  | receive received =>
    obtain ⟨stream, moved, found, given, rfl⟩ := receive?_eq_some received
    have same : moved.id = stream.id := by
      obtain ⟨output, -, rfl⟩ := WatchStream.receive?_eq_some given
      rfl
    simpa [Occurrence.opened?] using ids_setStream (same.trans (id_of_stream? found))
  | signal watch signal spent =>
    exact (ids_withStream (·.signal signal) fun _ => rfl).trans (List.append_nil _).symm
  | release found =>
    exact (ids_withStream (·.dropReceiver) fun _ => rfl).trans (List.append_nil _).symm

/-- So a schedule adds those of all watches that it accepts. -/
theorem Steps.ids_eq (schedule : Steps start trace queue) :
    queue.ids = start.ids ++ openings trace := by
  induction schedule with
  | refl => simp [openings]
  | step prior transition ih =>
    rw [transition.ids_eq, ih, openings_concat, List.append_assoc]

/-- Under every schedule of a queue, streams have different ids. -/
theorem Steps.nodup_ids {client : String} {windowLength : Nat}
    (schedule : Steps { client, windowLength } trace queue) : queue.ids.Nodup := by
  rw [schedule.ids_eq]
  exact (succession schedule).distinct

/-- Where ids differ, a stream that is replaced by itself stays. -/
theorem setStream_self (distinct : queue.ids.Nodup) (found : queue.stream? watch = some stream) :
    queue.setStream watch stream = queue := by
  have same : (queue.streams.map fun other => if other.id = watch then stream else other) =
      queue.streams := by
    refine (List.map_congr_left fun other member => ?_).trans (List.map_id _)
    split
    · next here =>
      exact List.inj_on_of_nodup_map distinct (List.mem_of_find?_eq_some found) member
        ((id_of_stream? found).trans here.symm)
    · rfl
  simp only [setStream, same]

/-- Storing a stream twice is storing it once. -/
theorem putStream_putStream {moved : WatchStream} (serving : stream.serving = true)
    (same : stream.id = watch) :
    (queue.putStream watch stream).putStream watch moved = queue.putStream watch moved := by
  have streams : (queue.setStream watch stream).setStream watch moved =
      queue.setStream watch moved := by
    simp only [setStream, List.map_map]
    congr 1
    refine List.map_congr_left fun other _ => ?_
    by_cases here : other.id = watch <;> simp [here, same]
  have once : queue.putStream watch stream = queue.setStream watch stream := by
    simp [putStream, serving]
  rw [once, putStream, putStream, streams]

/-- A forwarder that makes a number of steps follows a schedule. -/
theorem exists_steps_advanceAtMost (now : Time) (fuel : Nat) (distinct : queue.ids.Nodup)
    (found : queue.stream? watch = some stream) (serving : stream.serving = true) :
    ∃ trace, Steps queue trace (queue.putStream watch
        (stream.advanceAtMost (queue.watcher == some watch) now fuel)) ∧
      ∀ other ∈ trace, other = .forwarded watch := by
  have stays : queue.putStream watch stream = queue := by
    simpa [putStream, serving] using setStream_self distinct found
  induction fuel generalizing queue stream with
  | zero => exact ⟨[], by simpa only [WatchStream.advanceAtMost, stays] using Steps.refl, by simp⟩
  | succ fuel ih =>
    simp only [WatchStream.advanceAtMost]
    split
    · next moved chosen =>
      have forwards := WatchStream.forwards_of_advance? chosen
      have same : moved.id = watch := forwards.id_eq.trans (id_of_stream? found)
      have first : Step queue (.forwarded watch) (queue.putStream watch moved) :=
        .forward found forwards
      cases onward : moved.serving with
      | false =>
        -- The forwarder left, so that was its last step.
        have last : moved.advanceAtMost (queue.watcher == some watch) now fuel = moved := by
          cases fuel with
          | zero => rfl
          | succ fuel => simp only [WatchStream.advanceAtMost, WatchStream.advance?_of_gone onward]
        rw [last]
        exact ⟨[.forwarded watch], Steps.refl.step first, by simp⟩
      | true =>
        have there : (queue.putStream watch moved).stream? watch = some moved := by
          rw [stream?_putStream found same, if_pos rfl]
        have watcher : (queue.putStream watch moved).watcher = queue.watcher := by
          simp [watcher_putStream, onward]
        have nodup : (queue.putStream watch moved).ids.Nodup := by rwa [ids_putStream same]
        obtain ⟨trace, rest, forwarded⟩ := ih nodup there onward
          (putStream_putStream onward same)
        rw [watcher, putStream_putStream onward same] at rest
        refine ⟨[.forwarded watch] ++ trace, (Steps.refl.step first).trans rest, ?_⟩
        simpa using forwarded
    · exact ⟨[], by simpa only [stays] using Steps.refl, by simp⟩

/-- So does one that settles. -/
theorem exists_steps_settleStream (now : Time) (watch : Nat) (distinct : queue.ids.Nodup) :
    ∃ trace, Steps queue trace (queue.settleStream now watch) ∧
      ∀ other ∈ trace, other = .forwarded watch := by
  simp only [settleStream]
  split
  · exact ⟨[], .refl, by simp⟩
  · next stream found =>
    split
    · next serving => exact exists_steps_advanceAtMost now _ distinct found serving
    · exact ⟨[], .refl, by simp⟩

/-- Its streams keep their ids. -/
theorem ids_settleStream (queue : ClientQueue) (now : Time) (watch : Nat)
    (distinct : queue.ids.Nodup) :
    (queue.settleStream now watch).ids = queue.ids := by
  obtain ⟨trace, schedule, forwarded⟩ := queue.exists_steps_settleStream now watch distinct
  have opened : openings trace = [] := List.filterMap_eq_nil_iff.mpr fun other member => by
    rw [forwarded other member]
    rfl
  rw [schedule.ids_eq, opened, List.append_nil]

/-- All forwarders of a queue settle one after the other. -/
theorem exists_steps_settle (now : Time) (distinct : queue.ids.Nodup) :
    ∃ trace, Steps queue trace (queue.settle now) ∧
      ∀ other ∈ trace, ∃ watch, other = .forwarded watch := by
  have each : ∀ (watches : List Nat) (queue : ClientQueue), queue.ids.Nodup →
      ∃ trace, Steps queue trace
          (watches.foldl (fun queue watch => queue.settleStream now watch) queue) ∧
        ∀ other ∈ trace, ∃ watch, other = .forwarded watch := by
    intro watches
    induction watches with
    | nil => exact fun queue _ => ⟨[], .refl, by simp⟩
    | cons watch watches ih =>
      intro queue distinct
      obtain ⟨first, schedule, forwarded⟩ := queue.exists_steps_settleStream now watch distinct
      obtain ⟨rest, further, also⟩ :=
        ih _ ((queue.ids_settleStream now watch distinct).symm ▸ distinct)
      refine ⟨first ++ rest, schedule.trans further, fun other member => ?_⟩
      rcases List.mem_append.mp member with earlier | later
      · exact ⟨watch, forwarded other earlier⟩
      · exact also other later
  simp only [settle]
  split
  · exact each _ queue distinct
  · exact ⟨[], .refl, by simp⟩

/-- A watch stands, has some number of events underway, and a mailbox for at least `limit`. -/
def Carries (queue : ClientQueue) (watch capacity limit count : Nat) : Prop :=
  ∃ stream, Standing watch capacity queue stream ∧ stream.underway.length = count ∧
    limit ≤ stream.mailboxCapacity

/-- What a forwarder of the queue does loses nothing of a standing watch. -/
theorem Standing.forwarded (standing : Standing watch capacity queue stream)
    (transition : Step queue (.forwarded other) next) :
    ∃ moved, Standing watch capacity next moved ∧
      moved.underway.length = stream.underway.length ∧
      moved.mailboxCapacity = stream.mailboxCapacity := by
  cases transition with
  | @forward _ before after found moved =>
    have stored := stream?_putStream found (moved.id_eq.trans (id_of_stream? found)) watch
    by_cases here : watch = other
    · subst here
      obtain rfl := Option.some.inj (standing.found.symm.trans found)
      rw [show (queue.watcher == some watch) = true by simp [standing.installed]] at moved
      obtain ⟨onward, -⟩ := standing.steady.onward moved
      refine ⟨after, ⟨?_, by simpa using stored, onward.steady,
        onward.outputCapacity.trans standing.capacity⟩, onward.underway, onward.mailboxCapacity⟩
      simp [watcher_putStream, onward.steady.serving, standing.installed]
    · rw [if_neg here] at stored
      refine ⟨stream, standing.apart ?_ stored, rfl, rfl⟩
      simp [watcher_putStream, standing.installed, here]

namespace Carries

/-- A client whose watch stands cannot start another one. -/
theorem isWatching (carries : queue.Carries watch capacity limit count) :
    queue.isWatching = true := by
  obtain ⟨stream, standing, -⟩ := carries
  simp [ClientQueue.isWatching, standing.installed, isServed, standing.found,
    standing.steady.serving]

/-- An update that is pushed is carried, as long as there is room. -/
theorem push (carries : queue.Carries watch capacity limit count) (room : count < limit)
    (update : Update) : (queue.push update).Carries watch capacity limit (count + 1) := by
  obtain ⟨stream, standing, rfl, enough⟩ := carries
  have waiting : stream.mailbox.size ≤ stream.underway.length := by
    simp only [WatchStream.underway, List.length_append, List.length_map, Fifo.size_eq_length]
    omega
  have fits : queue.hasRoom = true := by
    simp only [hasRoom, standing.installed, standing.found, Option.any_some, WatchStream.hasRoom,
      standing.steady.serving, Bool.true_and, decide_eq_true_eq]
    omega
  have found := standing.found
  have steady := standing.steady
  refine ⟨stream.post update, ⟨?_, ?_, ⟨steady.running, steady.armed, steady.attached⟩,
    standing.capacity⟩, ?_, enough⟩
  · rw [watcher_push_of_room fits, standing.installed]
  · simp [stream?_push_of_room fits, found, standing.installed]
  · simp only [WatchStream.underway, WatchStream.post, Fifo.toList_push, List.length_append,
      List.length_map, List.length_singleton]
    omega

/-- What a forwarder of the queue does loses nothing of it. -/
theorem forwarded (carries : queue.Carries watch capacity limit count)
    (transition : Step queue (.forwarded other) next) :
    next.Carries watch capacity limit count := by
  obtain ⟨stream, standing, same, enough⟩ := carries
  obtain ⟨moved, stands, kept, size⟩ := standing.forwarded transition
  exact ⟨moved, stands, kept.trans same, size.symm ▸ enough⟩

end Carries

/-- Does an occurrence pass events on to the client of a watch: a step of some forwarder, or a
receipt of that watch? -/
def Occurrence.passes (watch : Nat) : Occurrence → Bool
  | forwarded _ => true
  | received other _ => other == watch
  | pushed _ | overflowed _ _ | opened _ _ | refused _ | signalled _ _ | released _ _ => false

/-- What a client may receive of a watch until nothing comes any more, while forwarders make steps
in any order: in the end, the output is empty and the forwarder of the watch has to wait. -/
def Drains (queue : ClientQueue) (watch : Nat) (events : List NodeEvent) : Prop :=
  ∃ trace final stream, Steps queue trace final ∧
    (∀ other ∈ trace, other.passes watch = true) ∧ received watch trace = events ∧
    final.stream? watch = some stream ∧ stream.output.toList = [] ∧
    ∀ next, ¬ stream.Forwards (final.watcher == some watch) next

/-- Events that are passed on first are received first. -/
theorem Drains.prepend {events : List NodeEvent} (drains : next.Drains watch events)
    (schedule : Steps queue trace next) (passes : ∀ other ∈ trace, other.passes watch = true) :
    queue.Drains watch (received watch trace ++ events) := by
  obtain ⟨rest, final, stream, further, also, rfl, found, empty, waits⟩ := drains
  exact ⟨trace ++ rest, final, stream, schedule.trans further,
    List.forall_mem_append.mpr ⟨passes, also⟩, received_append trace rest, found, empty, waits⟩

/-- So is an event that the client receives first. -/
theorem Drains.receive {event : NodeEvent} {events : List NodeEvent}
    (drains : next.Drains watch events) (given : queue.receive? watch = some (event, next)) :
    queue.Drains watch (event :: events) := by
  have whole := drains.prepend (Steps.refl.step (.receive given)) (by simp [Occurrence.passes])
  simpa [received, Occurrence.receivedOf?] using whole

theorem ids_of_receive? {event : NodeEvent} (given : queue.receive? watch = some (event, next)) :
    next.ids = queue.ids := by
  simpa [Occurrence.opened?] using (Step.receive given).ids_eq

/-- A forwarder that settles gives its client nothing yet. -/
theorem Drains.settleStream {events : List NodeEvent} (distinct : queue.ids.Nodup)
    (drains : (queue.settleStream now watch).Drains watch events) : queue.Drains watch events := by
  obtain ⟨trace, schedule, forwarded⟩ := queue.exists_steps_settleStream now watch distinct
  have silent : received watch trace = [] := List.filterMap_eq_nil_iff.mpr fun other member => by
    rw [forwarded other member]
    rfl
  have whole := drains.prepend schedule fun other member => by
    rw [forwarded other member]
    rfl
  rwa [silent, List.nil_append] at whole

namespace Standing

/-- The forwarder of a standing watch settles, and the watch stands. -/
theorem settleStream (standing : Standing watch capacity queue stream) (now : Time) :
    Standing watch capacity (queue.settleStream now watch) (stream.settle true now) := by
  obtain ⟨onward, -⟩ := standing.steady.settle now
  have same := onward.id.trans (id_of_stream? standing.found)
  simp only [ClientQueue.settleStream, standing.found, standing.steady.serving, if_true,
    standing.installed, beq_self_eq_true]
  refine ⟨?_, ?_, onward.steady, onward.outputCapacity.trans standing.capacity⟩
  · simp [watcher_putStream, onward.steady.serving, standing.installed]
  · rw [stream?_putStream standing.found same, if_pos rfl]

/-- One event fewer is underway once it is received. -/
theorem receive (standing : Standing watch capacity queue stream) {event : NodeEvent}
    (given : queue.receive? watch = some (event, next)) :
    ∃ moved, Standing watch capacity next moved ∧
      moved.underway.length + 1 = stream.underway.length := by
  obtain ⟨before, moved, found, taken, rfl⟩ := receive?_eq_some given
  obtain rfl := Option.some.inj (standing.found.symm.trans found)
  obtain ⟨steady, kept, -⟩ := standing.steady.receive taken
  have stored := stream?_of_receive? found taken watch
  refine ⟨moved, ⟨standing.installed, by simpa using stored, steady,
    kept.trans standing.capacity⟩, ?_⟩
  obtain ⟨output, front, rfl⟩ := WatchStream.receive?_eq_some taken
  simp only [WatchStream.underway, front, List.length_append, List.length_cons]
  omega

/-- Where nothing is received, the output is empty. -/
theorem output_eq_nil (standing : Standing watch capacity queue stream)
    (nothing : queue.receive? watch = none) : stream.output.toList = [] := by
  simp only [receive?, standing.found, WatchStream.receive?] at nothing
  cases waiting : stream.output.pop? with
  | none => exact Fifo.pop?_eq_none.mp waiting
  | some popped => simp [waiting] at nothing

/-- With nothing underway, its forwarder has to wait. -/
theorem waits (standing : Standing watch capacity queue stream) (settled : stream.underway = [])
    (next : WatchStream) : ¬ stream.Forwards (queue.watcher == some watch) next := by
  intro moved
  rw [show (queue.watcher == some watch) = true by simp [standing.installed]] at moved
  obtain ⟨-, -, less⟩ := standing.steady.forwards moved
  obtain ⟨empty, free, unfed⟩ : stream.output.toList = [] ∧ stream.held = none ∧
      stream.mailbox.toList = [] := by
    simpa [WatchStream.underway] using settled
  simp [WatchStream.work, empty, free, unfed] at less

/-- Whatever passes events on to its client moves them, and loses none. -/
theorem passes (standing : Standing watch capacity queue stream)
    (transition : Step queue occurrence next) (passes : occurrence.passes watch = true) :
    ∃ moved, Standing watch capacity next moved ∧
      (occurrence.receivedOf? watch).toList.length + moved.underway.length =
        stream.underway.length := by
  cases occurrence with
  | forwarded other =>
    obtain ⟨moved, stands, kept, -⟩ := standing.forwarded transition
    exact ⟨moved, stands, by simpa [Occurrence.receivedOf?] using kept⟩
  | received other event =>
    obtain rfl : other = watch := by simpa [Occurrence.passes] using passes
    cases transition with
    | receive given =>
      obtain ⟨moved, stands, fewer⟩ := standing.receive given
      refine ⟨moved, stands, ?_⟩
      simpa [Occurrence.receivedOf?, Nat.add_comm] using fewer
  | pushed | overflowed | opened | refused | signalled | released => cases passes

/-- So does every schedule of that kind. -/
theorem passesAll (standing : Standing watch capacity start stream)
    (schedule : Steps start trace queue) (passes : ∀ other ∈ trace, other.passes watch = true) :
    ∃ moved, Standing watch capacity queue moved ∧
      (ClientQueue.received watch trace).length + moved.underway.length =
        stream.underway.length := by
  induction schedule with
  | refl => exact ⟨stream, standing, by simp [ClientQueue.received]⟩
  | step prior transition ih =>
    obtain ⟨earlier, last⟩ := List.forall_mem_append.mp passes
    obtain ⟨middle, stands, so_far⟩ := ih earlier
    obtain ⟨moved, still, kept⟩ := stands.passes transition (last _ List.mem_cons_self)
    refine ⟨moved, still, ?_⟩
    rw [received_concat, List.length_append]
    omega

/-- A client that receives until nothing comes receives all that is underway. -/
theorem length_of_drains (standing : Standing watch capacity queue stream) (room : 0 < capacity)
    {events : List NodeEvent} (drains : queue.Drains watch events) :
    events.length = stream.underway.length := by
  obtain ⟨trace, final, last, schedule, passes, rfl, found, empty, waits⟩ := drains
  obtain ⟨moved, stands, kept⟩ := standing.passesAll schedule passes
  obtain rfl := Option.some.inj (stands.found.symm.trans found)
  have settled : moved.underway = [] := by
    by_contra underway
    obtain ⟨event, next, given⟩ | ⟨next, forwards⟩ :=
      stands.steady.progress (stands.capacity.symm ▸ room) underway
    · obtain ⟨output, front, -⟩ := WatchStream.receive?_eq_some given
      rw [empty] at front
      cases front
    · exact waits next (by simpa [stands.installed] using forwards)
  rw [← kept, settled, List.length_nil, Nat.add_zero]

/-- To receive whenever something is there, and to let the forwarder settle otherwise, is one way
to receive until nothing comes. -/
theorem drains_receiveAtMost (standing : Standing watch capacity queue stream)
    (distinct : queue.ids.Nodup) (room : 0 < capacity) (now : Time) {limit : Nat}
    (enough : stream.underway.length ≤ limit) (received : List NodeEvent) :
    ∃ events, (receiveAtMost now watch limit queue received).1 = received.reverse ++ events ∧
      queue.Drains watch events := by
  induction limit generalizing queue stream received with
  | zero =>
    have settled : stream.underway = [] := List.length_eq_zero_iff.mp (Nat.le_zero.mp enough)
    have empty : stream.output.toList = [] := by
      simp only [WatchStream.underway, List.append_eq_nil_iff] at settled
      exact settled.1.1
    exact ⟨[], by simp [receiveAtMost], [], queue, stream, .refl, by simp, rfl, standing.found,
      empty, standing.waits settled⟩
  | succ limit ih =>
    simp only [receiveAtMost]
    split
    · next event later given =>
      obtain ⟨moved, stands, fewer⟩ := standing.receive given
      obtain ⟨events, whole, drains⟩ :=
        ih stands (ids_of_receive? given ▸ distinct) (by omega) (event :: received)
      exact ⟨event :: events, by simpa using whole, drains.receive given⟩
    · have stands := standing.settleStream now
      have apart := (queue.ids_settleStream now watch distinct).symm ▸ distinct
      obtain ⟨onward, stuck⟩ := standing.steady.settle now
      have kept := onward.underway
      split
      · next event later given =>
        obtain ⟨moved, still, fewer⟩ := stands.receive given
        obtain ⟨events, whole, drains⟩ :=
          ih still (ids_of_receive? given ▸ apart) (by omega) (event :: received)
        exact ⟨event :: events, by simpa using whole,
          (drains.receive given).settleStream distinct⟩
      · next nothing =>
        have empty := stands.output_eq_nil nothing
        have settled := stands.steady.underway_eq_nil (stands.capacity.symm ▸ room) stuck empty
        have drains : (queue.settleStream now watch).Drains watch [] :=
          ⟨[], _, _, .refl, by simp, rfl, stands.found, empty, stands.waits settled⟩
        exact ⟨[], by simp, drains.settleStream distinct⟩

/-- In particular, to receive all that comes. -/
theorem drains_receiveAll (standing : Standing watch capacity queue stream)
    (distinct : queue.ids.Nodup) (room : 0 < capacity) (now : Time) :
    queue.Drains watch (queue.receiveAll now watch).1 := by
  have enough : stream.underway.length ≤ queue.backlog watch + 1 := by
    have held : stream.held.toList.length ≤ 1 := by cases stream.held <;> simp
    simp only [backlog, standing.found, WatchStream.underway, List.length_append, List.length_map,
      Fifo.size_eq_length]
    omega
  obtain ⟨events, same, drains⟩ := standing.drains_receiveAtMost distinct room now enough []
  rwa [receiveAll, same]

end Standing

/-- A client that receives until nothing comes receives what its watch carries. -/
theorem Carries.length_of_drains (carries : queue.Carries watch capacity limit count)
    (room : 0 < capacity) {events : List NodeEvent} (drains : queue.Drains watch events) :
    events.length = count := by
  obtain ⟨stream, standing, rfl, -⟩ := carries
  exact standing.length_of_drains room drains

end ClientQueue

end FleetRing
