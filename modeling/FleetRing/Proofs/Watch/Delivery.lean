import FleetRing.Proofs.Watch.Frame

/-!
# What a watch delivers

`Ledger` compares one accepted watch with everything that was pushed since. Its
central part, `Balanced`, says that what was received, what was lost and what is
on its way is what the stream was fed, apart from the stamp of the forwarder;
every step of every schedule preserves it, so nothing is skipped, repeated or
reordered. A stream whose forwarder stopped passing events on only promises a
prefix: what it held is gone, and nobody takes from its mailbox.
-/

namespace FleetRing

namespace WatchStream

/-- Events as they were before the forwarder stamped them. -/
abbrev unsent (events : List NodeEvent) : List NodeEvent :=
  events.map (·.unsent)

/-- What a stream still carries, against what it was fed and what left it. -/
structure Balanced (fed : List Update) (received lost : List NodeEvent) (stream : WatchStream) :
    Prop where
  /-- A client that holds its end has lost nothing. -/
  attached : stream.receiver = true → lost = []
  detached : stream.receiver = false → stream.output.toList = []
  delivered : unsent (received ++ lost ++ stream.output.toList) <+: unsent (fed.map (·.event))
  running : stream.forwarder = .running →
    unsent (received ++ lost ++ stream.underway) = unsent (fed.map (·.event))

namespace Balanced

variable {fed : List Update} {received lost : List NodeEvent} {stream next : WatchStream}

/-- A new stream carries what it replays. -/
theorem start (id : Nat) (replay : List Update) (retention capacity : Nat) :
    (WatchStream.start id replay retention capacity).Balanced replay [] [] where
  attached _ := rfl
  detached gone := nomatch gone
  delivered := by simp [WatchStream.start]
  running _ := by simp [WatchStream.start, underway]

/-- As long as everything is accounted for, what reached the output is a prefix of it. -/
theorem delivered_of_running
    (running : unsent (received ++ lost ++ stream.underway) = unsent (fed.map (·.event))) :
    unsent (received ++ lost ++ stream.output.toList) <+: unsent (fed.map (·.event)) := by
  rw [← running]
  refine List.IsPrefix.map _ ?_
  simp only [underway, List.append_assoc]
  exact ⟨stream.held.toList ++ stream.mailbox.toList.map (·.event), by simp⟩

/-- A stream that is fed more has delivered a prefix of that, too. -/
theorem extend (balanced : stream.Balanced fed received lost)
    (stopped : stream.forwarder ≠ .running) {more : List Update} (longer : fed <+: more) :
    stream.Balanced more received lost where
  attached := balanced.attached
  detached := balanced.detached
  delivered := balanced.delivered.trans ((longer.map _).map _)
  running running := absurd running stopped

/-- An update that is posted is fed, whether or not the forwarder will take it. -/
theorem post (balanced : stream.Balanced fed received lost) (update : Update) :
    (stream.post update).Balanced (fed ++ [update]) received lost where
  attached := balanced.attached
  detached := balanced.detached
  delivered := balanced.delivered.trans (((List.prefix_append fed [update]).map _).map _)
  running running := by
    have whole := balanced.running running
    simp only [unsent, underway, WatchStream.post, Fifo.toList_push, List.map_append,
      ← List.append_assoc] at whole ⊢
    rw [whole]

/-- A forwarder moves events on and loses nothing that reached the output. -/
theorem forwards (balanced : stream.Balanced fed received lost) {open_ : Bool}
    (moved : stream.Forwards open_ next) : next.Balanced fed received lost := by
  obtain ⟨running, rfl | ⟨-, -, receiver, kept, same⟩⟩ | ⟨-, rfl⟩ := moved.cases
  · exact ⟨balanced.attached, balanced.detached, balanced.delivered, fun runs => nomatch runs⟩
  · have whole : unsent (received ++ lost ++ next.underway) = unsent (fed.map (·.event)) := by
      have before := balanced.running running
      simp only [unsent, List.map_append] at before ⊢
      rw [same, before]
    refine ⟨fun held => balanced.attached (receiver ▸ held), fun gone => ?_,
      delivered_of_running whole, fun _ => whole⟩
    rw [receiver] at gone
    rw [kept gone, balanced.detached gone]
  · exact ⟨balanced.attached, balanced.detached, balanced.delivered, fun runs => nomatch runs⟩

/-- An event that the client receives leaves the output. -/
theorem receive (balanced : stream.Balanced fed received lost) {event : NodeEvent}
    (given : stream.receive? = some (event, next)) :
    next.Balanced fed (received ++ [event]) lost := by
  obtain ⟨output, front, rfl⟩ := receive?_eq_some given
  -- Something waits in the output, so the client holds its end and has lost nothing.
  have held : stream.receiver = true := by
    cases receiver : stream.receiver with
    | true => rfl
    | false => simp [balanced.detached receiver] at front
  obtain rfl := balanced.attached held
  refine ⟨fun _ => rfl, fun gone => absurd (gone.symm.trans held) (by decide), ?_,
    fun running => ?_⟩
  · simpa [front] using balanced.delivered
  · simpa [front, underway] using balanced.running running

/-- What waits in the output is lost with the receiving end. -/
theorem dropReceiver (balanced : stream.Balanced fed received lost) :
    stream.dropReceiver.Balanced fed received (lost ++ stream.output.toList) where
  attached held := nomatch held
  detached _ := rfl
  delivered := by simpa [WatchStream.dropReceiver] using balanced.delivered
  running running := by
    have whole := balanced.running running
    simpa [WatchStream.dropReceiver, underway] using whole

/-- What the stop handle does concerns no event. -/
theorem signal (balanced : stream.Balanced fed received lost) (signal : StopSignal) :
    (stream.signal signal).Balanced fed received lost :=
  ⟨balanced.attached, balanced.detached, balanced.delivered, balanced.running⟩

end Balanced

/-- Put an update into the mailbox if it fits, and let it fall otherwise. -/
def tryPost (stream : WatchStream) (update : Update) : WatchStream :=
  if stream.hasRoom then stream.post update else stream

/-- The mailbox of a new stream holds the whole replay, as if it had been posted one update at
a time: none of them finds the mailbox full. -/
theorem start_eq_posted (id : Nat) (replay : List Update) (retention capacity : Nat) :
    (replay.foldl tryPost
      { start id replay retention capacity with mailbox := .empty }).mailbox.toList =
      (start id replay retention capacity).mailbox.toList := by
  have posted : ∀ (rest : List Update) (stream : WatchStream), stream.serving = true →
      stream.mailbox.size + rest.length ≤ stream.mailboxCapacity →
      (rest.foldl tryPost stream).mailbox.toList = stream.mailbox.toList ++ rest := by
    intro rest
    induction rest with
    | nil => simp
    | cons update rest ih =>
      intro stream serving fits
      simp only [List.length_cons] at fits
      have room : stream.hasRoom = true := by
        simp only [hasRoom, serving, Bool.true_and, decide_eq_true_eq]
        omega
      rw [List.foldl_cons, tryPost, if_pos room, ih (stream.post update) serving]
      · simp [post]
      · simp only [post, Fifo.push]
        omega
  rw [posted replay _ rfl]
  · simp [start]
  · simp only [start, Fifo.empty]
    omega

end WatchStream

end FleetRing
