import FleetRing.Proofs.Watch.Ledger

/-!
# What enters mailboxes

Updates enter the mailbox of a watch at one end, and its forwarder takes them at the other. So what
entered between two states is what waits now behind what waited then (`entered`). In one step,
that is the replay of a watch that is accepted, or an update that is pushed while there is room
in the mailbox of the installed watch, and nothing otherwise (`Step.entered_eq`).
-/

namespace FleetRing

/-- A forwarder puts nothing into the mailbox. -/
theorem WatchStream.Forwards.length_mailbox_le {stream next : WatchStream} {fed : Bool}
    (moved : stream.Forwards fed next) :
    next.mailbox.toList.length ≤ stream.mailbox.toList.length := by
  cases moved with
  | take now taken =>
    obtain ⟨-, -, update, mailbox, front, rfl⟩ := take?_eq_some taken
    simp [front]
  | deliver delivered =>
    obtain ⟨-, event, -, ⟨-, -, rfl⟩ | ⟨-, rfl⟩⟩ := deliver?_eq_some delivered
    · exact Nat.le_refl _
    · exact Nat.le_refl _
  | quit stopped =>
    obtain ⟨-, rfl⟩ := quit?_eq_some stopped
    exact Nat.le_refl _
  | finish drained =>
    obtain ⟨-, rfl⟩ := finish?_eq_some drained
    exact Nat.le_refl _
  | leave left =>
    obtain ⟨-, rfl⟩ := leave?_eq_some left
    exact Nat.zero_le _

namespace ClientQueue

variable {queue next before after : ClientQueue} {watch : Nat} {occurrence : Occurrence}

/-- What waits in the mailbox of a watch. -/
def waiting (queue : ClientQueue) (watch : Nat) : List Update :=
  ((queue.stream? watch).map (·.mailbox.toList)).getD []

/-- What entered mailboxes between two states of a queue: what waits there now, behind what waited
there before. -/
def entered (before after : ClientQueue) : List (Nat × Update) :=
  (List.range after.nextWatch).flatMap fun watch =>
    ((after.waiting watch).drop (before.waiting watch).length).map fun update => (watch, update)

/-- Nothing entered when no mailbox grew. -/
theorem entered_nil
    (shrunk : ∀ watch, (after.waiting watch).length ≤ (before.waiting watch).length) :
    before.entered after = [] :=
  List.flatMap_eq_nil_iff.mpr fun watch _ => by simp [shrunk watch]

/-- Nothing enters a queue that stays as it is. -/
theorem entered_self (queue : ClientQueue) : queue.entered queue = [] :=
  entered_nil fun _ => Nat.le_refl _

/-- Nothing enters when a change of one stream lets its mailbox not grow. -/
theorem entered_of_changed {change : WatchStream → WatchStream}
    (streams : ∀ other, after.stream? other =
      if other = watch then (before.stream? watch).map change else before.stream? other)
    (shrunk : ∀ stream, before.stream? watch = some stream →
      (change stream).mailbox.toList.length ≤ stream.mailbox.toList.length) :
    before.entered after = [] := by
  refine entered_nil fun other => ?_
  rw [waiting, streams]
  split
  · next same =>
    subst same
    cases found : before.stream? other with
    | none => exact Nat.zero_le _
    | some stream => simpa [waiting, found] using shrunk stream found
  · exact Nat.le_refl _

/-- If one mailbox grows, what it grows by entered. -/
theorem entered_of_grown {added : List Update} (known : watch < after.nextWatch)
    (grown : ∀ other, after.waiting other =
      if other = watch then before.waiting other ++ added else before.waiting other) :
    before.entered after = added.map fun update => (watch, update) := by
  obtain ⟨lower, higher, split⟩ := List.append_of_mem (List.mem_range.mpr known)
  have once : (lower ++ watch :: higher).Nodup := split ▸ List.nodup_range
  have others : ∀ other, other ≠ watch →
      ((after.waiting other).drop (before.waiting other).length).map
        (fun update => (other, update)) = [] := by
    intro other different
    simp [grown, different]
  obtain ⟨-, rest, apart⟩ := List.nodup_append.mp once
  have first : ∀ other ∈ lower, other ≠ watch := fun other member =>
    apart other member watch List.mem_cons_self
  have last : ∀ other ∈ higher, other ≠ watch := fun other member same =>
    (List.nodup_cons.mp rest).1 (same ▸ member)
  rw [entered, split, List.flatMap_append, List.flatMap_cons,
    List.flatMap_eq_nil_iff.mpr fun other member => others other (first other member),
    List.flatMap_eq_nil_iff.mpr fun other member => others other (last other member)]
  simp [grown]

/-- What a watch replays enters its mailbox. -/
theorem entered_watch {floors : List (Location × Version)} {capacity : Nat} {replay : List Update}
    (fresh : queue.Fresh) (replayed : queue.replay floors = .ok replay)
    (accepted : queue.watchFrom floors capacity = .ok (watch, next)) :
    queue.entered next = replay.map fun update => (watch, update) := by
  have added := stream?_of_accepted fresh replayed accepted
  obtain ⟨-, rfl, rfl⟩ := (watchFrom_eq_ok replayed).mp accepted
  refine entered_of_grown (Nat.lt_succ_self _) fun other => ?_
  simp only [waiting, added other]
  split
  · next same =>
    rw [fresh other (Nat.le_of_eq same.symm)]
    simp [WatchStream.start]
  · rfl

/-- An update that is pushed enters the mailbox of the installed watch, when that has room. -/
theorem entered_push (fresh : queue.Fresh) {update : Update} (room : queue.hasRoom = true) :
    queue.entered (queue.push update) = queue.watcher.toList.map fun watch => (watch, update) := by
  have streams : ∀ other, (queue.push update).stream? other = _ := fun _ =>
    stream?_push_of_room room
  cases installed : queue.watcher with
  | none =>
    refine entered_nil fun other => ?_
    simp [waiting, streams, installed]
  | some watch =>
    obtain ⟨stream, found⟩ : ∃ stream, queue.stream? watch = some stream := by
      simp only [hasRoom, installed, Option.any_eq_true] at room
      exact ⟨room.choose, room.choose_spec.1⟩
    have known : watch < queue.nextWatch := by
      refine Nat.lt_of_not_le fun unused => ?_
      rw [fresh watch unused] at found
      cases found
    refine (entered_of_grown (nextWatch_push update ▸ known) fun other => ?_ :
      _ = [update].map fun update => (watch, update))
    by_cases here : watch = other
    · subst here
      simp [waiting, streams, installed, found, WatchStream.post]
    · have different : ¬ other = watch := fun same => here same.symm
      simp [waiting, streams, installed, here, different]

/-- What an occurrence puts into mailboxes of a queue. -/
def Occurrence.mail (queue : ClientQueue) : Occurrence → List (Nat × Update)
  | pushed update => queue.watcher.toList.map fun watch => (watch, update)
  | opened watch replay => replay.map fun update => (watch, update)
  | overflowed _ _ | refused _ | forwarded _ | received _ _ | signalled _ _ | released _ _ => []

/-- Nothing else enters a mailbox in a step. -/
theorem Step.entered_eq (fresh : queue.Fresh) (transition : Step queue occurrence next) :
    queue.entered next = occurrence.mail queue := by
  cases transition with
  | push update room => exact entered_push fresh room
  | overflow update installed full =>
    rw [push_of_full full]
    exact entered_self _
  | watch replayed accepted => exact entered_watch fresh replayed accepted
  | refuse refused =>
    obtain ⟨-, rfl⟩ := watching_refused.mp refused
    exact entered_self _
  | @forward watch stream after found moved =>
    have stored := stream?_putStream found (moved.id_eq.trans (id_of_stream? found))
    refine entered_of_changed (stream?_map_of_stored found stored) fun other same => ?_
    exact Option.some.inj (found.symm.trans same) ▸ moved.length_mailbox_le
  | @receive watch event _ received =>
    obtain ⟨stream, after, found, given, rfl⟩ := receive?_eq_some received
    have stored := stream?_of_receive? found given
    refine entered_of_changed (stream?_map_of_stored found stored) fun other same => ?_
    obtain ⟨output, -, rfl⟩ := WatchStream.receive?_eq_some given
    exact Option.some.inj (found.symm.trans same) ▸ Nat.le_refl _
  | signal watch signal spent =>
    exact entered_of_changed (stream?_signal queue watch signal) fun _ _ => Nat.le_refl _
  | @release watch stream found =>
    exact entered_of_changed (stream?_dropReceiver queue watch) fun _ _ => Nat.le_refl _

end ClientQueue

end FleetRing
