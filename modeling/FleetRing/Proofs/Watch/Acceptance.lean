import FleetRing.Proofs.Watch.Retention
import FleetRing.Proofs.Window.Lookup

/-!
# When a watch is accepted

A watch asks for a version map, which is walked in some order, so the replay of some locations may
be at hand when another one fails. Neither the order nor the order of versions in a window decides
whether the watch is accepted: `Reaches` looks only at the oldest update that is retained of each
location. What the order decides is which of the floors that fail is named.

A watch that is refused is no step at all: all of them can be left out of a schedule
(`Steps.withoutRefusals`), and every stream is fed and read as before. Whether a mailbox can be made
for a watch that is accepted is a matter of its size alone (`WatchStream.fits`).
-/

namespace FleetRing

namespace Window.Retains

variable {α : Type} [Versioned α] {window : Window α} {items : List α}

/-- Whatever the versions of a window are, it answers when its oldest item is not above the version
asked for, and otherwise says so. -/
theorem exists_oldest (retained : window.Retains items) (nonempty : items ≠ [])
    (version : Version) : ∃ oldest, window.toList.head? = some oldest ∧
      (Versioned.versionOf oldest ≤ version ∧ (∃ answer, window.since version = .ok answer) ∨
        version < Versioned.versionOf oldest ∧
          window.since version = .error (.versionTooOld version (Versioned.versionOf oldest))) := by
  obtain ⟨oldest, first⟩ : ∃ oldest, items[window.start]? = some oldest :=
    ⟨_, List.getElem?_eq_getElem (retained.start_lt nonempty)⟩
  refine ⟨oldest, retained.head?_toList.trans first, ?_⟩
  by_cases old : version < Versioned.versionOf oldest
  · exact .inr ⟨old, retained.since_tooOld first old⟩
  · obtain ⟨index, answered, -⟩ := retained.since_eq_drop first old
    exact .inl ⟨UInt64.not_lt.mp old, _, answered⟩

end Window.Retains

namespace ClientQueue

/-- Is there a watch whose forwarder runs? -/
def IsBusy (queue : ClientQueue) : Prop :=
  ∃ watch stream, queue.watcher = some watch ∧ queue.stream? watch = some stream ∧
    stream.serving = true

/-- The oldest update that is retained of a location is not above a floor. -/
def Reaches (queue : ClientQueue) (location : Location) (floor : Version) : Prop :=
  ∃ window oldest, queue.windows[location]? = some window ∧
    window.toList.head? = some oldest ∧ oldest.version ≤ floor

/-- What is wrong with a floor. -/
inductive Obstructs (queue : ClientQueue) (location : Location) (floor : Version) : Error → Prop
    where
  | unwatched (absent : queue.windows[location]? = none) :
      Obstructs queue location floor (.locationNotWatched queue.client location)
  | tooOld {window : Window Update} {oldest : Update}
      (held : queue.windows[location]? = some window)
      (first : window.toList.head? = some oldest) (old : floor < oldest.version) :
      Obstructs queue location floor (.versionTooOld floor oldest.version)

variable {queue start finish : ClientQueue} {pushed : List Update} {location : Location}
  {floor : Version} {floors : List (Location × Version)} {error : Error}
  {trace : List Occurrence} {capacity : Nat}

/-- Nothing is wrong with a floor that is reached. -/
theorem Obstructs.not_reaches (obstructs : queue.Obstructs location floor error) :
    ¬ queue.Reaches location floor := by
  rintro ⟨window, oldest, held, first, recent⟩
  cases obstructs with
  | unwatched absent => cases held.symm.trans absent
  | tooOld found head old =>
    obtain rfl := Option.some.inj (held.symm.trans found)
    obtain rfl := Option.some.inj (first.symm.trans head)
    exact UInt64.not_lt.mpr recent old

/-- A floor is answered when it is reached; otherwise something is wrong with it, and a replay that
comes to it stops there. -/
theorem Retains.floor_cases (retained : queue.Retains pushed) (location : Location)
    (floor : Version) :
    (queue.Reaches location floor ∧ ∃ window answer, queue.windows[location]? = some window ∧
        window.since floor = .ok answer) ∨
      ∃ error, queue.Obstructs location floor error ∧
        ∀ floors, queue.replay ((location, floor) :: floors) = .error error := by
  have here := retained location
  cases held : queue.windows[location]? with
  | none => exact .inr ⟨_, .unwatched held, fun floors => by simp only [replay, held]⟩
  | some window =>
    rw [held] at here
    obtain ⟨nonempty, -, items⟩ := here
    obtain ⟨oldest, first, ⟨recent, answer, answered⟩ | ⟨old, refused⟩⟩ :=
      items.exists_oldest nonempty floor
    · exact .inl ⟨⟨window, oldest, held, first, recent⟩, window, answer, rfl, answered⟩
    · refine .inr ⟨_, .tooOld held first old, fun floors => ?_⟩
      simp only [replay, held, refused]
      rfl

/-- A replay is answered when every floor is reached, in whatever order they come; otherwise it
says what is wrong with one of them. -/
theorem Retains.replay_cases (retained : queue.Retains pushed)
    (floors : List (Location × Version)) :
    ((∀ floor ∈ floors, queue.Reaches floor.1 floor.2) ∧
        ∃ replay, queue.replay floors = .ok replay) ∨
      ∃ error, queue.replay floors = .error error ∧
        ∃ floor ∈ floors, queue.Obstructs floor.1 floor.2 error := by
  induction floors with
  | nil => exact .inl ⟨by simp, [], rfl⟩
  | cons first rest ih =>
    obtain ⟨location, floor⟩ := first
    rcases retained.floor_cases location floor with
      ⟨reaches, window, answer, held, answered⟩ | ⟨error, obstructs, stops⟩
    · rcases ih with ⟨all, replay, replayed⟩ | ⟨error, failed, other, member, obstructs⟩
      · refine .inl ⟨List.forall_mem_cons.mpr ⟨reaches, all⟩, answer ++ replay, ?_⟩
        simp only [ClientQueue.replay, held, answered, replayed]
      · refine .inr ⟨error, ?_, other, List.mem_cons_of_mem _ member, obstructs⟩
        simp only [ClientQueue.replay, held, answered, failed]
    · exact .inr ⟨error, stops rest, _, List.mem_cons_self, obstructs⟩

/-- A watch is asked for: another one is served, or it is accepted, or it is refused for one of its
floors. -/
theorem Retains.watchFrom_cases (retained : queue.Retains pushed)
    (floors : List (Location × Version)) (capacity : Nat) :
    (queue.IsBusy ∧ queue.watchFrom floors capacity = .error (.alreadyWatching queue.client)) ∨
      ¬ queue.IsBusy ∧
        (((∀ floor ∈ floors, queue.Reaches floor.1 floor.2) ∧
            ∃ watch opened, queue.watchFrom floors capacity = .ok (watch, opened)) ∨
          ∃ error, queue.watchFrom floors capacity = .error error ∧
            ∃ floor ∈ floors, queue.Obstructs floor.1 floor.2 error) := by
  by_cases busy : queue.IsBusy
  · exact .inl ⟨busy, by rw [watchFrom, if_pos (isWatching_iff.mpr busy)]⟩
  · have idle : queue.isWatching = false := by
      simpa using fun watching => busy (isWatching_iff.mp watching)
    refine .inr ⟨busy, ?_⟩
    rcases retained.replay_cases floors with ⟨reaches, replay, replayed⟩ | ⟨error, failed, blamed⟩
    · exact .inl ⟨reaches, _, _, (watchFrom_eq_ok replayed).mpr ⟨idle, rfl, rfl⟩⟩
    · refine .inr ⟨error, ?_, blamed⟩
      simp [watchFrom, idle, failed]

/-- Was a watch refused? -/
def Occurrence.isRefusal : Occurrence → Bool
  | .refused _ => true
  | .pushed _ | .overflowed _ _ | .opened _ _ | .forwarded _ | .received _ _ | .signalled _ _
  | .released _ _ => false

/-- A schedule without the watches that were refused in it. -/
def withoutRefusals (trace : List Occurrence) : List Occurrence :=
  trace.filter fun occurrence => !occurrence.isRefusal

@[simp]
theorem withoutRefusals_append (earlier later : List Occurrence) :
    withoutRefusals (earlier ++ later) = withoutRefusals earlier ++ withoutRefusals later :=
  List.filter_append earlier later

/-- A watch that is refused leaves the queue as it was. -/
theorem Step.eq_of_refused (transition : Step queue (.refused error) finish) :
    finish = queue := by
  cases transition with
  | refuse refused => exact (watching_refused.mp refused).2

/-- Without the watches that were refused in it, a schedule leads to the same queue. -/
theorem Steps.withoutRefusals (schedule : Steps start trace finish) :
    Steps start (withoutRefusals trace) finish := by
  induction schedule with
  | refl => exact .refl
  | @step trace queue next occurrence prior transition ih =>
    rw [withoutRefusals_append]
    cases occurrence with
    | refused error =>
      obtain rfl := transition.eq_of_refused
      have nothing : ClientQueue.withoutRefusals [.refused error] = [] := rfl
      rwa [nothing, List.append_nil]
    | pushed update | overflowed watch update | opened watch replay | forwarded watch
    | received watch event | signalled watch signal | released watch lost =>
      exact ih.step transition

/-- It pushes the same, and of every watch the same is received and lost. -/
theorem shown_withoutRefusals (trace : List Occurrence) :
    pushes (withoutRefusals trace) = pushes trace ∧
      ∀ watch, received watch (withoutRefusals trace) = received watch trace ∧
        lost watch (withoutRefusals trace) = lost watch trace := by
  induction trace with
  | nil => exact ⟨rfl, fun _ => ⟨rfl, rfl⟩⟩
  | cons occurrence trace ih =>
    obtain ⟨pushed, rest⟩ := ih
    rw [← List.singleton_append]
    simp only [withoutRefusals_append, pushes_append, received_append, lost_append, pushed, rest]
    cases occurrence <;> exact ⟨rfl, fun _ => ⟨rfl, rfl⟩⟩

/-- What becomes of a watch of a queue that asks for the floors of a map in some order. -/
structure Acceptance (queue : ClientQueue) (map : VersionMap) (floors : List (Location × Version))
    (capacity : Nat) : Prop where
  /-- It is accepted exactly when no forwarder runs and what is retained reaches back to every
  version of the map. -/
  accepted_iff : (∃ watch opened, queue.watchFrom floors capacity = .ok (watch, opened)) ↔
    ¬ queue.IsBusy ∧
      ∀ location floor, map.get? location = some floor → queue.Reaches location floor
  /-- Where a forwarder runs, that is what it is refused for, -/
  busy : queue.IsBusy →
    queue.watchFrom floors capacity = .error (.alreadyWatching queue.client)
  /-- and otherwise it is refused for what is wrong with some version of the map. -/
  obstructed : ¬ queue.IsBusy → ∀ error, queue.watchFrom floors capacity = .error error →
    ∃ location floor, map.get? location = some floor ∧ queue.Obstructs location floor error
  /-- Asked for, it answers that, and leaves the queue with the watch installed, or else the queue
  before, with all that it retains and streams. -/
  asked : (watching floors capacity).run.run queue =
    match queue.watchFrom floors capacity with
    | .ok (watch, opened) => (.ok watch, opened)
    | .error error => (.error error, queue)
  /-- So a step in which it is refused leads nowhere else. -/
  unchanged : ∀ error, queue.watchFrom floors capacity = .error error →
    ∀ next, Step queue (.refused error) next ↔ next = queue
  /-- So refused watches, as many as there are, do not show in what happens next: everything else
  happens without them as well, and leaves the same queue. -/
  undisturbed : ∀ trace finish, Steps queue trace finish →
    Steps queue (withoutRefusals trace) finish ∧
      pushes (withoutRefusals trace) = pushes trace ∧
      ∀ watch, received watch (withoutRefusals trace) = received watch trace ∧
        lost watch (withoutRefusals trace) = lost watch trace

/-- Whatever was pushed to a queue, and in whatever state its watches are, a watch is accepted
exactly when no forwarder runs and every version of its map is reached, in whatever order the map
is walked. A watch that is refused changes nothing. -/
theorem acceptance (retained : queue.Retains pushed) {map : VersionMap}
    (order : floors.Perm map.toList) (capacity : Nat) :
    Acceptance queue map floors capacity := by
  have listed : ∀ location floor, (location, floor) ∈ floors ↔ map.get? location = some floor :=
    fun location floor => order.mem_iff.trans VersionMap.mem_toList
  have outcome := retained.watchFrom_cases floors capacity
  refine {
    accepted_iff := ?_
    busy := ?_
    obstructed := ?_
    asked := watching_run queue floors capacity
    unchanged := ?_
    undisturbed := fun trace finish schedule =>
      ⟨schedule.withoutRefusals, shown_withoutRefusals trace⟩ }
  · rcases outcome with ⟨busy, refused⟩ | ⟨idle, ⟨reaches, accepted⟩ | ⟨error, refused, blamed⟩⟩
    · simp [busy, refused]
    · exact iff_of_true accepted ⟨idle, fun location floor held =>
        reaches _ ((listed location floor).mpr held)⟩
    · obtain ⟨⟨location, floor⟩, member, obstructs⟩ := blamed
      refine iff_of_false (by simp [refused]) ?_
      rintro ⟨-, reaches⟩
      exact obstructs.not_reaches (reaches location floor ((listed location floor).mp member))
  · intro busy
    rcases outcome with ⟨-, refused⟩ | ⟨idle, -⟩
    · exact refused
    · exact absurd busy idle
  · intro idle error failed
    rcases outcome with ⟨busy, -⟩ | ⟨-, ⟨-, watch, opened, accepted⟩ | ⟨other, refused, blamed⟩⟩
    · exact absurd busy idle
    · cases failed.symm.trans accepted
    · obtain rfl := Except.error.inj (failed.symm.trans refused)
      obtain ⟨⟨location, floor⟩, member, obstructs⟩ := blamed
      exact ⟨location, floor, (listed location floor).mp member, obstructs⟩
  · intro error refused next
    refine ⟨Step.eq_of_refused, ?_⟩
    rintro rfl
    exact .refuse (watching_refused.mpr ⟨refused, rfl⟩)

/-- The update that gives a node at a location a version. -/
private def revising (id : String) (location : Location) (version : Version) : Update where
  event := { type := .modified, node := .fresh id version location }
  location := location
  version := version

/-- Updates came out of order in Beijing, the one that was newest there was given up, and the
forwarder of the installed watch vanished. The next watch is refused for Shanghai, although Beijing
is replayed first. -/
theorem acceptance_out_of_order :
    ∃ (queue : ClientQueue) (pushed : List Update) (map : VersionMap),
      queue.Retains pushed ∧ pushed.map (·.version) = [9, 3, 6, 7] ∧
      queue.watcher = some 1 ∧ ¬ queue.IsBusy ∧
      [(⟨.beijing, .rp1⟩, 3), (⟨.shanghai, .rp1⟩, 5)].Perm map.toList ∧
      Acceptance queue map [(⟨.beijing, .rp1⟩, 3), (⟨.shanghai, .rp1⟩, 5)] 4 ∧
      queue.watchFrom [(⟨.beijing, .rp1⟩, 3), (⟨.shanghai, .rp1⟩, 5)] 4 =
        .error (.versionTooOld 5 7) := by
  have retained := ((((retains_new "c" 2).retain (revising "a" ⟨.beijing, .rp1⟩ 9)).retain
    (revising "b" ⟨.beijing, .rp1⟩ 3)).retain (revising "a" ⟨.beijing, .rp1⟩ 6)).retain
    (revising "d" ⟨.shanghai, .rp1⟩ 7)
  generalize held : ClientQueue.retain _ _ = queue at retained
  let orphaned : ClientQueue := { queue with
    watcher := some 1, nextWatch := 2, streams := [(WatchStream.start 1 [] 2 4).ended] }
  have kept : orphaned.Retains _ := retained.congr ⟨rfl, rfl, rfl, rfl⟩
  have idle : orphaned.isWatching = false := rfl
  have failed : orphaned.replay [(⟨.beijing, .rp1⟩, 3), (⟨.shanghai, .rp1⟩, 5)] =
      .error (.versionTooOld 5 7) := by
    subst held
    decide +kernel
  have order : [(⟨.beijing, .rp1⟩, 3), (⟨.shanghai, .rp1⟩, 5)].Perm
      (VersionMap.ofList [(⟨.shanghai, .rp1⟩, 5), (⟨.beijing, .rp1⟩, 3)]).toList := by
    decide +kernel
  refine ⟨orphaned, _, _, kept, rfl, rfl, ?_, order, acceptance kept order 4, ?_⟩
  · rw [IsBusy, ← isWatching_iff, idle]
    decide
  · simp [watchFrom, idle, failed]

end ClientQueue

end FleetRing
