import FleetRing.Proofs.Watch.Frame
import FleetRing.Proofs.Window.Retention

/-!
# What a client queue retains

`ClientQueue.Retains` describes the windows of a queue by the list of all updates
that were ever pushed to it: a location has a window as soon as it has an update,
and the window retains the updates of that location. Steps that push nothing keep
it, so along a schedule it depends on the pushes alone.

The answers to a watch follow from it. `replay_eq` collects the answers of the
single floors, and `replay_tooOld` says that one floor that was given up is enough
to refuse.
-/

namespace FleetRing

/-- The updates of one location, in order. -/
def updatesAt (location : Location) (updates : List Update) : List Update :=
  updates.filter fun update => update.location = location

section UpdatesAt

variable {location : Location} {updates : List Update}

@[simp]
theorem updatesAt_nil : updatesAt location [] = [] := rfl

@[simp]
theorem updatesAt_append (earlier later : List Update) :
    updatesAt location (earlier ++ later) =
      updatesAt location earlier ++ updatesAt location later :=
  List.filter_append earlier later

theorem updatesAt_singleton (update : Update) :
    updatesAt location [update] = if update.location = location then [update] else [] := by
  by_cases here : update.location = location <;> simp [updatesAt, here]

theorem mem_updatesAt {update : Update} :
    update ∈ updatesAt location updates ↔ update ∈ updates ∧ update.location = location := by
  simp [updatesAt]

/-- The last updates of one location are all of it, and none of another. -/
theorem updatesAt_drop (other : Location) (index : Nat) :
    updatesAt location ((updatesAt other updates).drop index) =
      if other = location then (updatesAt other updates).drop index else [] := by
  have place : ∀ update ∈ (updatesAt other updates).drop index, update.location = other :=
    fun update member => (mem_updatesAt.mp (List.mem_of_mem_drop member)).2
  split
  · next same =>
    exact List.filter_eq_self.mpr fun update member =>
      decide_eq_true ((place update member).trans same)
  · next different =>
    exact List.filter_eq_nil_iff.mpr fun update member same =>
      different ((place update member).symm.trans (of_decide_eq_true same))

end UpdatesAt

namespace ClientQueue

/-- What is retained of one location of which `updates` were pushed. -/
def RetainsAt (windowLength : Nat) (updates : List Update) : Option (Window Update) → Prop
  | none => updates = []
  | some window =>
    updates ≠ [] ∧ window.capacity = max windowLength 1 ∧ window.Retains updates

/-- The windows of a queue are what pushing a list of updates leaves. -/
def Retains (queue : ClientQueue) (pushed : List Update) : Prop :=
  ∀ location, RetainsAt queue.windowLength (updatesAt location pushed) queue.windows[location]?

variable {queue next start : ClientQueue} {pushed : List Update} {location : Location}

/-- A new queue retains nothing. -/
theorem retains_new (client : String) (windowLength : Nat) :
    Retains { client, windowLength } [] := by
  intro location
  simp [RetainsAt]

/-- An update that is retained enters the window of its location, which is opened if need be, and
no other one. -/
theorem windows_retain (queue : ClientQueue) (update : Update) (location : Location) :
    (queue.retain update).windows[location]? =
      if update.location = location then
        some ((queue.windows[location]?.getD (.ofCapacity queue.windowLength)).push update)
      else queue.windows[location]? := by
  simp only [ClientQueue.retain, Std.ExtTreeMap.getElem?_alter, Std.LawfulEqCmp.compare_eq_iff_eq]
  split
  · next same =>
    subst same
    cases queue.windows[update.location]? <;> rfl
  · rfl

/-- Pushing an update retains it behind the others of its location. -/
theorem Retains.retain (retained : queue.Retains pushed) (update : Update) :
    (queue.retain update).Retains (pushed ++ [update]) := by
  intro location
  have before := retained location
  have length : (queue.retain update).windowLength = queue.windowLength := rfl
  rw [windows_retain, length, updatesAt_append, updatesAt_singleton]
  by_cases here : update.location = location
  · simp only [here, if_true, RetainsAt]
    cases held : queue.windows[location]? with
    | none =>
      simp only [held, RetainsAt] at before
      refine ⟨by simp, by simp [Window.ofCapacity], ?_⟩
      rw [before]
      exact (Window.retains_ofCapacity queue.windowLength).push update
    | some window =>
      simp only [held, RetainsAt] at before
      obtain ⟨-, capacity, items⟩ := before
      exact ⟨by simp, by simpa using capacity, items.push update⟩
  · simpa only [here, if_false, List.append_nil] using before

/-- Retention is a matter of the windows alone. -/
theorem Retains.congr (retained : queue.Retains pushed) (same : SameRetention queue next) :
    next.Retains pushed := by
  intro location
  rw [same.windowLength, same.windows]
  exact retained location

/-- A step adds what it pushes, if it pushes something. -/
theorem Retains.step {occurrence : Occurrence} (retained : queue.Retains pushed)
    (transition : Step queue occurrence next) :
    next.Retains (pushed ++ occurrence.update?.toList) := by
  have same := transition.sameRetention
  cases pushes : occurrence.update? with
  | none =>
    rw [pushes] at same
    simpa using retained.congr same
  | some update =>
    rw [pushes] at same
    exact (retained.retain update).congr same

/-- A schedule adds what it pushes, whatever else happens. -/
theorem Retains.steps {trace : List Occurrence} (retained : start.Retains pushed)
    (schedule : Steps start trace queue) : queue.Retains (pushed ++ pushes trace) := by
  induction schedule with
  | refl => simpa [pushes] using retained
  | @step trace queue next occurrence prior transition ih =>
    have added : pushes [occurrence] = occurrence.update?.toList := by
      cases given : occurrence.update? <;> simp [pushes, given]
    rw [pushes_append, added, ← List.append_assoc]
    exact ih.step transition

/-- Nothing that happens changes whom a queue is for, how much it retains and who holds it. -/
theorem Steps.settings {trace : List Occurrence} (schedule : Steps start trace queue) :
    queue.windowLength = start.windowLength ∧ queue.client = start.client ∧
      queue.owned = start.owned := by
  induction schedule with
  | refl => exact ⟨rfl, rfl, rfl⟩
  | @step trace queue next occurrence prior transition ih =>
    have same := transition.sameRetention
    have kept : next.windowLength = queue.windowLength ∧ next.client = queue.client ∧
        next.owned = queue.owned := by
      cases pushes : occurrence.update? with
      | none =>
        rw [pushes] at same
        exact ⟨same.windowLength, same.client, same.owned⟩
      | some update =>
        rw [pushes] at same
        exact ⟨same.windowLength, same.client, same.owned⟩
    exact ⟨kept.1.trans ih.1, kept.2.1.trans ih.2.1, kept.2.2.trans ih.2.2⟩

/-- A location is retained as soon as an update of it was pushed. -/
theorem Retains.mem_locations (retained : queue.Retains pushed) :
    location ∈ queue.locations ↔ updatesAt location pushed ≠ [] := by
  have here := retained location
  rw [locations, Std.ExtTreeMap.mem_keys, Std.ExtTreeMap.mem_iff_isSome_getElem?]
  cases held : queue.windows[location]? with
  | none =>
    rw [held] at here
    simpa using show updatesAt location pushed = [] from here
  | some window =>
    rw [held] at here
    simpa using here.1

/-- The window of a location of which something was pushed. -/
theorem Retains.window (retained : queue.Retains pushed)
    (nonempty : updatesAt location pushed ≠ []) :
    ∃ window, queue.windows[location]? = some window ∧
      window.capacity = max queue.windowLength 1 ∧
      window.Retains (updatesAt location pushed) := by
  have here := retained location
  cases held : queue.windows[location]? with
  | none =>
    rw [held] at here
    exact absurd here nonempty
  | some window =>
    rw [held] at here
    exact ⟨window, rfl, here.2.1, here.2.2⟩

/-- A window that there is retains what was pushed of its location. -/
theorem Retains.holds (retained : queue.Retains pushed) {window : Window Update}
    (held : queue.windows[location]? = some window) :
    window.Retains (updatesAt location pushed) := by
  have here := retained location
  rw [held] at here
  exact here.2.2

section Replay

variable {floors : List (Location × Version)} {answers : Location × Version → List Update}

/-- Floors that are answered are answered in order. -/
theorem replay_eq (answered : ∀ floor ∈ floors, ∃ window,
      queue.windows[floor.1]? = some window ∧ window.since floor.2 = .ok (answers floor)) :
    queue.replay floors = .ok (floors.flatMap answers) := by
  induction floors with
  | nil => rfl
  | cons floor floors ih =>
    obtain ⟨window, held, answer⟩ := answered floor List.mem_cons_self
    have rest := ih fun other member => answered other (List.mem_cons_of_mem floor member)
    simp only [replay, held, answer, rest, List.flatMap_cons]

/-- When one floor was given up and every other one is answered or was given up as well, the
replay is refused for one that was. -/
theorem replay_tooOld
    (answered : ∀ floor ∈ floors, ∃ window, queue.windows[floor.1]? = some window ∧
      ((∃ oldest, window.since floor.2 = .error (.versionTooOld floor.2 oldest)) ∨
        ∃ updates, window.since floor.2 = .ok updates))
    (refused : ∃ floor ∈ floors, ∃ window oldest, queue.windows[floor.1]? = some window ∧
      window.since floor.2 = .error (.versionTooOld floor.2 oldest)) :
    ∃ floor ∈ floors, ∃ oldest,
      queue.replay floors = .error (.versionTooOld floor.2 oldest) := by
  induction floors with
  | nil =>
    obtain ⟨floor, member, -⟩ := refused
    cases member
  | cons first rest ih =>
    obtain ⟨window, held, answer⟩ := answered first List.mem_cons_self
    rcases answer with ⟨oldest, given⟩ | ⟨updates, given⟩
    · exact ⟨first, List.mem_cons_self, oldest, by simp only [replay, held, given]⟩
    · obtain ⟨floor, member, other, oldest, there, up⟩ := refused
      have later : floor ∈ rest := by
        rcases List.mem_cons.mp member with rfl | later
        · obtain rfl := Option.some.inj (held.symm.trans there)
          rw [given] at up
          cases up
        · exact later
      obtain ⟨found, inside, oldest, fails⟩ :=
        ih (fun floor inside => answered floor (List.mem_cons_of_mem first inside))
          ⟨floor, later, other, oldest, there, up⟩
      exact ⟨found, List.mem_cons_of_mem first inside, oldest, by
        simp only [replay, held, given, fails]⟩

/-- A replay starts with the answer of the first floor. -/
theorem replay_cons_eq_ok {floor : Location × Version} {replay : List Update}
    (replayed : queue.replay (floor :: floors) = .ok replay) :
    ∃ window answer rest, queue.windows[floor.1]? = some window ∧
      window.since floor.2 = .ok answer ∧ queue.replay floors = .ok rest ∧
      replay = answer ++ rest := by
  unfold ClientQueue.replay at replayed
  split at replayed
  · cases replayed
  · next window held =>
    split at replayed
    · cases replayed
    · next answer given =>
      split at replayed
      · cases replayed
      · next rest later => exact ⟨window, answer, rest, held, given, later,
          (Except.ok.inj replayed).symm⟩

/-- Only the locations of floors are replayed. -/
theorem Retains.updatesAt_replay (retained : queue.Retains pushed) {replay : List Update}
    (replayed : queue.replay floors = .ok replay) (unasked : location ∉ floors.map Prod.fst) :
    updatesAt location replay = [] := by
  induction floors generalizing replay with
  | nil =>
    obtain rfl := Except.ok.inj replayed
    rfl
  | cons floor floors ih =>
    obtain ⟨window, answer, rest, held, given, later, rfl⟩ := replay_cons_eq_ok replayed
    obtain ⟨other, unasked⟩ : ¬ location = floor.1 ∧ location ∉ floors.map Prod.fst := by
      simpa using unasked
    obtain ⟨index, rfl, -⟩ := (retained.holds held).exists_index given
    rw [updatesAt_append, ih later unasked, updatesAt_drop, if_neg fun equal => other equal.symm,
      List.nil_append]

/-- What is replayed of the location of a floor is what its window answers. -/
theorem Retains.exists_answer (retained : queue.Retains pushed) {replay : List Update}
    (replayed : queue.replay floors = .ok replay) (distinct : (floors.map Prod.fst).Nodup)
    {floor : Version} (asked : (location, floor) ∈ floors) :
    ∃ window, queue.windows[location]? = some window ∧
      window.since floor = .ok (updatesAt location replay) := by
  induction floors generalizing replay with
  | nil => cases asked
  | cons first floors ih =>
    obtain ⟨window, answer, rest, held, given, later, rfl⟩ := replay_cons_eq_ok replayed
    obtain ⟨fresh, distinct⟩ := List.nodup_cons.mp distinct
    obtain ⟨index, rfl, -⟩ := (retained.holds held).exists_index given
    rw [updatesAt_append, updatesAt_drop]
    rcases List.mem_cons.mp asked with rfl | member
    · refine ⟨window, held, ?_⟩
      rw [if_pos rfl, retained.updatesAt_replay later fresh, List.append_nil]
      exact given
    · have different : ¬ first.1 = location := by
        rintro rfl
        exact fresh (List.mem_map.mpr ⟨_, member, rfl⟩)
      rw [if_neg different, List.nil_append]
      exact ih later distinct member

/-- What is replayed of a location is the end of what was pushed of it, in order, and never the
first update of the location. -/
theorem Retains.exists_drop (retained : queue.Retains pushed) {replay : List Update}
    (replayed : queue.replay floors = .ok replay) (distinct : (floors.map Prod.fst).Nodup)
    (location : Location) :
    ∃ index, 0 < index ∧ updatesAt location replay = (updatesAt location pushed).drop index := by
  by_cases asked : location ∈ floors.map Prod.fst
  · obtain ⟨⟨_, floor⟩, member, rfl⟩ := List.mem_map.mp asked
    obtain ⟨window, held, given⟩ := retained.exists_answer replayed distinct member
    obtain ⟨index, same, positive, -⟩ := (retained.holds held).exists_index given
    exact ⟨index, positive, same⟩
  · rw [retained.updatesAt_replay replayed asked]
    exact ⟨_, Nat.succ_pos _, (List.drop_eq_nil_of_le (Nat.le_succ _)).symm⟩

/-- Everything that is replayed was pushed, and its location has a floor. -/
theorem Retains.mem_of_replay (retained : queue.Retains pushed) {replay : List Update}
    (replayed : queue.replay floors = .ok replay) (distinct : (floors.map Prod.fst).Nodup)
    {update : Update} (member : update ∈ replay) :
    update ∈ pushed ∧ update.location ∈ floors.map Prod.fst := by
  have here : update ∈ updatesAt update.location replay := mem_updatesAt.mpr ⟨member, rfl⟩
  constructor
  · obtain ⟨index, -, same⟩ := retained.exists_drop replayed distinct update.location
    rw [same] at here
    exact (mem_updatesAt.mp (List.mem_of_mem_drop here)).1
  · by_contra unasked
    rw [retained.updatesAt_replay replayed unasked] at here
    cases here

end Replay

end ClientQueue

end FleetRing
