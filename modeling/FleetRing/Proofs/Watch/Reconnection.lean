import FleetRing.Proofs.Distributor.CatchUp

/-!
# A watch after a watch

A client whose watch ended can go on from what it received: it observes the location and the
version of every event in the map that it watched from, and watches again from there. When
versions increase at each location, that map cuts what was pushed of every location exactly
behind the last event received, wherever the first watch was interrupted. `reconnects` says
that the second watch is refused, as too old, or delivers exactly what the first one still owed.
-/

namespace FleetRing

open WatchStream (unsent)

/-- Where and at which version an event reports its node. -/
def NodeEvent.sighting? (event : NodeEvent) : Option (Location × Version) := do
  return (← event.node.location?, ← event.node.version?)

/-- The map to go on from after some events. -/
def VersionMap.observeEvents (map : VersionMap) (events : List NodeEvent) : VersionMap :=
  map.observeAll (events.filterMap (·.sighting?))

/-- Events of resolved updates are seen where these are, whatever stamp the forwarder left. -/
theorem sightings_of_unsent {events : List NodeEvent} {updates : List Update}
    (resolved : ∀ update ∈ updates, update.Resolved)
    (same : unsent events = unsent (updates.map (·.event))) :
    events.filterMap (·.sighting?) =
      updates.map fun update => (update.location, update.version) := by
  have whole : events.filterMap (·.sighting?) = (unsent events).filterMap (·.sighting?) := by
    rw [unsent, List.filterMap_map]
    rfl
  rw [whole, same, unsent, List.map_map, List.filterMap_map]
  refine List.filterMap_eq_map_iff_forall_eq_some.mpr fun update member => ?_
  obtain ⟨location, version⟩ := resolved update member
  change (update.node.location?.bind fun location => update.node.version?.bind fun version =>
    some (location, version)) = _
  rw [location, version]
  rfl

namespace ClientQueue

open Distributor (Fits replay_since)

variable {client : String} {windowLength capacity watch : Nat} {before trace : List Occurrence}
  {queue opened later : ClientQueue} {floors : VersionMap} {order : List (Location × Version)}
  {pushed replay : List Update} {location : Location} {floor : Version}

/-- The versions of the updates of each location increase. -/
def Ascending (updates : List Update) : Prop :=
  updates.Pairwise fun earlier later =>
    earlier.location = later.location → earlier.version < later.version

instance : DecidablePred Ascending := fun _ => inferInstanceAs (Decidable (List.Pairwise _ _))

/-- At one location, there is nothing else to it. -/
theorem Ascending.updatesAt (ascending : Ascending pushed) (location : Location) :
    (updatesAt location pushed).Pairwise fun earlier later =>
      Versioned.versionOf earlier < Versioned.versionOf later := by
  have part : (FleetRing.updatesAt location pushed).Sublist pushed := List.filter_sublist
  refine (ascending.sublist part).imp_of_mem fun {earlier later} first second newer => ?_
  exact newer ((mem_updatesAt.mp first).2.trans (mem_updatesAt.mp second).2.symm)

/-- A replay cuts what was pushed of the location of a floor at that floor. -/
theorem Retains.replay_split (retained : queue.Retains pushed) (ascending : Ascending pushed)
    (all : floors.Enumerates order) (replayed : queue.replay order = .ok replay)
    (listed : floors.get? location = some floor) :
    ∃ skipped, skipped ≠ [] ∧ updatesAt location pushed = skipped ++ updatesAt location replay ∧
      (∀ update ∈ skipped, ¬ floor < update.version) ∧
      ∀ update ∈ updatesAt location replay, floor < update.version := by
  obtain ⟨window, held, given⟩ :=
    retained.exists_answer replayed all.once ((all.mem_iff location floor).mpr listed)
  exact (retained.holds held).exists_split (ascending.updatesAt location) given

/-- What a watch that goes on from a map, in whatever order it names the floors, comes to, when
`owed` is what was not received yet. -/
structure Continues (queue : ClientQueue) (floors : VersionMap) (owed : List Update)
    (capacity : Nat) : Prop where
  /-- It is refused when a window does not reach back to what was received. -/
  tooOld : ¬ Fits floors owed (max queue.windowLength 1) →
    ∀ order : List (Location × Version), order.Perm floors.toList →
      ∃ floor oldest, queue.watchFrom order capacity = .error (.versionTooOld floor oldest)
  /-- Otherwise it is accepted, and delivers at each location what is owed and what comes later. -/
  resumed : Fits floors owed (max queue.windowLength 1) →
    ∀ order : List (Location × Version), order.Perm floors.toList → ∃ watch opened replay,
      queue.watchFrom order capacity = .ok (watch, opened) ∧
        (∀ location, updatesAt location replay = updatesAt location owed) ∧
        ∀ (more : List Occurrence) (later : ClientQueue), Steps opened more later →
          (∃ stream, later.stream? watch = some stream ∧
            Delivers watch replay more later stream) ∧
          ∀ location, updatesAt location (replay ++ pushes more) =
            updatesAt location (owed ++ pushes more)

/-- Floors that cut what was pushed of each location in front of what is owed continue with that. -/
theorem continues_of_cut {owed : List Update} (fresh : queue.Fresh)
    (idle : queue.isWatching = false) (retained : queue.Retains pushed)
    (within : ∀ update ∈ owed, update.location ∈ floors.locations)
    (cut : ∀ location floor, floors.get? location = some floor →
      ∃ older, older ≠ [] ∧ updatesAt location pushed = older ++ updatesAt location owed ∧
        (∀ update ∈ older, ¬ floor < update.version) ∧
        ∀ update ∈ updatesAt location owed, floor < update.version) (capacity : Nat) :
    queue.Continues floors owed capacity := by
  have answers : ∀ location floor, floors.get? location = some floor →
      ∃ window, queue.windows[location]? = some window ∧
        ((updatesAt location owed).length < max queue.windowLength 1 →
          window.since floor = .ok (updatesAt location owed)) ∧
        (max queue.windowLength 1 ≤ (updatesAt location owed).length →
          ∃ oldest, window.since floor = .error (.versionTooOld floor oldest)) := by
    intro location floor listed
    obtain ⟨older, nonempty, whole, low, high⟩ := cut location floor listed
    obtain ⟨window, held, size, holds⟩ :=
      retained.window (show updatesAt location pushed ≠ [] by simp [whole, nonempty])
    rw [whole] at holds
    exact ⟨window, held, fun fits => holds.since_eq_of_fits nonempty (size ▸ fits) low high,
      fun full => holds.exists_tooOld (size ▸ full) high⟩
  refine ⟨fun overfull order walked => ?_, fun fits order walked => ?_⟩
  · have all := VersionMap.enumerates_iff_perm.mpr walked
    obtain ⟨floor, oldest, refused⟩ := (replay_since all answers).2 overfull
    exact ⟨floor, oldest, by simp [watchFrom, idle, refused]⟩
  · have all := VersionMap.enumerates_iff_perm.mpr walked
    have replayed := (replay_since all answers).1 fits
    have accepted : queue.watchFrom order capacity = .ok (_, _) :=
      (watchFrom_eq_ok replayed).mpr ⟨idle, rfl, rfl⟩
    have initial := Ledger.opened fresh replayed accepted
    have same : ∀ location, updatesAt location (underFloors order owed) =
        updatesAt location owed := by
      intro location
      rw [updatesAt_underFloors all]
      split
      · rfl
      · next unlisted =>
        refine (List.filter_eq_nil_iff.mpr fun update member here => unlisted ?_).symm
        exact of_decide_eq_true here ▸ within update member
    refine ⟨_, _, _, accepted, same, fun more later schedule => ⟨?_, fun location => ?_⟩⟩
    · obtain ⟨stream, ledger⟩ := Ledger.steps ⟨_, initial⟩ schedule
      exact ⟨stream, ledger.found, ledger.delivers (Ledger.uncut_before ⟨_, initial⟩ schedule)⟩
    · rw [updatesAt_append, same, ← updatesAt_append]

/-- The map that the client observed events in cuts what was pushed of each location behind the
last event received, when these are the first of a replay and of what was pushed after it. -/
theorem cut_of_received {got owed added : List Update} {floors resumed : VersionMap}
    (retained : queue.Retains pushed) (ascending : Ascending (pushed ++ added))
    (all : floors.Enumerates order) (replayed : queue.replay order = .ok replay)
    (whole : got ++ owed = replay ++ added)
    (covered : ∀ update ∈ replay ++ added, update.location ∈ floors.locations)
    (below : ∀ update ∈ added, ∀ floor, floors.get? update.location = some floor →
      floor < update.version)
    (collects : resumed.Collects
      (floors.toList ++ got.map fun update => (update.location, update.version)))
    (listed : resumed.get? location = some floor) :
    ∃ older, older ≠ [] ∧ updatesAt location (pushed ++ added) = older ++ updatesAt location owed ∧
      (∀ update ∈ older, ¬ floor < update.version) ∧
      ∀ update ∈ updatesAt location owed, floor < update.version := by
  have member := collects.mem location floor listed
  obtain ⟨first, origin⟩ : ∃ first, floors.get? location = some first := by
    rcases List.mem_append.mp member with start | seen
    · exact ⟨floor, VersionMap.mem_toList.mp start⟩
    · obtain ⟨update, received, same⟩ := List.mem_map.mp seen
      obtain ⟨rfl, -⟩ := Prod.mk.inj same
      exact VersionMap.mem_locations.mp
        (covered update (whole ▸ List.mem_append_left owed received))
  obtain ⟨skipped, nonempty, split, low, high⟩ :=
    retained.replay_split (List.pairwise_append.mp ascending).1 all replayed origin
  have parts : updatesAt location (pushed ++ added) =
      (skipped ++ updatesAt location got) ++ updatesAt location owed := by
    rw [updatesAt_append, split, List.append_assoc, ← updatesAt_append, ← whole, updatesAt_append,
      List.append_assoc]
  refine ⟨skipped ++ updatesAt location got, by simp [nonempty], parts, fun update older => ?_,
    fun update later => ?_⟩
  · rcases List.mem_append.mp older with before | received
    · have above : first ≤ floor :=
        collects.le_of_get? listed (List.mem_append_left _ (VersionMap.mem_toList.mpr origin))
      exact fun newer => low update before (UInt64.lt_of_le_of_lt above newer)
    · obtain ⟨seen, rfl⟩ := mem_updatesAt.mp received
      have above : update.version ≤ floor := collects.le_of_get? listed
        (List.mem_append_right _ (List.mem_map.mpr ⟨update, seen, rfl⟩))
      exact UInt64.not_lt.mpr above
  · rcases List.mem_append.mp member with start | seen
    · obtain rfl := Option.some.inj (origin.symm.trans (VersionMap.mem_toList.mp start))
      obtain ⟨owes, rfl⟩ := mem_updatesAt.mp later
      have intended : update ∈ replay ++ added := whole ▸ List.mem_append_right got owes
      rcases List.mem_append.mp intended with replays | comes
      · exact high update (mem_updatesAt.mpr ⟨replays, rfl⟩)
      · exact below update comes first origin
    · obtain ⟨last, received, same⟩ := List.mem_map.mp seen
      obtain ⟨rfl, rfl⟩ := Prod.mk.inj same
      have ordered := ascending.updatesAt last.location
      rw [parts] at ordered
      exact (List.pairwise_append.mp ordered).2.2 last
        (List.mem_append_right _ (mem_updatesAt.mpr ⟨received, rfl⟩)) update later

/-- A watch may name the floors of its map in any order, and end in any way and at any point: what
was received of it is the first part of what it was to deliver, and from the map in which this was
observed, another watch is refused as too old, or delivers the other part and what comes later, in
order at each location. Updates are resolved as those that are made from events are, and
bookmarks. -/
theorem reconnects (prior : Steps { client, windowLength } before queue)
    (resolved : ∀ update ∈ pushes (before ++ trace), update.Resolved)
    (ascending : Ascending (pushes (before ++ trace)))
    (covers : ∀ location ∈ queue.locations, location ∈ floors.locations)
    (walked : order.Perm floors.toList)
    (accepted : queue.watchFrom order capacity = .ok (watch, opened))
    (schedule : Steps opened trace later)
    (fixed : ∀ update ∈ pushes trace, update.location ∈ queue.locations)
    (below : ∀ update ∈ pushes trace, ∀ floor, floors.get? update.location = some floor →
      floor < update.version)
    (idle : later.isWatching = false) :
    ∃ replay, queue.replay order = .ok replay ∧
      unsent (received watch trace) = unsent
        (((replay ++ pushes trace).take (received watch trace).length).map (·.event)) ∧
      ∀ again, later.Continues (floors.observeEvents (received watch trace))
        ((replay ++ pushes trace).drop (received watch trace).length) again := by
  have all := VersionMap.enumerates_iff_perm.mpr walked
  obtain ⟨replay, replayed⟩ := exists_replay accepted
  have fresh := prior.fresh (fresh_new client windowLength)
  have retained : queue.Retains (pushes before) := (retains_new client windowLength).steps prior
  have initial := Ledger.opened fresh replayed accepted
  obtain ⟨stream, ledger⟩ := Ledger.steps ⟨_, initial⟩ schedule
  have delivered := (ledger.delivers (Ledger.uncut_before ⟨_, initial⟩ schedule)).delivered
  have front :
      unsent (received watch trace) <+: unsent ((replay ++ pushes trace).map (·.event)) := by
    refine List.IsPrefix.trans ?_ delivered
    simp only [unsent, List.map_append, List.append_assoc]
    exact List.prefix_append _ _
  have got : unsent (received watch trace) = unsent
      (((replay ++ pushes trace).take (received watch trace).length).map (·.event)) := by
    have taken := List.prefix_iff_eq_take.mp front
    rwa [List.length_map, unsent, unsent, ← List.map_take, ← List.map_take] at taken
  have whole := List.take_append_drop (received watch trace).length (replay ++ pushes trace)
  have origin : ∀ update ∈ replay ++ pushes trace,
      update ∈ pushes (before ++ trace) ∧ update.location ∈ floors.locations := by
    intro update intended
    rw [pushes_append]
    rcases List.mem_append.mp intended with replays | comes
    · obtain ⟨earlier, place⟩ := retained.mem_of_replay replayed all.once replays
      exact ⟨List.mem_append_left _ earlier, all.mem_fst_iff.mp place⟩
    · exact ⟨List.mem_append_right _ comes, covers _ (fixed update comes)⟩
  have seen := sightings_of_unsent
    (fun update member => resolved update (origin update (List.mem_of_mem_take member)).1) got
  have collects : (floors.observeEvents (received watch trace)).Collects (floors.toList ++
      ((replay ++ pushes trace).take (received watch trace).length).map
        fun update => (update.location, update.version)) := by
    rw [← seen]
    exact (VersionMap.Collects.toList floors).observeAll _
  have onward := (prior.step (.watch replayed accepted)).trans schedule
  have retains : later.Retains (pushes before ++ pushes trace) := by
    have kept := (retains_new client windowLength).steps onward
    rwa [List.nil_append, pushes_append, pushes_append, show pushes [.opened watch replay] = [] from
      rfl, List.append_nil] at kept
  rw [pushes_append] at ascending
  refine ⟨replay, replayed, got, continues_of_cut (onward.fresh (fresh_new client windowLength))
    idle retains (fun update owes => ?_) fun location floor listed => ?_⟩
  · obtain ⟨first, listed⟩ :=
      VersionMap.mem_locations.mp (origin update (List.mem_of_mem_drop owes)).2
    obtain ⟨top, found, -⟩ := collects.le update.location first
      (List.mem_append_left _ (VersionMap.mem_toList.mpr listed))
    exact VersionMap.mem_locations.mpr ⟨top, found⟩
  · exact cut_of_received retained ascending all replayed whole
      (fun update intended => (origin update intended).2) below collects listed

/-- The update that adds a node in the first partition of a region. -/
private def stated (id : String) (version : Version) (region : Region) : Update where
  event := Distributor.reported .added id version region
  location := ⟨region, .rp1⟩
  version := version

/-- A watch that replays updates of two locations, not in their order, is stopped when the client
has received the one of the first location and the forwarder holds the next one. Another update
comes before the forwarder takes leave, and stays in its mailbox. From the version that the client
saw, all but the first are delivered. -/
theorem reconnects_stopped :
    ∃ (opened later reopened : ClientQueue) (trace : List Occurrence) (again : Nat)
        (replay : List Update),
      Steps opened trace later ∧
      trace = [.forwarded 1, .forwarded 1, .received 1
          ((stated "b" 2 .shanghai).event.stamp .distributorSending 7), .forwarded 1,
        .signalled 1 .fired, .forwarded 1, .pushed (stated "d" 4 .shanghai), .forwarded 1] ∧
      later.watchFrom [(⟨.shanghai, .rp1⟩, 2), (⟨.beijing, .rp1⟩, 0)] 4 = .ok (again, reopened) ∧
      (updatesAt ⟨.beijing, .rp1⟩ replay).map (·.version) = [1, 3] ∧
      (updatesAt ⟨.shanghai, .rp1⟩ replay).map (·.version) = [4] ∧
      ∀ more last, Steps reopened more last → ∃ stream, last.stream? again = some stream ∧
        Delivers again replay more last stream := by
  let updates := [.bookmark ⟨.beijing, .rp1⟩, .bookmark ⟨.shanghai, .rp1⟩, stated "a" 1 .beijing,
    stated "b" 2 .shanghai, stated "c" 3 .beijing]
  let order : List (Location × Version) := [(⟨.shanghai, .rp1⟩, 0), (⟨.beijing, .rp1⟩, 0)]
  have walked : order.Perm (VersionMap.ofList order).toList := by decide +kernel
  let queue := updates.foldl push { client := "c", windowLength := 4 }
  let first := [stated "b" 2 .shanghai, stated "a" 1 .beijing, stated "c" 3 .beijing]
  let opened : ClientQueue := { queue with
    watcher := some 1, nextWatch := 2, streams := [.start 1 first 4 4] }
  obtain ⟨before, prior, pushed⟩ := Steps.exists_pushes { client := "c", windowLength := 4 } updates
  have replayed : queue.replay order = .ok first := by decide +kernel
  have accepted : queue.watchFrom order 4 = .ok (1, opened) :=
    (watchFrom_eq_ok replayed).mpr ⟨rfl, rfl, rfl⟩
  have taken := Steps.refl.step (@Step.forward opened 1 _ _ rfl (.take 7 rfl))
  have sent := taken.step (@Step.forward _ 1 _ _ rfl (.deliver rfl))
  have seen := sent.step (@Step.receive _ 1 _ _ rfl)
  have holding := seen.step (@Step.forward _ 1 _ _ rfl (.take 8 rfl))
  have told := holding.step (.signal 1 .fired (by decide))
  have stopped := told.step (@Step.forward _ 1 _ _ rfl (.quit rfl))
  have missed := stopped.step (.push (stated "d" 4 .shanghai) rfl)
  let shown : List Occurrence := [.forwarded 1, .forwarded 1, .received 1
    ((stated "b" 2 .shanghai).event.stamp .distributorSending 7), .forwarded 1,
    .signalled 1 .fired, .forwarded 1, .pushed (stated "d" 4 .shanghai), .forwarded 1]
  have schedule : Steps opened shown _ := missed.step (@Step.forward _ 1 _ _ rfl (.leave rfl))
  have whole : pushes (before ++ shown) = updates ++ [stated "d" 4 .shanghai] := by
    rw [pushes_append, pushed]
    rfl
  have resolved : ∀ update ∈ updates ++ [stated "d" 4 .shanghai], update.Resolved := by
    have stands : ∀ update ∈ updates ++ [stated "d" 4 .shanghai],
        update.node.location? = some update.location ∧
          update.node.version? = some update.version := by decide +kernel
    exact fun update member => ⟨(stands update member).1, (stands update member).2⟩
  have ascending : Ascending (updates ++ [stated "d" 4 .shanghai]) := by decide +kernel
  rw [← whole] at resolved ascending
  have below : ∀ update ∈ pushes shown, ∀ floor,
      (VersionMap.ofList order).get? update.location = some floor → floor < update.version := by
    intro update member floor listed
    obtain rfl : update = stated "d" 4 .shanghai := List.mem_singleton.mp member
    have zero : (VersionMap.ofList order).get? ⟨.shanghai, .rp1⟩ = some 0 := by decide +kernel
    obtain rfl := Option.some.inj (zero.symm.trans listed)
    decide
  obtain ⟨_, alsoReplayed, -, continues⟩ := reconnects prior resolved ascending
    (by decide +kernel) walked accepted schedule (by decide +kernel) below rfl
  obtain rfl := Except.ok.inj (replayed.symm.trans alsoReplayed)
  have alsoWalked : [(⟨.shanghai, .rp1⟩, 2), (⟨.beijing, .rp1⟩, 0)].Perm
      ((VersionMap.ofList order).observeEvents (received 1 shown)).toList := by
    decide +kernel
  obtain ⟨again, reopened, replay, resumed, rest, delivers⟩ :=
    (continues 4).resumed (by decide +kernel) _ alsoWalked
  have beijing : (updatesAt ⟨.beijing, .rp1⟩ replay).map (·.version) = [1, 3] := by
    rw [rest]
    decide +kernel
  have shanghai : (updatesAt ⟨.shanghai, .rp1⟩ replay).map (·.version) = [4] := by
    rw [rest]
    decide +kernel
  exact ⟨opened, _, reopened, shown, again, replay, schedule, rfl, resumed, beijing, shanghai,
    fun more last onward => (delivers more last onward).1⟩

end ClientQueue

end FleetRing
