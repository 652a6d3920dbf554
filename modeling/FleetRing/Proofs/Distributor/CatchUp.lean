import FleetRing.Proofs.Distributor.Resumption

/-!
# A watch from an earlier listing

Between a listing and the watch that starts from it, updates may come. When the
versions of each location increase, the floors of the listing separate what it
showed from what came since. As long as the windows reach back to the listing
(`Fits`), the watch is fed exactly the latter at every location that has a floor
(`list_ingest_watch`).

A location has a floor only if one of the client's stores there holds a node.
Where they are all empty, updates that come before the watch are never replayed,
although the queue retains them; `unlisted_update_missed` is a run where that
happens. So the watch is exact if and only if no such update came.
-/

namespace FleetRing

section UpdatesAt

variable {location : Location} {updates : List Update}

/-- Updates of one location are all of it, or none of another. -/
theorem updatesAt_updatesAt (other : Location) :
    updatesAt location (updatesAt other updates) =
      if other = location then updatesAt location updates else [] := by
  have whole : updatesAt location ((updatesAt other updates).drop 0) = _ := updatesAt_drop other 0
  rw [List.drop_zero] at whole
  rw [whole]
  split
  · next same => rw [same]
  · rfl

/-- Updates that are collected pair by pair are those of the locations that occur. -/
theorem updatesAt_flatMap {floors : List (Location × Version)}
    (distinct : (floors.map Prod.fst).Nodup) :
    updatesAt location (floors.flatMap fun floor => updatesAt floor.1 updates) =
      if location ∈ floors.map Prod.fst then updatesAt location updates else [] := by
  induction floors with
  | nil => rfl
  | cons floor floors ih =>
    obtain ⟨fresh, distinct⟩ := List.nodup_cons.mp distinct
    rw [List.flatMap_cons, updatesAt_append, updatesAt_updatesAt, ih distinct]
    by_cases here : floor.1 = location
    · rw [here] at fresh
      simp [here, fresh]
    · have other : ¬ location = floor.1 := fun equal => here equal.symm
      simp only [here, other, if_false, List.nil_append, List.map_cons, List.mem_cons, false_or]

/-- The updates of the locations with a floor, floor by floor. -/
def underFloors (order : List (Location × Version)) (updates : List Update) : List Update :=
  order.flatMap fun floor => updatesAt floor.1 updates

theorem updatesAt_underFloors {floors : VersionMap} {order : List (Location × Version)}
    (all : floors.Enumerates order) :
    updatesAt location (underFloors order updates) =
      if location ∈ floors.locations then updatesAt location updates else [] := by
  simp only [underFloors, updatesAt_flatMap all.once, all.mem_fst_iff]

/-- Nothing is repeated if nothing is at any location. -/
theorem nodup_of_updatesAt (each : ∀ location, (updatesAt location updates).Nodup) :
    updates.Nodup := by
  refine List.nodup_iff_count_le_one.mpr fun update => ?_
  have once := List.nodup_iff_count_le_one.mp (each update.location) update
  rwa [updatesAt, List.count_filter (by simp)] at once

end UpdatesAt

namespace Distributor

variable {config : Config} {dist middle : Distributor} {client : String} {held : Client}
  {before missed trace part : Trace}

/-- The versions of the updates that were submitted of each location increase. -/
def Increasing (trace : Trace) : Prop :=
  (submitted trace).Pairwise fun earlier later =>
    earlier.location = later.location → earlier.version < later.version

instance : DecidablePred Increasing := fun _ => inferInstanceAs (Decidable (List.Pairwise _ _))

/-- What is applied was submitted. -/
theorem acceptedBy_sublist (stores : List Nat) (trace : Trace) :
    (acceptedBy stores trace).Sublist (submitted trace) := by
  induction trace with
  | nil => exact .slnil
  | cons occurrence trace ih =>
    cases occurrence with
    | submitted update acceptor =>
      have applied : (acceptedBy stores [.submitted update acceptor]).Sublist [update] := by
        rw [acceptedBy_submitted]
        split
        · exact List.Sublist.refl _
        · exact List.nil_sublist _
      have whole := applied.append ih
      rwa [← acceptedBy_append] at whole
    | registered | watched | served => exact ih

/-- When versions increase, no update is applied twice. -/
theorem Increasing.nodup (increasing : Increasing trace) (stores : List Nat)
    (within : part.Sublist trace) : (acceptedBy stores part).Nodup := by
  have applied := (acceptedBy_sublist stores part).trans (within.filterMap _)
  refine List.Pairwise.imp ?_ (increasing.sublist applied)
  rintro earlier _ newer rfl
  exact UInt64.lt_irrefl _ (newer rfl)

/-- A floor is the version of an update that one of the client's stores applied there. -/
theorem exists_floor (reached : Reachable config before dist) {location : Location}
    {floor : Version} (listed : (dist.floors held).get? location = some floor) :
    ∃ update ∈ submitted before, update.location = location ∧ update.version = floor := by
  have share := (dist.floors_collects held).mem location floor listed
  obtain ⟨k, member, place, id, stored, found, rfl⟩ := (mem_shares reached.sound.nodes).mp share
  obtain ⟨start, created, run⟩ := reached
  obtain ⟨update, shown, same⟩ := submitted_of_stored (find?_create created) run.moves found
  have standing := (sound_create created).placeOf_submitted run.moves shown
  refine ⟨update, List.mem_filterMap.mpr ⟨_, shown, rfl⟩, ?_, ?_⟩
  · exact Option.some.inj (standing.symm.trans place)
  · rw [← same]
    rfl

/-- Whatever is applied after a listing is above its floor. -/
theorem floor_lt (reached : Reachable config before dist)
    (increasing : Increasing (before ++ trace)) {location : Location} {floor : Version}
    (listed : (dist.floors held).get? location = some floor) {stores : List Nat} {update : Update}
    (applied : update ∈ updatesAt location (acceptedBy stores trace)) : floor < update.version := by
  obtain ⟨source, earlier, place, rfl⟩ := exists_floor reached listed
  obtain ⟨later, same⟩ := mem_updatesAt.mp applied
  rw [Increasing, submitted_append] at increasing
  refine (List.pairwise_append.mp increasing).2.2 source earlier update ?_ (place.trans same.symm)
  exact (acceptedBy_sublist stores trace).subset later

/-- A node that is listed has a version and a location, and that version counts there. -/
theorem share_of_listed (sound : dist.Sound) {node : Node} (listed : node ∈ dist.listing held) :
    ∃ location version, node.location? = some location ∧ node.version? = some version ∧
      (location, version) ∈ dist.shares held := by
  obtain ⟨k, member, version, found⟩ := (mem_listing sound.nodes).mp listed
  obtain ⟨store, here, -⟩ := Option.bind_eq_some_iff.mp found
  obtain ⟨-, place, number⟩ := sound.nodes.home k store node.id _ here found
  refine ⟨store.location, version, place, number, (mem_shares sound.nodes).mpr ?_⟩
  exact ⟨k, member, by simp [placeOf, here], node.id, _, found, rfl⟩

/-- What a client was told of a location before a listing, and what its stores there applied
since. -/
theorem toldAt_append (reached : Reachable config before dist)
    (registered : dist.client? client = some held) (between : Steps dist missed middle)
    (location : Location) :
    middle.toldAt client held (before ++ missed) location =
      dist.toldAt client held before location ++
        updatesAt location (acceptedBy held.stores missed) := by
  have sound := reached.sound
  rw [sound.updatesAt_acceptedBy between.moves held location (List.Subset.refl _), toldAt, toldAt,
    since_append (reached.registered registered), acceptedBy_append,
    sound.storesAt_eq between.moves, List.cons_append]

/-- Each window answers the floor of an earlier listing with what was applied since, as long as
it reaches back to the listing. -/
theorem windows_since (reached : Reachable config before dist) (named : client ≠ "")
    (registered : dist.client? client = some held) (between : Steps dist missed middle)
    (increasing : Increasing (before ++ missed)) :
    middle.client? client = some held ∧
    ∃ (queue : ClientQueue) (steps : List ClientQueue.Occurrence),
      middle.queues.get? held.queue = some queue ∧
      ClientQueue.Steps { client, windowLength := config.windowLength.toNat } steps queue ∧
      ∀ location floor, (dist.floors held).get? location = some floor →
        ∃ window, queue.windows[location]? = some window ∧
          ((updatesAt location (acceptedBy held.stores missed)).length <
              config.windowLength.toNat →
            window.since floor = .ok (updatesAt location (acceptedBy held.stores missed))) ∧
          (config.windowLength.toNat ≤
              (updatesAt location (acceptedBy held.stores missed)).length →
            ∃ oldest, window.since floor = .error (.versionTooOld floor oldest)) := by
  have sound := reached.sound
  obtain ⟨stays, -⟩ := sound.overlay_moves registered between.moves
  obtain ⟨queue, steps, here, schedule, retained, told⟩ :=
    exists_retention (reached.trans between) named stays
  refine ⟨stays, queue, steps, here, schedule, fun location floor listed => ?_⟩
  have standing : ∃ store ∈ middle.storesOf held, store.location = location := by
    obtain ⟨k, mine, place⟩ := exists_store_iff.mp (standing_of_floor sound listed)
    exact exists_store_iff.mpr ⟨k, mine, (sound.placeOf_eq between.moves k).trans place⟩
  have items := told location
  rw [if_pos standing, toldAt_append reached registered between] at items
  have nonempty : updatesAt location (ClientQueue.pushes steps) ≠ [] := by
    rw [items]
    exact List.cons_ne_nil _ _
  obtain ⟨window, found, capacity, holds⟩ := retained.window nonempty
  rw [schedule.settings.1, Nat.max_eq_left reached.windowLength_pos] at capacity
  rw [items] at holds
  -- The floor separates what the listing covers from what was applied since.
  have covered : ∀ update ∈ dist.toldAt client held before location, ¬ floor < update.version :=
    fun update earlier => UInt64.not_lt.mpr (told_le_floor reached listed earlier)
  have above : ∀ update ∈ updatesAt location (acceptedBy held.stores missed),
      floor < update.version :=
    fun update applied => floor_lt reached increasing listed applied
  refine ⟨window, found, fun fits => ?_, fun full => ?_⟩
  · exact holds.since_eq_of_fits (List.cons_ne_nil _ _) (by omega) covered above
  · exact holds.exists_tooOld (by omega) above

/-- Fewer updates came at each location with a floor than a window holds, so that every window
reaches back to what its floor covers. -/
def Fits (floors : VersionMap) (missed : List Update) (windowLength : Nat) : Prop :=
  ∀ location ∈ floors.locations, (updatesAt location missed).length < windowLength

instance (floors : VersionMap) (missed : List Update) (windowLength : Nat) :
    Decidable (Fits floors missed windowLength) :=
  inferInstanceAs (Decidable (∀ location ∈ floors.locations, _ < windowLength))

/-- So a queue answers all floors, in whatever order, with what was applied since at their
locations, or refuses. -/
theorem replay_since {queue : ClientQueue} {floors : VersionMap}
    {order : List (Location × Version)} {applied : List Update} {windowLength : Nat}
    (all : floors.Enumerates order)
    (answers : ∀ location floor, floors.get? location = some floor →
      ∃ window, queue.windows[location]? = some window ∧
        ((updatesAt location applied).length < windowLength →
          window.since floor = .ok (updatesAt location applied)) ∧
        (windowLength ≤ (updatesAt location applied).length →
          ∃ oldest, window.since floor = .error (.versionTooOld floor oldest))) :
    (Fits floors applied windowLength →
      queue.replay order = .ok (underFloors order applied)) ∧
    (¬ Fits floors applied windowLength →
      ∃ floor oldest, queue.replay order = .error (.versionTooOld floor oldest)) := by
  refine ⟨fun fits => ClientQueue.replay_eq ?_, fun overfull => ?_⟩
  · rintro ⟨location, floor⟩ member
    have listed := (all.mem_iff location floor).mp member
    obtain ⟨window, found, answer, -⟩ := answers location floor listed
    exact ⟨window, found, answer (fits location (VersionMap.mem_locations.mpr ⟨floor, listed⟩))⟩
  · obtain ⟨location, listed, full⟩ : ∃ location ∈ floors.locations,
        windowLength ≤ (updatesAt location applied).length := by
      simpa [Fits] using overfull
    obtain ⟨floor, covers⟩ := VersionMap.mem_locations.mp listed
    obtain ⟨window, found, -, refuses⟩ := answers location floor covers
    obtain ⟨oldest, given⟩ := refuses full
    have others : ∀ floor ∈ order, ∃ window, queue.windows[floor.1]? = some window ∧
        ((∃ oldest, window.since floor.2 = .error (.versionTooOld floor.2 oldest)) ∨
          ∃ updates, window.since floor.2 = .ok updates) := by
      rintro ⟨location, floor⟩ member
      obtain ⟨window, found, answer, refuses⟩ :=
        answers location floor ((all.mem_iff location floor).mp member)
      refine ⟨window, found, ?_⟩
      rcases Nat.lt_or_ge (updatesAt location applied).length windowLength with fits | full
      · exact .inr ⟨_, answer fits⟩
      · exact .inl (refuses full)
    obtain ⟨other, -, named, refused⟩ := ClientQueue.replay_tooOld others
      ⟨_, (all.mem_iff location floor).mpr covers, window, oldest, found, given⟩
    exact ⟨other.2, named, refused⟩

/-- What a watch from a listing is fed, against what the client's stores applied since the
listing: `missed` before the watch, and `later` from then on. -/
structure Resumes (nodes : List Node) (floors : VersionMap) (missed later fed : List Update) :
    Prop where
  /-- A location with a floor is fed everything, in order. -/
  covered : ∀ location ∈ floors.locations,
    updatesAt location fed = updatesAt location (missed ++ later)
  /-- A location without one is fed only what came after the watch. -/
  uncovered : ∀ location ∉ floors.locations, updatesAt location fed = updatesAt location later
  once : fed.Nodup
  /-- Nothing is fed that the listing showed: all that it lists at the location is older. -/
  newer : ∀ update ∈ fed, ∀ node ∈ nodes, node.location? = some update.location →
    ∃ version, node.version? = some version ∧ version < update.version

/-- So it is fed everything exactly when nothing came before the watch where there is no floor. -/
theorem Resumes.exact_iff {nodes : List Node} {floors : VersionMap}
    {missed later fed : List Update} (resumes : Resumes nodes floors missed later fed) :
    (∀ location, updatesAt location fed = updatesAt location (missed ++ later)) ↔
      ∀ update ∈ missed, update.location ∈ floors.locations := by
  constructor
  · intro whole update member
    by_contra unlisted
    have rest := whole update.location
    rw [resumes.uncovered _ unlisted, updatesAt_append] at rest
    have nothing := List.append_left_eq_self.mp rest.symm
    exact List.not_mem_nil (nothing ▸ mem_updatesAt.mpr ⟨member, rfl⟩)
  · intro listed location
    by_cases here : location ∈ floors.locations
    · exact resumes.covered location here
    · have nothing : updatesAt location missed = [] := by
        refine List.filter_eq_nil_iff.mpr fun update member same => here ?_
        exact of_decide_eq_true same ▸ listed update member
      rw [resumes.uncovered location here, updatesAt_append, nothing, List.nil_append]

/-- The answers to the floors of a listing, followed by what is applied later, resume it. -/
theorem resumes_of_floors (reached : Reachable config before dist)
    {shown : Trace} (increasing : Increasing (before ++ (missed ++ shown)))
    {order : List (Location × Version)} (all : (dist.floors held).Enumerates order) :
    Resumes (dist.listing held) (dist.floors held) (acceptedBy held.stores missed)
      (acceptedBy held.stores shown)
      (underFloors order (acceptedBy held.stores missed) ++ acceptedBy held.stores shown) := by
  have covered : ∀ location ∈ (dist.floors held).locations,
      updatesAt location (underFloors order (acceptedBy held.stores missed) ++
        acceptedBy held.stores shown) =
        updatesAt location (acceptedBy held.stores missed ++ acceptedBy held.stores shown) := by
    intro location listed
    rw [updatesAt_append, updatesAt_underFloors all, if_pos listed, ← updatesAt_append]
  have uncovered : ∀ location ∉ (dist.floors held).locations,
      updatesAt location (underFloors order (acceptedBy held.stores missed) ++
        acceptedBy held.stores shown) =
        updatesAt location (acceptedBy held.stores shown) := by
    intro location unlisted
    rw [updatesAt_append, updatesAt_underFloors all, if_neg unlisted, List.nil_append]
  refine ⟨covered, uncovered, nodup_of_updatesAt fun location => ?_,
    fun update fed node listed place => ?_⟩
  · by_cases here : location ∈ (dist.floors held).locations
    · rw [covered location here, ← acceptedBy_append]
      exact (increasing.nodup _ (List.sublist_append_right before _)).filter _
    · rw [uncovered location here]
      have within := (List.sublist_append_right missed shown).trans
        (List.sublist_append_right before (missed ++ shown))
      exact (increasing.nodup _ within).filter _
  · obtain ⟨location, version, standing, number, share⟩ := share_of_listed reached.sound listed
    obtain rfl := Option.some.inj (standing.symm.trans place)
    obtain ⟨floor, found, below⟩ := (dist.floors_collects held).le _ version share
    have applied := mem_updatesAt.mpr ⟨fed, rfl⟩
    rw [covered _ (VersionMap.mem_locations.mpr ⟨floor, found⟩), ← acceptedBy_append] at applied
    exact ⟨version, number, UInt64.lt_of_le_of_lt below
      (floor_lt reached increasing found applied)⟩

/-- A watch from an earlier listing, in whatever order it names the floors, is refused, as too old,
exactly when so much came at a location with a floor that its window does not reach back to the
listing. Otherwise it is accepted; it replays the updates that were applied since at the locations
with a floor, goes on with all that are applied later, and delivers them in that order. These are
exactly the updates since the listing if and only if none came before the watch where there is no
floor. -/
theorem list_ingest_watch (reached : Reachable config before dist) (named : client ≠ "")
    (registered : dist.client? client = some held) (between : Steps dist missed middle)
    (idle : middle.isWatching client = false) (increasing : Increasing (before ++ missed))
    (capacity : Nat) :
    ∃ (nodes : List Node) (floors : VersionMap), dist.list client = .ok (nodes, floors) ∧
      ∀ order : List (Location × Version), order.Perm floors.toList →
        (¬ Fits floors (acceptedBy held.stores missed) config.windowLength.toNat →
          ∃ floor oldest, middle.watchFrom client order capacity =
            .error (.core (.versionTooOld floor oldest))) ∧
        (Fits floors (acceptedBy held.stores missed) config.windowLength.toNat →
          ∃ (watch : Nat) (opened : Distributor) (replay : List Update),
            middle.watchFrom client order capacity = .ok (held.queue, watch, opened) ∧
            opened.stream? held.queue watch =
              some (.start watch replay config.windowLength.toNat capacity) ∧
            ∀ (shown : Trace) (later : Distributor), Steps opened shown later →
              (∃ queue stream, later.queues.get? held.queue = some queue ∧
                queue.stream? watch = some stream ∧
                Feeds (replay ++ acceptedBy held.stores shown) held.queue watch shown queue
                  stream) ∧
              (Increasing (before ++ (missed ++ shown)) →
                Resumes nodes floors (acceptedBy held.stores missed)
                  (acceptedBy held.stores shown) (replay ++ acceptedBy held.stores shown) ∧
                ((∀ location, updatesAt location (replay ++ acceptedBy held.stores shown) =
                    updatesAt location (acceptedBy held.stores (missed ++ shown))) ↔
                  ∀ update ∈ acceptedBy held.stores missed,
                    update.location ∈ floors.locations))) := by
  obtain ⟨stays, queue, steps, here, schedule, since⟩ :=
    windows_since reached named registered between increasing
  have sound := reached.sound
  refine ⟨dist.listing held, dist.floors held, list_eq registered, fun order walked => ?_⟩
  have all := VersionMap.enumerates_iff_perm.mpr walked
  have nonempty := all.isEmpty_eq_false (floors_ne_nil sound named registered)
  obtain ⟨answers, refuses⟩ := replay_since all since
  refine ⟨fun overfull => ?_, fun fits => ?_⟩
  · have unwatched : queue.isWatching = false := by
      simpa [isWatching, stays, here] using idle
    obtain ⟨floor, oldest, refused⟩ := refuses overfull
    exact ⟨floor, oldest, watchFrom_eq_error stays nonempty here unwatched refused capacity⟩
  · have fresh := schedule.fresh (ClientQueue.fresh_new _ _)
    obtain ⟨watch, opened, granted, starts, feeds⟩ :=
      exists_watch (sound.moves between.moves) stays here fresh idle nonempty
        (answers fits) capacity
    rw [schedule.settings.1] at starts
    refine ⟨watch, opened, _, granted, starts, fun shown later further =>
      ⟨feeds shown later further, fun increasing => ?_⟩⟩
    have resumes := resumes_of_floors reached increasing all
    refine ⟨resumes, ?_⟩
    rw [acceptedBy_append]
    exact resumes.exact_iff

/-- In the small fleet, a node of the listing changes before the watch starts, and the change is
replayed. -/
theorem list_ingest_watch_small :
    ∃ (missed : Trace) (middle : Distributor) (nodes : List Node) (floors : VersionMap)
        (watch : Nat) (opened : Distributor) (replay : List Update),
      Steps smallTaken missed middle ∧ (acceptedBy [0, 1] missed).map (·.version) = [6] ∧
      smallTaken.list "d" = .ok (nodes, floors) ∧
      middle.watchFrom "d" floors.toList 4 = .ok (0, watch, opened) ∧
      opened.stream? 0 watch = some (.start watch replay 2 4) ∧
      ∀ location, updatesAt location replay = updatesAt location (acceptedBy [0, 1] missed) := by
  let events := [reported .modified "a" 6 .shanghai]
  let missed := smallTaken.intake ((receive 0 events).filterMap accept?)
  let middle := (smallTaken.ingest 0 events).dist
  have between : Steps smallTaken missed middle := .single (.ingest 0 events)
  have idle : middle.isWatching "d" = false := by decide +kernel
  have increasing : Increasing (smallTrace ++ missed) := by decide +kernel
  obtain ⟨nodes, floors, listed, watches⟩ := list_ingest_watch smallTaken_reachable (by decide)
    smallTaken_client between idle increasing 4
  obtain ⟨rfl, rfl⟩ : smallTaken.listing ⟨0, [0, 1]⟩ = nodes ∧
      smallTaken.floors ⟨0, [0, 1]⟩ = floors := by
    simpa [list_eq smallTaken_client] using listed
  have fits : Fits (smallTaken.floors ⟨0, [0, 1]⟩) (acceptedBy [0, 1] missed) 2 := by
    decide +kernel
  have everywhere : ∀ update ∈ acceptedBy [0, 1] missed,
      update.location ∈ (smallTaken.floors ⟨0, [0, 1]⟩).locations := by
    decide +kernel
  obtain ⟨watch, opened, replay, granted, starts, resumes⟩ := (watches _ (.refl _)).2 fits
  have whole := ((resumes [] opened .refl).2 (by simpa using increasing)).2.mpr everywhere
  have version : (acceptedBy [0, 1] missed).map (·.version) = [6] := by decide +kernel
  exact ⟨missed, middle, _, _, watch, opened, replay, between, version, listed, granted, starts,
    by simpa [acceptedBy] using whole⟩

/-- In the small fleet, a node comes to the empty store of the client before the watch starts. The
watch is accepted and installed with nothing on its way, and replays nothing. -/
theorem unlisted_update_missed :
    ∃ (missed : Trace) (middle : Distributor) (nodes : List Node) (floors : VersionMap)
        (watch : Nat) (opened : Distributor),
      Reachable smallFleet smallTrace smallTaken ∧
      smallTaken.client? "d" = some ⟨0, [0, 1]⟩ ∧
      Steps smallTaken missed middle ∧ Increasing (smallTrace ++ missed) ∧
      (∀ update ∈ submitted (smallTrace ++ missed), 0 < update.version) ∧
      middle.isWatching "d" = false ∧
      (acceptedBy [0, 1] missed).map (fun update => (update.location, update.version)) =
        [(⟨.beijing, .rp1⟩, 7)] ∧
      smallTaken.list "d" = .ok (nodes, floors) ∧
      middle.watch "d" floors 4 = .ok (0, watch, opened) ∧ opened.isWatching "d" = true ∧
      opened.stream? 0 watch = some (.start watch [] 2 4) := by
  let events := [reported .added "b" 7 .beijing]
  let missed := smallTaken.intake ((receive 0 events).filterMap accept?)
  let middle := (smallTaken.ingest 0 events).dist
  let floors := smallTaken.floors ⟨0, [0, 1]⟩
  have answer : (middle.watch "d" floors 4).toOption.map (fun answer =>
      (answer.1, answer.2.1, answer.2.2.isWatching "d", answer.2.2.stream? 0 answer.2.1)) =
        some (0, 1, true, some (.start 1 [] 2 4)) := by
    decide +kernel
  cases granted : middle.watch "d" floors 4 with
  | error refusal => simp [granted, Except.toOption] at answer
  | ok accepted =>
    obtain ⟨number, watch, opened⟩ := accepted
    obtain ⟨rfl, rfl, installed, starts⟩ : number = 0 ∧ watch = 1 ∧
        opened.isWatching "d" = true ∧ opened.stream? 0 watch = some (.start 1 [] 2 4) := by
      simpa [granted, Except.toOption] using answer
    exact ⟨missed, middle, _, floors, 1, opened, smallTaken_reachable, smallTaken_client,
      .single (.ingest 0 events), by decide +kernel, by decide +kernel, by decide +kernel,
      by decide +kernel, list_eq smallTaken_client, granted, installed, starts⟩

end Distributor

end FleetRing
