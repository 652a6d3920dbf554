import FleetRing.Proofs.Store.History
import FleetRing.Proofs.Store.Splitting

/-!
# Delivering again

Updates may be delivered more than once, late and in any order. A node store that has
seen an update holds its node, and holds it at least as new as a modification; so
nothing is left to do for the update when it comes again, however many newer ones came
between.
-/

namespace FleetRing

namespace NodeStore

variable {store : NodeStore} {update : Update} {history updates : List Update}

/-- What came before is not applied again. -/
theorem Reflects.acceptor?_of_mem (reflects : store.Reflects history) (came : update ∈ history) :
    store.acceptor? update = none := by
  cases accepted : store.acceptor? update with
  | none => rfl
  | some k =>
    obtain ⟨target, routed, here, applied, -⟩ := absorb_of_accepted accepted
    have supported := (VirtualStore.applied_chain applied).1
    have own : update ∈ ownUpdates update.node.id update.location history :=
      mem_ownUpdates.mpr ⟨came, supported, rfl, rfl⟩
    have found := reflects.content routed
    rw [find?, here, Option.bind_some] at found
    -- An addition finds its node, and a modification finds nothing older than itself.
    rw [VirtualStore.apply_mutation target _ supported, found] at applied
    rcases EventType.carriesState_iff.mp supported with added | modified
    · obtain ⟨stored, held⟩ := Option.isSome_iff_exists.mp
        (isSome_prevailing.mpr (List.ne_nil_of_mem own))
      simp [held, Mutation.judge, added, Mutation.isApplied] at applied
    · obtain ⟨last, held, newer⟩ := le_prevailing modified own
      simp [held, Mutation.judge, modified, newer, Mutation.isApplied] at applied

/-- Updates that nobody applies are counted. -/
theorem Batch.foldl_step_of_refused (batch : Batch)
    (refused : ∀ update ∈ updates, batch.store.acceptor? update = none) :
    updates.foldl Batch.step batch =
      { store := batch.store
        queues := batch.queues
        observed := batch.observed.observeAll (batch.store.sightings updates)
        stats := { batch.stats with
          ignored := batch.stats.ignored + updates.countP batch.store.routes
          unroutable := batch.stats.unroutable +
            updates.countP fun update => !batch.store.routes update } } := by
  induction updates generalizing batch with
  | nil => rfl
  | cons update updates ih =>
    have first := step_of_refused (refused update List.mem_cons_self)
    have same : (batch.step update).store = batch.store := by rw [first]
    rw [List.foldl_cons, ih (batch.step update) fun other member =>
      same ▸ refused other (List.mem_cons_of_mem update member), first]
    cases routed : batch.store.routes update <;>
      simp [sightings, routed, VersionMap.observeAll] <;> omega

/-- A batch of updates that came before changes neither stores and versions nor queues, and says
so. -/
theorem process_repeated {perLocation regions partitions : Nat} {start nodes : NodeStore}
    {told queues : QueueTable} (created : create perLocation regions partitions = .ok start)
    (run : Steps (start, told) history (nodes, queues))
    (again : ∀ update ∈ updates, ∃ earlier ∈ history, update.Repeats earlier) :
    nodes.process queues updates =
      { store := nodes
        queues := queues
        observed := .ofList (nodes.sightings updates)
        stats := {
          inserted := 0
          updated := 0
          ignored := updates.countP nodes.routes
          unroutable := updates.countP fun update => !nodes.routes update
          touched := #[] } } := by
  obtain ⟨reflects, -⟩ := reflects_of_created created run
  have refused : ∀ update ∈ updates, nodes.acceptor? update = none := by
    intro update member
    obtain ⟨earlier, came, repeats⟩ := again update member
    exact (acceptor?_eq_of_repeats repeats nodes).trans (reflects.acceptor?_of_mem came)
  have versions : nodes.versions.merge (.ofList (nodes.sightings updates)) = nodes.versions := by
    refine (reflects.versions.merge (.ofList _)).unique reflects.versions fun pair => ?_
    rw [List.mem_append, or_iff_left_of_imp]
    intro seen
    obtain ⟨update, listed, rfl⟩ := List.mem_map.mp seen
    obtain ⟨member, routed⟩ := List.mem_filter.mp listed
    obtain ⟨earlier, came, repeats⟩ := again update member
    have served : nodes.routes earlier = nodes.routes update := by
      simp only [routes, repeats.node, repeats.location]
    refine List.mem_map.mpr ⟨earlier, List.mem_filter.mpr ⟨came, served.trans routed⟩, ?_⟩
    rw [repeats.location, repeats.version]
  have whole := Batch.foldl_step_of_refused { store := nodes, queues } refused
  simp only [process, whole, Nat.zero_add]
  exact congrArg (fun versions : VersionMap => ({
    store := { nodes with versions }
    queues
    observed := .ofList (nodes.sightings updates)
    stats := {
      ignored := updates.countP nodes.routes
      unroutable := updates.countP fun update => !nodes.routes update } } : Batch)) versions

/-- The node of Shanghai comes. -/
def firstReport : Update where
  event := { type := .added, node := .fresh "a" 5 ⟨.shanghai, .rp1⟩ }
  location := ⟨.shanghai, .rp1⟩
  version := 5

/-- It changes. -/
def secondReport : Update where
  event := { type := .modified, node := .fresh "a" 6 ⟨.shanghai, .rp1⟩ }
  location := ⟨.shanghai, .rp1⟩
  version := 6

/-- Nine locations with one store each. -/
def blankGrid : NodeStore :=
  .ofTopology ⟨3, 3, by decide, by decide, by decide, by decide⟩ 1

/-- The stores when the node has come. -/
def stockedGrid : NodeStore :=
  (blankGrid.process {} [firstReport]).store

/-- The store of the node. -/
def stockedStore : VirtualStore :=
  stockedGrid.stores[3]?.getD default

/-- The stores when that store belongs to a client. -/
def handedGrid : NodeStore :=
  { stockedGrid with
    stores := stockedGrid.stores.setIfInBounds 3 { stockedStore with owner := some ⟨"d", 0⟩ } }

/-- The queue of the client. -/
def openedTable : QueueTable where
  queues := #[{ client := "d", windowLength := 2 }]

/-- What the change of the node leaves. -/
def reportedTwice : Batch :=
  handedGrid.process openedTable [secondReport]

theorem reportedTwice_steps :
    Steps (blankGrid, {}) [firstReport, secondReport]
      (reportedTwice.store, reportedTwice.queues) := by
  have first : firstReport.Resolved := ⟨by decide +kernel, by decide +kernel⟩
  have second : secondReport.Resolved := ⟨by decide +kernel, by decide +kernel⟩
  have present : stockedGrid.stores[3]?.isSome = true := by decide +kernel
  have here : stockedGrid.stores[3]? = some stockedStore := by
    obtain ⟨target, found⟩ := Option.isSome_iff_exists.mp present
    rw [stockedStore, found, Option.getD_some]
  have vacant : stockedStore.isAssigned = false := by decide +kernel
  have given : stockedStore.assign? "d" 0 =
      some { stockedStore with owner := some ⟨"d", 0⟩ } := by
    simp [VirtualStore.assign?, vacant]
  have came : Steps (blankGrid, {}) [firstReport] (stockedGrid, _) :=
    .single (.process (by simpa using first))
  have handed : Steps (blankGrid, {}) ([firstReport] ++ [] ++ []) (handedGrid, openedTable) :=
    (came.step (.requeue openedTable)).step (.assign here given)
  exact handed.step (.process (by simpa using second))

/-- The client was told of the change. When both reports come again, the older one last, it is told
nothing, and nothing is changed. -/
theorem process_repeated_late :
    reportedTwice.stats.updated = 1 ∧
      (reportedTwice.queues.get? 0).map (·.retained ⟨.shanghai, .rp1⟩) = some 1 ∧
      (reportedTwice.store.process reportedTwice.queues [secondReport, firstReport]).store =
        reportedTwice.store ∧
      (reportedTwice.store.process reportedTwice.queues [secondReport, firstReport]).queues =
        reportedTwice.queues ∧
      (reportedTwice.store.process reportedTwice.queues
        [secondReport, firstReport]).stats.ignored = 2 := by
  have again : ∀ update ∈ [secondReport, firstReport],
      ∃ earlier ∈ [firstReport, secondReport], update.Repeats earlier := by
    simp only [List.mem_cons, List.not_mem_nil, or_false]
    rintro update (rfl | rfl)
    · exact ⟨secondReport, .inr rfl, .refl _⟩
    · exact ⟨firstReport, .inl rfl, .refl _⟩
  have created : create 1 3 3 = .ok blankGrid := rfl
  have told : (reportedTwice.queues.get? 0).map (·.retained ⟨.shanghai, .rp1⟩) = some 1 := by
    decide +kernel
  have whole := process_repeated created reportedTwice_steps again
  refine ⟨?_, told, ?_, ?_, ?_⟩
  · decide +kernel
  · rw [whole]
  · rw [whole]
  · rw [whole]
    decide +kernel

end NodeStore

end FleetRing
