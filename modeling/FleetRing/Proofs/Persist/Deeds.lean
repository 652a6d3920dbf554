import FleetRing.Proofs.Persist.Keys
import FleetRing.Proofs.Persist.Runs

/-!
# What persistence runs leave together

A `Deed` is a persistence run that was made: what it was to write, and how it ended. Only those
that ended persisted `landed`, and of these the last one that bears on a record decides it. So
each record is read off the deeds alone (`Contents.record_after` and its companions).
-/

namespace FleetRing

/-- A persistence run: what it was to write, and how it ended. -/
structure Deed where
  writing : Writing
  outcome : PersistOutcome

namespace Writing

/-- The nodes that are to be written, in order. -/
def touched : Writing → List Node
  | .nodes changed => changed
  | .status _ _ | .assignment _ => []

/-- The text of the status that is to be written. -/
def statusText? : Writing → Option String
  | .status reached entries => some (reached.textOf entries)
  | .nodes _ | .assignment _ => none

/-- The assignment of a client that is to be written. -/
def assignment? (client : String) : Writing → Option Assignment
  | .assignment given => if given.client = client then some given else none
  | .nodes _ | .status _ _ => none

/-- The last one of the nodes with a key, which is what stays of them. -/
def node? (key : String × Option Location) (writing : Writing) : Option Node :=
  (writing.touched.filter (·.key = key)).getLast?

theorem isSome_node? {key : String × Option Location} {writing : Writing} :
    (writing.node? key).isSome = true ↔ ∃ node ∈ writing.touched, node.key = key := by
  rw [node?, List.getLast?_isSome, ← List.length_pos_iff, List.length_filter_pos_iff]
  simp

end Writing

/-- What the last item sets that sets anything. -/
def latest {α β : Type} (set : α → Option β) (items : List α) : Option β :=
  (items.filterMap set).getLast?

theorem latest_append {α β : Type} (set : α → Option β) (first second : List α) :
    latest set (first ++ second) = (latest set second).or (latest set first) := by
  rw [latest, List.filterMap_append, List.getLast?_append, latest, latest]

/-- How the last run ended that was to write a node with a key. -/
def lastOutcome (key : String × Option Location) (deeds : List Deed) : Option PersistOutcome :=
  latest (fun deed =>
    if ∃ node ∈ deed.writing.touched, node.key = key then some deed.outcome else none) deeds

/-- What was written. -/
def landed (deeds : List Deed) : List Writing :=
  deeds.filterMap fun deed => if deed.outcome = .persisted then some deed.writing else none

section Deeds

variable {key : String × Option Location} {deeds : List Deed}

/-- If all runs end persisted, all is written. -/
theorem landed_of_persisted (persisted : ∀ deed ∈ deeds, deed.outcome = .persisted) :
    landed deeds = deeds.map (·.writing) :=
  List.filterMap_eq_map_iff_forall_eq_some.mpr fun deed member => if_pos (persisted deed member)

/-- What landed was to be written. -/
theorem exists_of_landed {writing : Writing} (wrote : writing ∈ landed deeds) :
    ∃ deed ∈ deeds, deed.writing = writing := by
  obtain ⟨deed, member, done⟩ := List.mem_filterMap.mp wrote
  exact ⟨deed, member, Option.some.inj (Option.ite_none_right_eq_some.mp done).2⟩

theorem landed_append (first second : List Deed) :
    landed (first ++ second) = landed first ++ landed second :=
  List.filterMap_append

/-- A node was to be written exactly when one of the runs did so. -/
theorem isSome_lastOutcome : (lastOutcome key deeds).isSome = true ↔
    (latest (Writing.node? key) (deeds.map (·.writing))).isSome = true := by
  simp only [lastOutcome, latest, List.getLast?_isSome, ne_eq, List.filterMap_eq_nil_iff,
    List.forall_mem_map, ite_eq_right_iff, reduceCtorEq, imp_false, ← Writing.isSome_node?,
    Bool.not_eq_true, Option.isSome_eq_false_iff, Option.isNone_iff_eq_none]

/-- If the last run that was to write a node ended persisted, the node is what was written last. -/
theorem latest_landed (persisted : lastOutcome key deeds = some .persisted) :
    latest (Writing.node? key) (landed deeds) =
      latest (Writing.node? key) (deeds.map (·.writing)) := by
  induction deeds using List.reverseRecOn with
  | nil => rfl
  | append_singleton deeds deed ih =>
    simp only [lastOutcome, landed, List.map_append, latest_append, List.filterMap_append,
      ← Writing.isSome_node?] at persisted ih ⊢
    cases found : deed.writing.node? key with
    | none =>
      by_cases done : deed.outcome = .persisted <;> simpa [latest, found, done] using
        ih (by simpa [latest, found] using persisted)
    | some node =>
      have done : deed.outcome = .persisted := by simpa [latest, found] using persisted
      simp [latest, found, done]

end Deeds

namespace Contents

open RecordStore

variable {writings : List Writing} {contents : Contents}

/-- What writings leave, one after the other. -/
def after (contents : Contents) (writings : List Writing) : Contents :=
  writings.foldl (fun contents writing => writing.effect contents) contents

theorem after_append (contents : Contents) (first second : List Writing) :
    contents.after (first ++ second) = (contents.after first).after second :=
  List.foldl_append

/-- What a run leaves is what landed of it. -/
theorem after_run (writing : Writing) (policy : PersistPolicy) (breaker : Breaker) (now : Time)
    (backend : Backend) :
    (backend.run policy breaker now writing.call).backend.records.contents =
      backend.records.contents.after (landed [⟨writing,
        (backend.run policy breaker now writing.call).outcome⟩]) := by
  refine (writing.contents_run policy breaker now backend).trans ?_
  split
  · next persisted => simp [landed, persisted, after]
  · next missed => simp [landed, missed, after]

/-- So it is of two runs, one after the other. -/
theorem after_runs (first second : Writing) (policy : PersistPolicy) (breaker : Breaker)
    (now : Time) (backend : Backend) :
    let one := backend.run policy breaker now first.call
    let two := one.backend.run policy one.breaker one.ended second.call
    two.backend.records.contents =
      backend.records.contents.after (landed [⟨first, one.outcome⟩, ⟨second, two.outcome⟩]) := by
  intro one two
  rw [← List.singleton_append, landed_append, after_append,
    ← after_run first policy breaker now backend]
  exact after_run second policy one.breaker one.ended one.backend

/-- What each writing sets or leaves was set by the last one that sets it. -/
theorem get_after {β : Type} (get : Contents → Option β) (set : Writing → Option β)
    (each : ∀ (writing : Writing) (contents : Contents),
      get (writing.effect contents) = (set writing).or (get contents))
    (writings : List Writing) (contents : Contents) :
    get (contents.after writings) = (latest set writings).or (get contents) := by
  induction writings generalizing contents with
  | nil => rfl
  | cons writing writings ih =>
    rw [← List.singleton_append, latest_append, Option.or_assoc]
    refine (ih (writing.effect contents)).trans ?_
    rw [each]
    cases here : set writing <;> simp [latest, here]

/-- Writing nodes leaves a record that is none of a node. -/
theorem getElem?_putNodes_of_ne {key : String} (other : ∀ rest, key ≠ nodePrefix ++ rest)
    (nodes : List Node) (records : Records) : (putNodes nodes records)[key]? = records[key]? := by
  have none : nodes.filter (·.recordKey = key) = [] := by
    refine List.filter_eq_nil_iff.mpr fun node _ => ?_
    obtain ⟨rest, same⟩ := node.exists_rest
    rw [same]
    simpa using (other rest).symm
  rw [getElem?_putNodes, none]
  rfl

/-- Records of nodes are written by their own writings only. -/
theorem record_effect (rest : String) (writing : Writing) (contents : Contents) :
    (writing.effect contents).records[nodePrefix ++ rest]? =
      ((writing.touched.filter (·.recordKey = nodePrefix ++ rest)).getLast?.map (·.text)).or
        contents.records[nodePrefix ++ rest]? := by
  cases writing with
  | nodes changed => exact getElem?_putNodes changed contents.records _
  | status reached entries => exact (getElem?_putRecord ..).trans (if_neg (statusKey_ne rest))
  | assignment given => exact (getElem?_putRecord ..).trans (if_neg (assignmentsKey_ne rest))

/-- The record of a node that stands at a location is that of the last node with its key. -/
theorem record_after {node : Node} (located : node.location?.isSome = true)
    (writings : List Writing) (contents : Contents) :
    (contents.after writings).records[node.recordKey]? =
      ((latest (Writing.node? node.key) writings).map (·.text)).or
        contents.records[node.recordKey]? := by
  obtain ⟨rest, same⟩ := node.exists_rest
  have alike : (fun other : Node => decide (other.recordKey = node.recordKey)) =
      fun other => decide (other.key = node.key) := by
    funext other
    exact decide_eq_decide.mpr (eq_comm.trans ((Node.recordKey_eq_iff located).trans eq_comm))
  have last := get_after (·.records[nodePrefix ++ rest]?) _ (record_effect rest) writings contents
  rw [← same, alike, latest, ← List.map_filterMap, List.getLast?_map] at last
  exact last

/-- A record of a node is the text of a node that was to be written under its key. -/
theorem exists_of_record {rest text : String}
    (recorded : ((after {} writings).records[nodePrefix ++ rest]?) = some text) :
    ∃ writing ∈ writings, ∃ node ∈ writing.touched,
      node.recordKey = nodePrefix ++ rest ∧ node.text = text := by
  have last := get_after (·.records[nodePrefix ++ rest]?) _ (record_effect rest) writings {}
  rw [recorded, Std.ExtTreeMap.getElem?_empty, Option.or_none] at last
  obtain ⟨writing, member, found⟩ := List.mem_filterMap.mp (List.mem_of_getLast? last.symm)
  obtain ⟨node, listed, text⟩ := Option.map_eq_some_iff.mp found
  obtain ⟨inside, key⟩ := List.mem_filter.mp (List.mem_of_getLast? listed)
  exact ⟨writing, member, node, inside, by simpa using key, text⟩

/-- The record of the status is that of the last status. -/
theorem status_after (writings : List Writing) (contents : Contents) :
    (contents.after writings).records[statusKey]? =
      (latest Writing.statusText? writings).or contents.records[statusKey]? := by
  have each : ∀ (writing : Writing) (contents : Contents),
      (writing.effect contents).records[statusKey]? =
        writing.statusText?.or contents.records[statusKey]? := by
    intro writing contents
    cases writing with
    | nodes changed => exact getElem?_putNodes_of_ne statusKey_ne changed contents.records
    | status reached entries => exact (getElem?_putRecord ..).trans (if_pos rfl)
    | assignment given => exact (getElem?_putRecord ..).trans (if_neg (by decide))
  exact get_after (·.records[statusKey]?) _ each writings contents

/-- The assignment of a client is the last one of the client. -/
theorem assignment_after (client : String) (writings : List Writing) (contents : Contents) :
    (contents.after writings).assignments[client]? =
      (latest (Writing.assignment? client) writings).or contents.assignments[client]? := by
  refine get_after (·.assignments[client]?) _ (fun writing contents => ?_) writings contents
  cases writing with
  | nodes changed => rfl
  | status reached entries => rfl
  | assignment given =>
    have inserted := Std.ExtTreeMap.getElem?_insert (t := contents.assignments) (k := given.client)
      (a := client) (v := given)
    refine inserted.trans ?_
    by_cases here : given.client = client <;>
      simp [Writing.assignment?, here]

/-- The record that lists assignments is written whenever one of them is. -/
theorem listing_after {client : String} {assignment : Assignment}
    (given : (after {} writings).assignments[client]? = some assignment) :
    (after {} writings).records[assignmentsKey]? = some (after {} writings).listing := by
  induction writings using List.reverseRecOn with
  | nil => cases given
  | append_singleton writings writing ih =>
    rw [after_append] at given ⊢
    cases writing with
    | nodes changed => exact (getElem?_putNodes_of_ne assignmentsKey_ne ..).trans (ih given)
    | status reached entries =>
      exact (getElem?_putRecord ..).trans ((if_neg (by decide)).trans (ih given))
    | assignment other => exact (getElem?_putRecord ..).trans (if_pos rfl)

end Contents

end FleetRing
