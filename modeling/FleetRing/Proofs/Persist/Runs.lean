import FleetRing.Persist.Backend

/-!
# What a persistence run writes

A run is made for one `Writing`. Attempts that do not succeed write nothing, and a run stops at the
first one that does. So what a run leaves in the store follows from how it ended: the whole effect
of its writing, once, if it ended persisted, and nothing at all otherwise (`Writing.contents_run`),
however many attempts were refused before and whether the breaker was open or not.
-/

namespace FleetRing

namespace Backend

/-- Attempts leave it as it is in which order versions are written. -/
theorem arrangement_makeAttempts (write : RecordStore → Bool × RecordStore) (limit made : Nat)
    (elapsed : Time) (backend : Backend) :
    (PersistPolicy.makeAttempts (attempt write) limit made elapsed backend).backend.arrangement =
      backend.arrangement := by
  induction limit generalizing made elapsed backend with
  | zero => rfl
  | succ limit ih =>
    have kept : (backend.attempt write).2.arrangement = backend.arrangement := rfl
    unfold PersistPolicy.makeAttempts
    generalize backend.attempt write = answer at kept ⊢
    obtain ⟨⟨ending, took⟩, after⟩ := answer
    cases ending with
    | succeeded | crashed | hung => exact kept
    | refused => exact (ih (made + 1) (elapsed + took) after).trans kept

/-- So do runs. -/
theorem arrange_run (backend : Backend) (policy : PersistPolicy) (breaker : Breaker) (now : Time)
    (write : RecordStore → Bool × RecordStore) :
    (backend.run policy breaker now write).backend.arrange = backend.arrange := by
  have kept : (backend.run policy breaker now write).backend.arrangement = backend.arrangement := by
    unfold run PersistPolicy.run
    dsimp only
    split
    · rfl
    · exact arrangement_makeAttempts write policy.retryLimit 0 0 backend.wait.2
  funext status
  rw [arrange, kept, arrange]

end Backend

/-- Records by key. -/
abbrev Records := Std.ExtTreeMap String String

/-- What is stored, apart from the calls that were made. -/
structure Contents where
  records : Records := ∅
  assignments : Std.ExtTreeMap String Assignment := ∅

/-- The text that lists the stores of all clients. -/
def Contents.listing (contents : Contents) : String :=
  RecordStore.assignmentsText { assignments := contents.assignments }

namespace RecordStore

/-- What a record store holds. -/
def contents (store : RecordStore) : Contents :=
  ⟨store.records, store.assignments⟩

/-- One record is written, under its key. -/
def putRecord (key text : String) (records : Records) : Records :=
  records.insert key text

/-- Nodes are written one by one, each under its key. -/
def putNodes (nodes : List Node) (records : Records) : Records :=
  nodes.foldl (fun records node => putRecord node.recordKey node.text records) records

theorem getElem?_putRecord (key text asked : String) (records : Records) :
    (putRecord key text records)[asked]? = if key = asked then some text else records[asked]? := by
  simp [putRecord, Std.ExtTreeMap.getElem?_insert]

theorem putNodes_append (first second : List Node) (records : Records) :
    putNodes (first ++ second) records = putNodes second (putNodes first records) :=
  List.foldl_append

/-- A record holds the last node that was written under its key, and stays if there is none. -/
theorem getElem?_putNodes (nodes : List Node) (records : Records) (key : String) :
    (putNodes nodes records)[key]? =
      ((nodes.filter (·.recordKey = key)).getLast?.map (·.text)).or records[key]? := by
  induction nodes generalizing records with
  | nil => rfl
  | cons node nodes ih =>
    refine (ih (putRecord node.recordKey node.text records)).trans ?_
    rw [getElem?_putRecord]
    by_cases here : node.recordKey = key
    · rw [if_pos here, List.filter_cons_of_pos (by simpa using here), List.getLast?_cons]
      cases (nodes.filter (·.recordKey = key)).getLast? <;> rfl
    · rw [if_neg here, List.filter_cons_of_neg (by simpa using here)]

/-- Nodes that are put into a record store are written to its records. -/
theorem contents_putNodes (nodes : List Node) (store : RecordStore) :
    (nodes.foldl (fun store node => store.put node.recordKey node.text) store).contents =
      { store.contents with records := putNodes nodes store.contents.records } := by
  induction nodes generalizing store with
  | nil => rfl
  | cons node nodes ih => exact ih _

end RecordStore

/-- What a persistence call is to write. -/
inductive Writing where
  | nodes (nodes : List Node)
  /-- A status, with its versions in some order. -/
  | status (status : StoreStatus) (entries : List (Location × Version))
  | assignment (assignment : Assignment)

namespace Writing

open RecordStore

/-- The call that is made for it. -/
def call : Writing → RecordStore → Bool × RecordStore
  | .nodes changed => persistNodes changed
  | .status reached entries => persistStatusIn entries reached
  | .assignment given => persistAssignment given

/-- What it makes of what is stored. -/
def effect : Writing → Contents → Contents
  | .nodes changed, contents => { contents with records := putNodes changed contents.records }
  | .status reached entries, contents =>
    { contents with records := putRecord statusKey (reached.textOf entries) contents.records }
  | .assignment given, contents =>
    let assigned := { contents with
      assignments := contents.assignments.insert given.client given }
    { assigned with records := putRecord assignmentsKey assigned.listing assigned.records }

/-- A call that may write has its effect, and any other one has none. -/
theorem contents_call (writing : Writing) (store : RecordStore) :
    (writing.call store).2.contents =
      if (writing.call store).1 = true then writing.effect store.contents else store.contents := by
  obtain ⟨records, assignments, failNext, attempts⟩ := store
  cases failNext with
  | zero =>
    cases writing with
    | nodes changed => exact contents_putNodes changed _
    | status | assignment => rfl
  | succ failNext => cases writing <;> rfl

/-- An attempt that succeeds has the effect of its call, and any other one has none. -/
theorem contents_attempt (writing : Writing) (backend : Backend) :
    (backend.attempt writing.call).2.records.contents =
      if (backend.attempt writing.call).1.ending = .succeeded then
        writing.effect backend.records.contents
      else backend.records.contents := by
  have gone : ∀ script (store : RecordStore),
      (Backend.answer.written script (writing.call store)).2.2.contents =
        if (Backend.answer.written script (writing.call store)).1 = .succeeded then
          writing.effect store.contents
        else store.contents := by
    intro script store
    have written := writing.contents_call store
    generalize writing.call store = called at written ⊢
    obtain ⟨done, after⟩ := called
    cases done with
    | true => exact written
    | false => exact written
  obtain ⟨script, store, pace, arrangement⟩ := backend
  cases script with
  | nil => exact gone [] store
  | cons word script =>
    cases word with
    | proceed => exact gone script store
    | refuse => rfl
    | crash => rfl
    | stall => rfl

/-- Attempts have the effect once if one of them succeeds, and otherwise not at all. -/
theorem contents_makeAttempts (writing : Writing) (limit made : Nat) (elapsed : Time)
    (backend : Backend) :
    (PersistPolicy.makeAttempts (Backend.attempt writing.call) limit made elapsed
        backend).backend.records.contents =
      if (PersistPolicy.makeAttempts (Backend.attempt writing.call) limit made elapsed
          backend).outcome = .persisted then
        writing.effect backend.records.contents
      else backend.records.contents := by
  induction limit generalizing made elapsed backend with
  | zero => rfl
  | succ limit ih =>
    have wrote := writing.contents_attempt backend
    unfold PersistPolicy.makeAttempts
    generalize backend.attempt writing.call = answer at wrote ⊢
    obtain ⟨⟨ending, took⟩, after⟩ := answer
    cases ending with
    | succeeded => exact wrote
    | crashed => exact wrote
    | hung => exact wrote
    | refused =>
      have kept : after.records.contents = backend.records.contents := wrote
      rw [← kept]
      exact ih (made + 1) (elapsed + took) after

/-- A run that ends persisted has the effect of its writing, and any other run has none. -/
theorem contents_run (writing : Writing) (policy : PersistPolicy) (breaker : Breaker) (now : Time)
    (backend : Backend) :
    (backend.run policy breaker now writing.call).backend.records.contents =
      if (backend.run policy breaker now writing.call).outcome = .persisted then
        writing.effect backend.records.contents
      else backend.records.contents := by
  unfold Backend.run PersistPolicy.run
  dsimp only
  split
  · rfl
  · exact writing.contents_makeAttempts policy.retryLimit 0 0 backend.wait.2

/-- A run that ends persisted has the effect of its writing. -/
theorem contents_of_persisted (writing : Writing) (policy : PersistPolicy) (breaker : Breaker)
    (now : Time) (backend : Backend)
    (persisted : (backend.run policy breaker now writing.call).outcome = .persisted) :
    (backend.run policy breaker now writing.call).backend.records.contents =
      writing.effect backend.records.contents :=
  (writing.contents_run policy breaker now backend).trans (if_pos persisted)

end Writing

end FleetRing
