import FleetRing.Proofs.Window.Lookup

/-!
# A window as a log

Everything that was ever pushed to a window makes a list that only grows. The window shows the end
of that list under numbers that never change, although its slots are first added and then written
over in turn. `Views` says so for its bounds, its slots and its copies.

Reads are carried out here with an eye on the slots: a read that looks into one that is not in use
breaks off. `refines_log` says that no read ever does, however pushes and reads follow each other,
and that the answers are those of the list.
-/

namespace FleetRing

namespace Window

section Reads

variable {α : Type}

/-- Bisection by a test that may break off. -/
def bisect? (test : Nat → Option Bool) (low high : Nat) : Option Nat :=
  if low < high then
    let middle := low + (high - low) / 2
    match test middle with
    | none => none
    | some true => bisect? test low middle
    | some false => bisect? test (middle + 1) high
  else some low
termination_by high - low

/-- Copy the items from a number on, slot by slot. -/
def copy? (window : Window α) (index : Nat) : Option (Except Error (List α)) :=
  if index < window.start ∨ window.stop < index then
    some (.error (.indexOutOfRange index window.start window.stop))
  else ((List.range' index (window.stop - index)).mapM window.at?).map .ok

variable [Versioned α]

/-- Look up the number of the first item above a version. -/
def search? (window : Window α) (version : Version) : Option (Except Error Nat) :=
  if window.start = window.stop then some (.error .emptyWindow)
  else
    match window.at? window.start with
    | none => none
    | some oldest =>
      if version < Versioned.versionOf oldest then
        some (.error (.versionTooOld version (Versioned.versionOf oldest)))
      else
        let above (index : Nat) : Option Bool :=
          (window.at? index).map fun item => decide (version < Versioned.versionOf item)
        (bisect? above window.start window.stop).map fun index =>
          if index = window.stop then .error .nothingNewer else .ok index

/-- Copy the items above a version. -/
def copySince? (window : Window α) (version : Version) : Option (Except Error (List α)) :=
  match window.search? version with
  | none => none
  | some (.ok index) => window.copy? index
  | some (.error .nothingNewer) => some (.ok [])
  | some (.error error) => some (.error error)

end Reads

/-- Bisection tests no number outside its bounds. -/
theorem bisect?_eq {attempt : Nat → Option Bool} {test : Nat → Bool} {low high : Nat}
    (within : ∀ i, low ≤ i → i < high → attempt i = some (test i)) :
    bisect? attempt low high = some (bisect test low high) := by
  fun_induction bisect test low high with
  | case1 low high wide middle holds ih =>
    have tested : attempt (low + (high - low) / 2) = some true :=
      (within middle (by omega) (by omega)).trans (congrArg some holds)
    rw [bisect?, if_pos wide]
    simp only [tested]
    exact ih fun i lower upper => within i lower (by omega)
  | case2 low high wide middle fails ih =>
    have tested : attempt (low + (high - low) / 2) = some false :=
      (within middle (by omega) (by omega)).trans (congrArg some (by simpa using fails))
    rw [bisect?, if_pos wide]
    simp only [tested]
    exact ih fun i lower upper => within i (by omega) upper
  | case3 low high closed => rw [bisect?, if_neg closed]

/-- Items that are all there are all found. -/
theorem mapM_eq_filterMap {ι β : Type} {find : ι → Option β} {asked : List ι}
    (each : ∀ item ∈ asked, (find item).isSome = true) :
    asked.mapM find = some (asked.filterMap find) := by
  induction asked with
  | nil => rfl
  | cons item asked ih =>
    obtain ⟨found, here⟩ := Option.isSome_iff_exists.mp (each item List.mem_cons_self)
    have rest := ih fun other member => each other (List.mem_cons_of_mem item member)
    simp [here, rest]

namespace Retains

variable {α : Type} {window : Window α} {items : List α}

/-- Every number within the bounds is that of a slot in use. -/
theorem isSome_at? (retained : window.Retains items) {index : Nat} (lower : window.start ≤ index)
    (upper : index < window.stop) : (window.at? index).isSome = true := by
  have bound : index < items.length := retained.stop_eq ▸ upper
  rw [retained.at_eq index lower upper, List.getElem?_eq_getElem bound]
  rfl

/-- Copying does not break off, wherever it starts. -/
theorem copy?_eq (retained : window.Retains items) (index : Nat) :
    window.copy? index = some (window.from? index) := by
  unfold copy? from?
  split
  · rfl
  · next within =>
    have each : ∀ i ∈ List.range' index (window.stop - index), (window.at? i).isSome = true := by
      intro i member
      obtain ⟨lower, upper⟩ := List.mem_range'_1.mp member
      exact retained.isSome_at? (by omega) (by omega)
    rw [mapM_eq_filterMap each]
    rfl

variable [Versioned α]

/-- Neither does a look-up, whatever the versions are. -/
theorem search?_eq (retained : window.Retains items) (version : Version) :
    window.search? version = some (window.indexSince version) := by
  unfold search? indexSince
  split
  · rfl
  · next occupied =>
    have ordered := retained.start_le_stop
    obtain ⟨oldest, first⟩ := Option.isSome_iff_exists.mp
      (retained.isSome_at? (Nat.le_refl window.start) (by omega))
    simp only [first]
    split
    · rfl
    · have within : ∀ i, window.start ≤ i → i < window.stop →
          ((window.at? i).map fun item => decide (version < Versioned.versionOf item)) =
            some (window.isAbove version i) := by
        intro i lower upper
        obtain ⟨item, found⟩ := Option.isSome_iff_exists.mp (retained.isSome_at? lower upper)
        simp [isAbove, found]
      rw [bisect?_eq within]
      rfl

theorem copySince?_eq (retained : window.Retains items) (version : Version) :
    window.copySince? version = some (window.since version) := by
  simp only [copySince?, since, retained.search?_eq]
  cases window.indexSince version with
  | ok index => exact retained.copy?_eq index
  | error error => cases error <;> rfl

end Retains

section Log

variable {α : Type}

/-- The number of the oldest item that is kept of a log. -/
def firstKept (capacity : Nat) (items : List α) : Nat :=
  items.length - min items.length (max capacity 1)

/-- What is answered when the items of a log are copied from a number on. -/
def copyOf (capacity : Nat) (items : List α) (index : Nat) : Except Error (List α) :=
  if firstKept capacity items ≤ index ∧ index ≤ items.length then .ok (items.drop index)
  else .error (.indexOutOfRange index (firstKept capacity items) items.length)

/-- A window shows the end of a log, as much of it as fits. -/
structure Views (capacity : Nat) (items : List α) (window : Window α) : Prop where
  start : window.start = firstKept capacity items
  stop : window.stop = items.length
  size : window.size = min items.length (max capacity 1)
  size_le : window.size ≤ max capacity 1
  /-- There are as many slots as items are kept. -/
  slots : window.slots.size = window.size
  /-- Exactly the numbers between the bounds are answered, with all that was pushed from there. -/
  copies : ∀ index, window.from? index = copyOf capacity items index

/-- A window that retains a log shows it. -/
theorem Retains.views {capacity : Nat} {items : List α} {window : Window α}
    (retained : window.Retains items) (fits : window.capacity = max capacity 1) :
    Views capacity items window := by
  have start_eq : window.start = firstKept capacity items := by
    have := retained.start_eq
    simp only [firstKept]
    omega
  have size_eq : window.size = min items.length (max capacity 1) := fits ▸ retained.size_eq
  refine {
    start := start_eq
    stop := retained.stop_eq
    size := size_eq
    size_le := by omega
    slots := by rw [retained.slots_size, fits, size_eq]
    copies := fun index => ?_ }
  have stop_eq := retained.stop_eq
  rw [copyOf, ← start_eq, ← stop_eq]
  unfold from?
  by_cases inside : window.start ≤ index ∧ index ≤ window.stop
  · have within : ¬ (index < window.start ∨ window.stop < index) := by omega
    rw [if_neg within, if_pos inside, retained.itemsFrom_eq inside.1]
  · have outside : index < window.start ∨ window.stop < index := by omega
    rw [if_pos outside, if_neg inside]

end Log

/-- What is done with a window. -/
inductive Access (α : Type) where
  | push (item : α)
  | copy (index : Nat)
  | search (version : Version)
  | copySince (version : Version)

/-- What is answered. -/
inductive Answer (α : Type) where
  | pushed
  | copied (items : Except Error (List α))
  | found (index : Except Error Nat)

section Accesses

variable {α : Type} [Versioned α]

/-- One access, with its answer. Only a push changes the window, and only a read may break off. -/
def access? (window : Window α) : Access α → Option (Answer α × Window α)
  | .push item => some (.pushed, window.push item)
  | .copy index => (window.copy? index).map fun items => (.copied items, window)
  | .search version => (window.search? version).map fun index => (.found index, window)
  | .copySince version => (window.copySince? version).map fun items => (.copied items, window)

/-- One access after the other, with all answers. -/
def accessAll? : Window α → List (Access α) → Option (List (Answer α) × Window α)
  | window, [] => some ([], window)
  | window, access :: accesses =>
    match window.access? access with
    | none => none
    | some (answer, next) =>
      (accessAll? next accesses).map fun rest => (answer :: rest.1, rest.2)

/-- What an access adds to the log. -/
def Access.item? {α : Type} : Access α → Option α
  | push item => some item
  | copy _ | search _ | copySince _ => none

/-- What a log answers. Of look-ups this only says that they depend on nothing but the log; what
they find there is said by `LooksUp`. -/
def Access.answer (capacity : Nat) (items : List α) : Access α → Answer α
  | push _ => .pushed
  | copy index => .copied (copyOf capacity items index)
  | search version => .found ((ofPushes capacity items).indexSince version)
  | copySince version => .copied ((ofPushes capacity items).since version)

/-- What a growing log answers to one access after the other. -/
def answers (capacity : Nat) : List α → List (Access α) → List (Answer α)
  | _, [] => []
  | items, access :: accesses =>
    access.answer capacity items :: answers capacity (items ++ access.item?.toList) accesses

variable {capacity : Nat}

/-- One access of a window that shows a log is answered by the log, and adds to it. -/
theorem access?_ofPushes (items : List α) (access : Access α) :
    (ofPushes capacity items).access? access =
      some (access.answer capacity items, ofPushes capacity (items ++ access.item?.toList)) := by
  obtain ⟨fits, retained⟩ := retains_ofPushes capacity items
  cases access with
  | push item => simp [access?, Access.answer, Access.item?, ofPushes]
  | copy index =>
    simp [access?, Access.answer, Access.item?, retained.copy?_eq, (retained.views fits).copies]
  | search version => simp [access?, Access.answer, Access.item?, retained.search?_eq]
  | copySince version => simp [access?, Access.answer, Access.item?, retained.copySince?_eq]

/-- So are all of them, one after the other. -/
theorem accessAll?_ofPushes (items : List α) (accesses : List (Access α)) :
    (ofPushes capacity items).accessAll? accesses =
      some (answers capacity items accesses,
        ofPushes capacity (items ++ accesses.filterMap Access.item?)) := by
  induction accesses generalizing items with
  | nil => simp [accessAll?, answers]
  | cons access accesses ih =>
    simp only [accessAll?, access?_ofPushes, ih, Option.map_some, answers, List.append_assoc]
    cases pushes : access.item? <;> simp [pushes]

/-- However pushes and reads follow each other, no read of a window breaks off, all answers are
those of the log of what had been pushed, and in the end the window shows that log. -/
theorem refines_log (capacity : Nat) (accesses : List (Access α)) :
    ∃ window, (ofCapacity capacity).accessAll? accesses =
        some (answers capacity [] accesses, window) ∧
      Views capacity (accesses.filterMap Access.item?) window := by
  obtain ⟨fits, retained⟩ := retains_ofPushes capacity (accesses.filterMap Access.item?)
  exact ⟨_, accessAll?_ofPushes [] accesses, retained.views fits⟩

end Accesses

end Window

end FleetRing
