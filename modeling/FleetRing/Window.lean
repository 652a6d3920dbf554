import FleetRing.Error

/-!
# Retained windows

A window keeps the last `capacity` items that were pushed. Items are numbered by
the order of pushing; `start` is the number of the oldest one still kept, `stop`
the number of the next one to come, and item `i` lies in slot `i % capacity`.
When versions do not decrease from push to push, `since` finds the first item
above a version by bisection.
-/

namespace FleetRing

/-- The last items pushed, in slots that are used in turn. -/
structure Window (α : Type) where
  capacity : Nat
  slots : Array α
  start : Nat
  stop : Nat
  deriving DecidableEq, Repr

namespace Window

variable {α : Type}

/-- How many items a window keeps unless told otherwise. -/
def defaultCapacity : Nat := 10000

/-- A window without items; it keeps at least one. -/
def ofCapacity (capacity : Nat) : Window α :=
  ⟨max capacity 1, #[], 0, 0⟩

instance : Inhabited (Window α) := ⟨ofCapacity defaultCapacity⟩

/-- The number of items kept. -/
def size (window : Window α) : Nat :=
  window.stop - window.start

/-- Add an item; a full window gives up its oldest one. -/
def push (window : Window α) (item : α) : Window α :=
  match window with
  | ⟨capacity, slots, start, stop⟩ =>
    let start := if stop - start = capacity then start + 1 else start
    let slot := stop % capacity
    if inside : slot < slots.size then ⟨capacity, slots.set slot item, start, stop + 1⟩
    else ⟨capacity, slots.push item, start, stop + 1⟩

/-- The item with a number, if its slot is in use. -/
def at? (window : Window α) (index : Nat) : Option α :=
  window.slots[index % window.capacity]?

/-- The items from a number on. -/
def itemsFrom (window : Window α) (index : Nat) : List α :=
  (List.range' index (window.stop - index)).filterMap window.at?

/-- All items kept, the oldest one first. -/
def toList (window : Window α) : List α :=
  window.itemsFrom window.start

/-- The items from a number on, when the number is that of an item kept or of the next one. -/
def from? (window : Window α) (index : Nat) : Except Error (List α) :=
  if index < window.start ∨ window.stop < index then
    .error (.indexOutOfRange index window.start window.stop)
  else .ok (window.itemsFrom index)

/-- The first number from `low` on, and at most `high`, for which the test holds, when
it holds for every number behind one for which it holds. -/
def bisect (test : Nat → Bool) (low high : Nat) : Nat :=
  if low < high then
    let middle := low + (high - low) / 2
    if test middle then bisect test low middle else bisect test (middle + 1) high
  else low
termination_by high - low

section Versions

variable [Versioned α]

/-- Does the item with a number have a version above the given one? -/
def isAbove (window : Window α) (version : Version) (index : Nat) : Bool :=
  match window.at? index with
  | some item => decide (version < Versioned.versionOf item)
  | none => false

/-- The number of the first item above a version, when nothing above it has been given
up and there is such an item. -/
def indexSince (window : Window α) (version : Version) : Except Error Nat :=
  if window.start = window.stop then .error .emptyWindow
  else
    match window.at? window.start with
    | none => .error .emptyWindow
    | some oldest =>
      if version < Versioned.versionOf oldest then
        .error (.versionTooOld version (Versioned.versionOf oldest))
      else
        let index := bisect (window.isAbove version) window.start window.stop
        if index = window.stop then .error .nothingNewer else .ok index

/-- The items above a version; none, if there is nothing newer. -/
def since (window : Window α) (version : Version) : Except Error (List α) :=
  match window.indexSince version with
  | .ok index => window.from? index
  | .error .nothingNewer => .ok []
  | .error error => .error error

end Versions

end Window

end FleetRing
