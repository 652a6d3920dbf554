/-!
# First-in first-out queues

Two lists make a queue whose operations take constant time on average: items
leave at the front of one and enter at the front of the other. `toList` is the
order of leaving; every operation is described by what it does to it.
-/

namespace FleetRing

/-- A queue of items. -/
structure Fifo (α : Type) where
  front : List α
  back : List α
  size : Nat
  size_eq : size = front.length + back.length
  deriving DecidableEq

namespace Fifo

variable {α : Type}

/-- The queue without items. -/
def empty : Fifo α :=
  ⟨[], [], 0, rfl⟩

instance : Inhabited (Fifo α) := ⟨empty⟩

/-- A queue of the items of a list, the first one in front. -/
def ofList (items : List α) : Fifo α :=
  ⟨items, [], items.length, rfl⟩

/-- The items in the order in which they leave. -/
def toList (queue : Fifo α) : List α :=
  queue.front ++ queue.back.reverse

/-- Add an item at the end. -/
def push (queue : Fifo α) (item : α) : Fifo α where
  front := queue.front
  back := item :: queue.back
  size := queue.size + 1
  size_eq := by
    have := queue.size_eq
    simp only [List.length_cons]
    omega

/-- The first item and the queue behind it. -/
def pop? (queue : Fifo α) : Option (α × Fifo α) :=
  match queue with
  | ⟨item :: front, back, size, size_eq⟩ =>
    some (item, ⟨front, back, size - 1, by simp only [List.length_cons] at size_eq; omega⟩)
  | ⟨[], back, size, size_eq⟩ =>
    match reversed : back.reverse with
    | [] => none
    | item :: front =>
      some (item, ⟨front, [], size - 1, by
        have := congrArg List.length reversed
        simp only [List.length_reverse, List.length_cons, List.length_nil] at this size_eq ⊢
        omega⟩)

/-- Is there no item? -/
def isEmpty (queue : Fifo α) : Bool :=
  queue.size == 0

@[simp]
theorem toList_empty : (empty : Fifo α).toList = [] := rfl

@[simp]
theorem toList_ofList (items : List α) : (ofList items).toList = items := by
  simp [ofList, toList]

@[simp]
theorem toList_push (queue : Fifo α) (item : α) :
    (queue.push item).toList = queue.toList ++ [item] := by
  simp [push, toList]

theorem size_eq_length (queue : Fifo α) : queue.size = queue.toList.length := by
  simp [toList, queue.size_eq]

theorem pop?_eq_some {queue rest : Fifo α} {item : α} (popped : queue.pop? = some (item, rest)) :
    queue.toList = item :: rest.toList := by
  obtain ⟨front, back, size, size_eq⟩ := queue
  cases front with
  | cons first front =>
    simp only [pop?, Option.some.injEq, Prod.mk.injEq] at popped
    obtain ⟨rfl, rfl⟩ := popped
    simp [toList]
  | nil =>
    simp only [pop?] at popped
    split at popped
    · simp at popped
    · next reversed =>
      simp only [Option.some.injEq, Prod.mk.injEq] at popped
      obtain ⟨rfl, rfl⟩ := popped
      simp [toList, reversed]

theorem pop?_eq_none {queue : Fifo α} : queue.pop? = none ↔ queue.toList = [] := by
  obtain ⟨front, back, size, size_eq⟩ := queue
  cases front with
  | cons first front => simp [pop?, toList]
  | nil =>
    simp only [pop?]
    split
    · next reversed => simp [toList, reversed]
    · next reversed => simp [toList, reversed]

end Fifo

end FleetRing
