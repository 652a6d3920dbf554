import FleetRing.Persist.Records
import FleetRing.Proofs.Store.Inventory
import Mathlib

/-!
# Keys of node records

The key of a node record joins the id, the raw region and the raw partition of the node with dots.
Ids are free, so an id may hold dots and digits itself. The numbers may not, and they come last:
read from the end, a key falls apart in one way only. So nodes that stand at a location share a
record exactly when they share id and location (`Node.recordKey_eq_iff`).
-/

namespace FleetRing

/-- What all keys of node records begin with. -/
def nodePrefix : String := "MinNode."

/-- The text of a number has no dot. -/
theorem dot_notMem_toString (number : Int) : '.' ∉ (toString number).toList := by
  have digits : ∀ amount : Nat, '.' ∉ (Nat.repr amount).toList := by
    intro amount member
    rw [Nat.toList_repr] at member
    exact absurd (Nat.isDigit_of_mem_toDigits (by decide) (by decide) member) (by decide)
  cases number with
  | ofNat amount => exact digits amount
  | negSucc amount =>
    have text : (toString (Int.negSucc amount)).toList = '-' :: (Nat.repr (amount + 1)).toList := by
      change ("-" ++ Nat.repr (amount + 1)).toList = _
      rw [String.toList_append]
      rfl
    rw [text, List.mem_cons, not_or]
    exact ⟨by decide, digits (amount + 1)⟩

/-- Two lists that are cut at the first occurrence of an item are cut alike. -/
theorem cut_inj {α : Type} {item : α} {front other back rest : List α} (free : item ∉ front)
    (otherFree : item ∉ other) (same : front ++ item :: back = other ++ item :: rest) :
    front = other ∧ back = rest := by
  induction front generalizing other with
  | nil =>
    cases other with
    | nil => exact ⟨rfl, (List.cons.inj same).2⟩
    | cons first other => exact absurd ((List.cons.inj same).1 ▸ List.mem_cons_self) otherFree
  | cons first front ih =>
    cases other with
    | nil => exact absurd ((List.cons.inj same).1 ▸ List.mem_cons_self) free
    | cons second other =>
      obtain ⟨rfl, tails⟩ := List.cons.inj same
      obtain ⟨rfl, rests⟩ := ih (fun member => free (List.mem_cons_of_mem _ member))
        (fun member => otherFree (List.mem_cons_of_mem _ member)) tails
      exact ⟨rfl, rests⟩

/-- A text falls apart at its last dot. -/
theorem append_dot_inj {front other back rest : String} (plain : '.' ∉ back.toList)
    (otherPlain : '.' ∉ rest.toList) (same : front ++ "." ++ back = other ++ "." ++ rest) :
    front = other ∧ back = rest := by
  have lists := congrArg (fun text : String => text.toList.reverse) same
  have dot : ".".toList = ['.'] := rfl
  simp only [String.toList_append, List.reverse_append, dot, List.reverse_singleton,
    List.singleton_append] at lists
  obtain ⟨backs, fronts⟩ := cut_inj (by simpa using plain) (by simpa using otherPlain) lists
  exact ⟨String.toList_inj.mp (List.reverse_inj.mp fronts),
    String.toList_inj.mp (List.reverse_inj.mp backs)⟩

/-- A text that begins otherwise is no key of a node. -/
theorem ne_prefix_append {text : String} (begins : text.toList.head? ≠ some 'M') (rest : String) :
    text ≠ nodePrefix ++ rest := by
  rintro rfl
  rw [String.toList_append, List.head?_append_of_ne_nil _ (by decide)] at begins
  exact begins (by decide)

namespace Node

variable {first second : Node}

/-- Nodes share a record exactly when they share the id and both raw numbers. -/
theorem recordKey_inj : first.recordKey = second.recordKey ↔
    first.id = second.id ∧ first.placement.region = second.placement.region ∧
      first.placement.partition = second.placement.partition := by
  constructor
  · intro same
    obtain ⟨fronts, partitions⟩ :=
      append_dot_inj (dot_notMem_toString _) (dot_notMem_toString _) same
    obtain ⟨ids, regions⟩ :=
      append_dot_inj (dot_notMem_toString _) (dot_notMem_toString _) fronts
    exact ⟨(String.append_right_inj nodePrefix).mp ids,
      Int32.toInt_inj.mp (Int.repr_inj.mp regions),
      Int32.toInt_inj.mp (Int.repr_inj.mp partitions)⟩
  · rintro ⟨id, region, partition⟩
    simp only [recordKey, id, region, partition]

/-- Nodes that stand at a location share a record exactly when they share id and location. -/
theorem recordKey_eq_iff (located : first.location?.isSome = true) :
    first.recordKey = second.recordKey ↔ first.key = second.key := by
  rw [recordKey_inj, key, key, Prod.mk.injEq]
  refine and_congr_right fun _ => ⟨?_, fun same => ?_⟩
  · rintro ⟨region, partition⟩
    rw [location?, location?, region, partition]
  · obtain ⟨location, found⟩ := Option.isSome_iff_exists.mp located
    obtain ⟨region, partition⟩ := Location.index_of_ofRaw? found
    obtain ⟨otherRegion, otherPartition⟩ := Location.index_of_ofRaw? (same.symm.trans found)
    exact ⟨Int32.toInt_inj.mp (region.symm.trans otherRegion),
      Int32.toInt_inj.mp (partition.symm.trans otherPartition)⟩

/-- The key of a record begins as those of all nodes do. -/
theorem exists_rest (node : Node) : ∃ rest, node.recordKey = nodePrefix ++ rest :=
  ⟨node.id ++ "." ++ toString node.placement.region.toInt ++ "." ++
    toString node.placement.partition.toInt, by
      simp only [recordKey, nodePrefix, String.append_assoc]⟩

end Node

/-- It is not the key of the status, -/
theorem statusKey_ne (rest : String) : RecordStore.statusKey ≠ nodePrefix ++ rest :=
  ne_prefix_append (by decide) rest

/-- nor that of the assignments. -/
theorem assignmentsKey_ne (rest : String) : RecordStore.assignmentsKey ≠ nodePrefix ++ rest :=
  ne_prefix_append (by decide) rest

end FleetRing
