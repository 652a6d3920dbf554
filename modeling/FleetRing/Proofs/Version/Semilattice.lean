import FleetRing.Proofs.Chained
import FleetRing.Proofs.Version.Collects
import Mathlib.Data.List.Nodup
import Mathlib.Order.BoundedOrder.Lattice

/-!
# Version maps as a join semilattice

Merging two maps gives the least map above both (`merge_le_iff`), so the laws of merging are
those of a join, with the empty map at the bottom. They hold whichever order the entries of a map
come in (`Enumerates`), and however observations and merges follow each other (`Write`): what a
map comes to is what it held and the set of pairs that were written to it.
-/

namespace FleetRing

namespace VersionMap

variable {map other bound later : VersionMap} {location : Location}
  {entries pairs more written : List (Location × Version)}

/-- Up to the order, there is one such list. -/
theorem enumerates_iff_perm : map.Enumerates entries ↔ entries.Perm map.toList := by
  constructor
  · intro all
    refine (List.perm_ext_iff_of_nodup (.of_map Prod.fst all.once)
      (.of_map Prod.fst map.nodup_fst_toList)).mpr ?_
    rintro ⟨location, version⟩
    rw [all.mem_iff, mem_toList]
  · intro same
    refine ⟨(same.map Prod.fst).nodup_iff.mpr map.nodup_fst_toList, fun location version => ?_⟩
    rw [same.mem_iff, mem_toList]

instance : Decidable (map.Enumerates entries) :=
  decidable_of_iff _ enumerates_iff_perm.symm

/-- The locations that come are those of the map. -/
theorem Enumerates.mem_fst_iff (all : map.Enumerates entries) :
    location ∈ entries.map Prod.fst ↔ location ∈ map.locations := by
  rw [← map.fst_toList]
  exact ((enumerates_iff_perm.mp all).map Prod.fst).mem_iff

/-- Something comes when the map has an entry. -/
theorem Enumerates.isEmpty_eq_false (all : map.Enumerates entries) (nonempty : map.toList ≠ []) :
    entries.isEmpty = false := by
  rw [(enumerates_iff_perm.mp all).isEmpty_eq]
  exact List.isEmpty_eq_false_iff.mpr nonempty

/-- A map collects its own entries, in whichever order they come. -/
theorem Enumerates.collects (all : map.Enumerates entries) : map.Collects entries where
  le location version member :=
    ⟨version, (all.mem_iff location version).mp member, UInt64.le_refl version⟩
  mem location held found := (all.mem_iff location held).mpr found

/-- So merging a map is to observe its entries in any order. -/
theorem Enumerates.observeAll_eq_merge (all : other.Enumerates entries) (map : VersionMap) :
    map.observeAll entries = map.merge other :=
  ((Collects.toList map).observeAll entries).unique
    ((Collects.toList map).merge all.collects) fun _ => Iff.rfl

/-- What is above a merged map is above both maps. -/
theorem merge_le_iff : map.merge other ≤ bound ↔ map ≤ bound ∧ other ≤ bound := by
  rw [((Collects.toList map).merge (Collects.toList other)).le_iff,
    (Collects.toList map).le_iff, (Collects.toList other).le_iff]
  simp only [List.mem_append, or_imp, forall_and]

instance : SemilatticeSup VersionMap where
  sup := merge
  le_sup_left _ _ := (merge_le_iff.mp (le_refl _)).1
  le_sup_right _ _ := (merge_le_iff.mp (le_refl _)).2
  sup_le _ _ _ first second := merge_le_iff.mpr ⟨first, second⟩

instance : OrderBot VersionMap where
  bot := empty
  bot_le map location version found := by simp at found

theorem merge_comm (map other : VersionMap) : map.merge other = other.merge map :=
  sup_comm map other

theorem merge_assoc (map other third : VersionMap) :
    (map.merge other).merge third = map.merge (other.merge third) :=
  sup_assoc map other third

theorem merge_self (map : VersionMap) : map.merge map = map :=
  sup_idem map

theorem merge_empty (map : VersionMap) : map.merge empty = map :=
  sup_bot_eq map

theorem empty_merge (map : VersionMap) : empty.merge map = map :=
  bot_sup_eq map

/-- The larger one of two entries is the largest one of those that there are. -/
theorem merge_max_eq_max? (held seen : Option Version) :
    held.merge max seen = (held.toList ++ seen.toList).max? := by
  cases held <;> cases seen <;> rfl

/-- The entries of a merged map are the larger ones of both. -/
theorem get?_merge (map other : VersionMap) (location : Location) :
    (map.merge other).get? location =
      (map.get? location).merge max (other.get? location) := by
  ext top
  rw [((Collects.toList map).merge (Collects.toList other)).get?_eq_some_iff, merge_max_eq_max?,
    List.max?_eq_some_iff]
  simp only [List.mem_append, mem_toList, Option.mem_toList]

/-- There is one where either map has one. -/
theorem mem_locations_merge : location ∈ (map.merge other).locations ↔
    location ∈ map.locations ∨ location ∈ other.locations := by
  simp only [mem_locations, get?_merge]
  cases map.get? location <;> cases other.get? location <;> simp [Option.merge]

/-- Lists with the same pairs are collected into the same map. -/
theorem ofList_congr (same : ∀ pair, pair ∈ pairs ↔ pair ∈ more) : ofList pairs = ofList more :=
  (Collects.ofList pairs).unique (Collects.ofList more) same

/-- Two lists may be collected apart and then merged. -/
theorem merge_ofList (pairs more : List (Location × Version)) :
    (ofList pairs).merge (ofList more) = ofList (pairs ++ more) :=
  ((Collects.ofList pairs).merge (Collects.ofList more)).unique (Collects.ofList _) fun _ => Iff.rfl

/-- A version is observed, or a map is merged, its entries coming in some order; this shows the
pairs that were written. -/
inductive Write : VersionMap → List (Location × Version) → VersionMap → Prop where
  | observe {map : VersionMap} (location : Location) (version : Version) :
    Write map [(location, version)] (map.observe location version)
  | merge {map other : VersionMap} {entries : List (Location × Version)}
      (all : other.Enumerates entries) : Write map entries (map.observeAll entries)

/-- What is written is collected. -/
theorem Collects.write (collected : map.Collects pairs) (write : Write map written later) :
    later.Collects (pairs ++ written) := by
  cases write with
  | observe location version => exact collected.observe location version
  | merge all => exact collected.observeAll written

/-- So is everything that is written one by one. -/
theorem Collects.writes (collected : map.Collects pairs) (run : Chained Write map written later) :
    later.Collects (pairs ++ written) := by
  induction run with
  | refl => rwa [List.append_nil]
  | step prior transition ih =>
    rw [← List.append_assoc]
    exact ih.write transition

/-- What was held stays, as it is or raised. -/
theorem le_of_writes (run : Chained Write map written later) : map ≤ later :=
  (Collects.toList map).mono ((Collects.toList map).writes run) (List.subset_append_left _ _)

/-- Writes may be collected apart and then merged, in one go. -/
theorem eq_merge_of_writes (run : Chained Write map written later) :
    later = map.merge (ofList written) :=
  ((Collects.toList map).writes run).unique
    ((Collects.toList map).merge (Collects.ofList written)) fun _ => Iff.rfl

/-- Merging maps takes their join. -/
structure MergesAsJoin (map other third : VersionMap) : Prop where
  /-- The entries of the merged map may come in any order, -/
  ordered : ∀ entries, other.Enumerates entries → map.observeAll entries = map.merge other
  /-- the larger one of the two entries of a location stays, -/
  entry : ∀ location, (map.merge other).get? location =
    (map.get? location).merge max (other.get? location)
  /-- and there is one exactly where either map has one. -/
  present : ∀ location, location ∈ (map.merge other).locations ↔
    location ∈ map.locations ∨ location ∈ other.locations
  /-- This is the least map above both, so it is the same however maps are grouped, -/
  least : ∀ bound, map.merge other ≤ bound ↔ map ≤ bound ∧ other ≤ bound
  comm : map.merge other = other.merge map
  assoc : (map.merge other).merge third = map.merge (other.merge third)
  idem : map.merge map = map
  /-- and an empty map adds nothing. -/
  merge_empty : map.merge empty = map
  empty_merge : empty.merge map = map

/-- A list of pairs is collected by the set of its members. -/
structure CollectsAsJoin (pairs : List (Location × Version)) : Prop where
  /-- Neither the order nor the repetition of pairs matters, -/
  congr : ∀ more, (∀ pair, pair ∈ more ↔ pair ∈ pairs) → ofList more = ofList pairs
  /-- and parts that have all of the pairs may be collected apart and then merged. -/
  parts : ∀ first second, (∀ pair, pair ∈ first ∨ pair ∈ second ↔ pair ∈ pairs) →
    (ofList first).merge (ofList second) = ofList pairs

/-- Version maps are a join semilattice under merging, with the empty map at the bottom, and
collecting pairs respects it. However observations and merges follow each other, no entry is ever
lowered or removed, and the outcome depends on the written pairs alone. -/
theorem forms_semilattice (map other third : VersionMap) (pairs : List (Location × Version)) :
    MergesAsJoin map other third ∧ CollectsAsJoin pairs ∧
      ∀ written later, Chained Write map written later →
        (∀ location held, map.get? location = some held →
          ∃ top, later.get? location = some top ∧ held ≤ top) ∧
        later = map.merge (ofList written) := by
  refine ⟨?joins, ?collects, fun written later run => ⟨le_of_writes run, eq_merge_of_writes run⟩⟩
  case joins =>
    exact {
      ordered := fun entries all => all.observeAll_eq_merge map
      entry := get?_merge map other
      present := fun location => mem_locations_merge
      least := fun bound => merge_le_iff
      comm := merge_comm map other
      assoc := merge_assoc map other third
      idem := merge_self map
      merge_empty := merge_empty map
      empty_merge := empty_merge map }
  case collects =>
    refine ⟨fun more same => ofList_congr same, fun first second same => ?_⟩
    rw [merge_ofList]
    exact ofList_congr fun pair => List.mem_append.trans (same pair)

/-- A map of two locations. -/
def smallHeld : VersionMap :=
  ofList [(⟨.beijing, .rp1⟩, 3), (⟨.shanghai, .rp2⟩, 9)]

/-- A map that is ahead at one of them, behind at the other one, and has one more. -/
def smallSeen : VersionMap :=
  ofList [(⟨.beijing, .rp1⟩, 7), (⟨.shanghai, .rp2⟩, 2), (⟨.wulan, .rp1⟩, 1)]

/-- An old version of the first location is observed, and then the second map is merged, its
entries coming in reverse order. In the end each location has its largest version; and what was
written is collected into the same map when it is written backwards and once more. -/
theorem forms_semilattice_small :
    ∃ (written again : List (Location × Version)) (later : VersionMap),
      Chained Write smallHeld written later ∧
      written = (⟨.beijing, .rp1⟩, 1) :: smallSeen.toList.reverse ∧
      (∀ location held, smallHeld.get? location = some held →
        ∃ top, later.get? location = some top ∧ held ≤ top) ∧
      later = smallHeld.merge (ofList written) ∧
      later.toList = [(⟨.beijing, .rp1⟩, 7), (⟨.shanghai, .rp2⟩, 9), (⟨.wulan, .rp1⟩, 1)] ∧
      smallHeld.observeAll smallSeen.toList.reverse = smallHeld.merge smallSeen ∧
      again = written.reverse ++ written ∧ ofList again = ofList written := by
  let written : List (Location × Version) :=
    (⟨.beijing, .rp1⟩, 1) :: smallSeen.toList.reverse
  have all : smallSeen.Enumerates smallSeen.toList.reverse := by decide +kernel
  have run : Chained Write smallHeld written _ :=
    (Chained.single (Write.observe ⟨.beijing, .rp1⟩ 1)).step (Write.merge all)
  obtain ⟨joins, collects, forward⟩ := forms_semilattice smallHeld smallSeen .empty written
  obtain ⟨kept, whole⟩ := forward written _ run
  have twice : ∀ pair, pair ∈ written.reverse ++ written ↔ pair ∈ written := by simp
  exact ⟨written, _, _, run, rfl, kept, whole, by decide +kernel, joins.ordered _ all, rfl,
    collects.congr _ twice⟩

end VersionMap

end FleetRing
