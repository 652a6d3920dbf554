import FleetRing.Location

/-!
# Resource versions

A resource version orders the changes of one location; versions of different
locations say nothing about each other. A `VersionMap` holds at most one version
per location, the largest that was observed there. Two maps are equal when they
answer every `get?` alike, whatever order they were filled in.
-/

namespace FleetRing

/-- A resource version of one location. -/
abbrev Version := UInt64

/-- Items that carry a resource version. -/
class Versioned (α : Type) where
  versionOf : α → Version

/-- The largest version observed at each location. -/
structure VersionMap where
  entries : Std.ExtTreeMap Location Version

namespace VersionMap

/-- The map without any entry. -/
def empty : VersionMap :=
  ⟨∅⟩

instance : Inhabited VersionMap := ⟨empty⟩

instance : EmptyCollection VersionMap := ⟨empty⟩

/-- The version held for a location. -/
def get? (map : VersionMap) (location : Location) : Option Version :=
  map.entries[location]?

/-- The larger of what is held and what is observed. -/
def raise (version : Version) : Option Version → Option Version
  | none => some version
  | some held => some (max held version)

/-- Record a version at a location; a smaller one changes nothing. -/
def observe (map : VersionMap) (location : Location) (version : Version) : VersionMap :=
  ⟨map.entries.alter location (raise version)⟩

/-- Record a version at a location, whatever is held there. -/
def put (map : VersionMap) (location : Location) (version : Version) : VersionMap :=
  ⟨map.entries.insert location version⟩

/-- Entries in the order of their locations. -/
def toList (map : VersionMap) : List (Location × Version) :=
  map.entries.toList

/-- Observe a list of pairs one by one. -/
def observeAll (map : VersionMap) (pairs : List (Location × Version)) : VersionMap :=
  pairs.foldl (fun map pair => map.observe pair.1 pair.2) map

/-- Collect a list of pairs; of a repeated location the largest version stays. -/
def ofList (pairs : List (Location × Version)) : VersionMap :=
  empty.observeAll pairs

/-- Observe every entry of another map. -/
def merge (map other : VersionMap) : VersionMap :=
  map.observeAll other.toList

/-- The locations that have an entry, in order. -/
def locations (map : VersionMap) : List Location :=
  map.entries.keys

/-- The number of locations that have an entry. -/
def size (map : VersionMap) : Nat :=
  map.entries.size

/-- Does no location have an entry? -/
def isEmpty (map : VersionMap) : Bool :=
  map.entries.isEmpty

@[ext]
theorem ext {a b : VersionMap} (same : ∀ location, a.get? location = b.get? location) :
    a = b := by
  obtain ⟨a⟩ := a
  obtain ⟨b⟩ := b
  exact congrArg mk (Std.ExtTreeMap.ext_getElem? same)

@[simp]
theorem get?_empty (location : Location) : empty.get? location = none := by
  simp [get?, empty]

theorem get?_observe (map : VersionMap) (at_ location : Location) (version : Version) :
    (map.observe at_ version).get? location =
      if at_ = location then raise version (map.get? at_) else map.get? location := by
  simp [get?, observe, Std.ExtTreeMap.getElem?_alter]

theorem get?_put (map : VersionMap) (at_ location : Location) (version : Version) :
    (map.put at_ version).get? location =
      if at_ = location then some version else map.get? location := by
  simp [get?, put, Std.ExtTreeMap.getElem?_insert]

theorem mem_toList {map : VersionMap} {location : Location} {version : Version} :
    (location, version) ∈ map.toList ↔ map.get? location = some version := by
  simp [toList, get?, Std.ExtTreeMap.mem_toList_iff_getElem?_eq_some]

/-- The entries of a map in some order: each of them comes, and no location comes twice. -/
structure Enumerates (map : VersionMap) (entries : List (Location × Version)) : Prop where
  once : (entries.map Prod.fst).Nodup
  mem_iff : ∀ location version,
    (location, version) ∈ entries ↔ map.get? location = some version

/-- Maps are equal exactly when their entries agree in order. -/
theorem eq_of_toList {a b : VersionMap} (same : a.toList = b.toList) : a = b := by
  ext location version
  rw [← mem_toList, ← mem_toList, same]

instance : DecidableEq VersionMap := fun a b =>
  decidable_of_iff (a.toList = b.toList) ⟨eq_of_toList, fun same => same ▸ rfl⟩

end VersionMap

end FleetRing
