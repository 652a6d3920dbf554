import FleetRing.Version
import Mathlib.Order.Defs.PartialOrder

/-!
# What a version map collects

One map is below another one when the other one holds, wherever this one holds a
version, that version or a later one. `Collects` says that a map holds the largest
version of a list of pairs at each location, and no other location. It is stated by
bounds, so it does not depend on the order and the repetition of pairs: it is the
least map above them. Every way to fill a map is described by the pairs that it
collects.
-/

namespace FleetRing

/-- The larger one of two versions bounds both, and is one of them. -/
instance : Std.LawfulOrderMax Version where
  max_eq_or first second := by
    rw [show max first second = if first ≤ second then second else first from rfl]
    split
    · exact .inr rfl
    · exact .inl rfl
  max_le_iff first second bound := by
    rw [show max first second = if first ≤ second then second else first from rfl]
    split
    · next below => exact ⟨fun above => ⟨UInt64.le_trans below above, above⟩, And.right⟩
    · next above =>
      have below := UInt64.le_of_lt (UInt64.not_le.mp above)
      exact ⟨fun bounded => ⟨bounded, UInt64.le_trans below bounded⟩, And.left⟩

namespace VersionMap

theorem fst_toList (map : VersionMap) : map.toList.map Prod.fst = map.locations :=
  Std.ExtTreeMap.map_fst_toList_eq_keys

theorem nodup_locations (map : VersionMap) : map.locations.Nodup :=
  Std.ExtTreeMap.nodup_keys

theorem nodup_fst_toList (map : VersionMap) : (map.toList.map Prod.fst).Nodup := by
  rw [map.fst_toList]
  exact map.nodup_locations

theorem mem_locations {map : VersionMap} {location : Location} :
    location ∈ map.locations ↔ ∃ version, map.get? location = some version := by
  rw [locations, Std.ExtTreeMap.mem_keys, Std.ExtTreeMap.mem_iff_isSome_getElem?,
    Option.isSome_iff_exists, get?]

section Order

variable {map other : VersionMap} {location : Location} {version : Version}

/-- The map holds a version at a location, or a later one. -/
def Bounds (map : VersionMap) (location : Location) (version : Version) : Prop :=
  ∃ held, map.get? location = some held ∧ version ≤ held

/-- Every entry of one map is in the other one, as it is or raised. -/
instance : LE VersionMap where
  le map other :=
    ∀ location version, map.get? location = some version → other.Bounds location version

/-- A map above holds as much. -/
theorem Bounds.mono (bounds : map.Bounds location version) (below : map ≤ other) :
    other.Bounds location version := by
  obtain ⟨held, found, lower⟩ := bounds
  obtain ⟨later, present, higher⟩ := below location held found
  exact ⟨later, present, UInt64.le_trans lower higher⟩

/-- Maps below each other have the same entries. -/
theorem get?_of_le_of_le (below : map ≤ other) (above : other ≤ map)
    (found : map.get? location = some version) : other.get? location = some version := by
  obtain ⟨later, present, lower⟩ := below location version found
  obtain ⟨_, again, higher⟩ := above location later present
  obtain rfl := Option.some.inj (found.symm.trans again)
  rwa [UInt64.le_antisymm lower higher]

instance : PartialOrder VersionMap where
  le_refl _ _ version found := ⟨version, found, UInt64.le_refl version⟩
  le_trans _ _ _ below above location version found := (below location version found).mono above
  le_antisymm map other below above := by
    ext location version
    exact ⟨get?_of_le_of_le below above, get?_of_le_of_le above below⟩

end Order

/-- Raising keeps the larger one of what is held and what is observed. -/
theorem raise_spec (version : Version) (held : Option Version) :
    ∃ top, raise version held = some top ∧ version ≤ top ∧
      (∀ before, held = some before → before ≤ top) ∧ (top = version ∨ held = some top) := by
  cases held with
  | none => exact ⟨version, rfl, UInt64.le_refl version, fun _ found => (nomatch found), .inl rfl⟩
  | some before =>
    refine ⟨max before version, rfl, Std.right_le_max, ?_, ?_⟩
    · rintro _ ⟨⟩
      exact Std.left_le_max
    · rcases Std.MaxEqOr.max_eq_or before version with earlier | latest
      · exact .inr (congrArg some earlier.symm)
      · exact .inl latest

/-- The map holds the largest version of the pairs at each location. -/
structure Collects (map : VersionMap) (pairs : List (Location × Version)) : Prop where
  le : ∀ location version, (location, version) ∈ pairs →
    ∃ held, map.get? location = some held ∧ version ≤ held
  mem : ∀ location held, map.get? location = some held → (location, held) ∈ pairs

namespace Collects

variable {map other : VersionMap} {pairs more : List (Location × Version)} {location : Location}

/-- The empty map collects nothing. -/
theorem empty : VersionMap.empty.Collects [] where
  le _ _ member := nomatch member
  mem location held found := by simp at found

/-- A map collects its own entries. -/
theorem toList (map : VersionMap) : map.Collects map.toList where
  le _ version member := ⟨version, mem_toList.mp member, UInt64.le_refl version⟩
  mem _ _ found := mem_toList.mpr found

/-- What is observed is collected. -/
theorem observe (collected : map.Collects pairs) (location : Location) (version : Version) :
    (map.observe location version).Collects (pairs ++ [(location, version)]) := by
  obtain ⟨top, raised, above, kept, either⟩ := raise_spec version (map.get? location)
  constructor
  · intro asked seen member
    rw [get?_observe, raised]
    rcases List.mem_append.mp member with earlier | last
    · obtain ⟨held, found, bound⟩ := collected.le asked seen earlier
      by_cases here : location = asked
      · subst here
        exact ⟨top, by simp, UInt64.le_trans bound (kept held found)⟩
      · exact ⟨held, by simp [here, found], bound⟩
    · obtain ⟨rfl, rfl⟩ : asked = location ∧ seen = version := by simpa using last
      exact ⟨top, by simp, above⟩
  · intro asked held found
    rw [get?_observe, raised] at found
    split at found
    · next here =>
      subst here
      obtain rfl := Option.some.inj found
      rcases either with rfl | before
      · simp
      · exact List.mem_append_left _ (collected.mem location top before)
    · exact List.mem_append_left _ (collected.mem asked held found)

/-- So is everything that is observed one by one. -/
theorem observeAll (collected : map.Collects pairs) (more : List (Location × Version)) :
    (map.observeAll more).Collects (pairs ++ more) := by
  induction more generalizing map pairs with
  | nil => simpa [VersionMap.observeAll] using collected
  | cons pair more ih =>
    have next := ih (collected.observe pair.1 pair.2)
    rw [List.append_assoc] at next
    exact next

/-- A list of pairs is collected into a map. -/
theorem ofList (pairs : List (Location × Version)) : (VersionMap.ofList pairs).Collects pairs :=
  empty.observeAll pairs

/-- A merged map collects what both collected. -/
theorem merge (collected : map.Collects pairs) (others : other.Collects more) :
    (map.merge other).Collects (pairs ++ more) := by
  have whole := collected.observeAll other.toList
  constructor
  · intro asked version member
    rcases List.mem_append.mp member with first | second
    · exact whole.le asked version (List.mem_append_left _ first)
    · obtain ⟨held, found, bound⟩ := others.le asked version second
      obtain ⟨top, answer, above⟩ :=
        whole.le asked held (List.mem_append_right _ (mem_toList.mpr found))
      exact ⟨top, answer, UInt64.le_trans bound above⟩
  · intro asked held found
    rcases List.mem_append.mp (whole.mem asked held found) with first | second
    · exact List.mem_append_left _ first
    · exact List.mem_append_right _ (others.mem asked held (mem_toList.mp second))

/-- Merging the maps of a list of items collects what their maps collect. -/
theorem foldl_merge {ι : Type} {items : List ι} {maps : ι → VersionMap}
    {shares : ι → List (Location × Version)} (each : ∀ item, (maps item).Collects (shares item))
    (collected : map.Collects pairs) :
    (items.foldl (fun map item => map.merge (maps item)) map).Collects
      (pairs ++ items.flatMap shares) := by
  induction items generalizing map pairs with
  | nil => simpa using collected
  | cons item items ih =>
    have next := ih (collected.merge (each item))
    rw [List.append_assoc] at next
    exact next

/-- A map is below another one when that one bounds what it collected. -/
theorem le_iff (collected : map.Collects pairs) : map ≤ other ↔
    ∀ location version, (location, version) ∈ pairs → other.Bounds location version :=
  ⟨fun below location version member => Bounds.mono (collected.le location version member) below,
    fun bounded location version found =>
      bounded location version (collected.mem location version found)⟩

/-- More pairs make a map that is above. -/
theorem mono (collected : map.Collects pairs) (others : other.Collects more)
    (within : pairs ⊆ more) : map ≤ other :=
  collected.le_iff.mpr fun location version member => others.le location version (within member)

/-- The order and the repetition of pairs do not matter. -/
theorem unique (collected : map.Collects pairs) (others : other.Collects more)
    (same : ∀ pair, pair ∈ pairs ↔ pair ∈ more) : map = other :=
  le_antisymm (collected.mono others fun pair => (same pair).mp)
    (others.mono collected fun pair => (same pair).mpr)

/-- An entry is the largest version among the pairs of its location. -/
theorem get?_eq_some_iff (collected : map.Collects pairs) {top : Version} :
    map.get? location = some top ↔
      (location, top) ∈ pairs ∧ ∀ version, (location, version) ∈ pairs → version ≤ top := by
  constructor
  · intro found
    refine ⟨collected.mem location top found, fun version member => ?_⟩
    obtain ⟨held, present, below⟩ := collected.le location version member
    exact Option.some.inj (found.symm.trans present) ▸ below
  · rintro ⟨member, above⟩
    obtain ⟨held, present, below⟩ := collected.le location top member
    rw [present, UInt64.le_antisymm below (above held (collected.mem location held present))]

/-- So no pair of the location is above it. -/
theorem le_of_get? (collected : map.Collects pairs) {version top : Version}
    (listed : map.get? location = some top) (member : (location, version) ∈ pairs) :
    version ≤ top :=
  (collected.get?_eq_some_iff.mp listed).2 version member

/-- It is their maximum. -/
theorem get?_eq_max? (collected : map.Collects pairs) (location : Location) :
    map.get? location =
      ((pairs.filter fun pair => pair.1 = location).map (·.2)).max? := by
  have listed : ∀ version, version ∈ (pairs.filter fun pair => pair.1 = location).map (·.2) ↔
      (location, version) ∈ pairs := by
    intro version
    simp only [List.mem_map, List.mem_filter, decide_eq_true_eq]
    constructor
    · rintro ⟨⟨_, _⟩, ⟨member, rfl⟩, rfl⟩
      exact member
    · exact fun member => ⟨_, ⟨member, rfl⟩, rfl⟩
  ext top
  simp only [collected.get?_eq_some_iff, List.max?_eq_some_iff, listed]

/-- A map that collected something has an entry. -/
theorem toList_ne_nil (collected : map.Collects pairs) (nonempty : pairs ≠ []) :
    map.toList ≠ [] := by
  obtain ⟨⟨location, version⟩, member⟩ := List.exists_mem_of_ne_nil pairs nonempty
  obtain ⟨held, found, -⟩ := collected.le location version member
  exact List.ne_nil_of_mem (mem_toList.mpr found)

end Collects

end VersionMap

end FleetRing
