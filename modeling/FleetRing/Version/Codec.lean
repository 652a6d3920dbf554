import FleetRing.Json.Decode
import FleetRing.Location.Name

/-!
# JSON of locations and version maps

A location is written as its text. A version map is written as an object whose
keys are location texts; of a repeated key the last one counts. The map says
nothing of the order in which its members are written, so that is an `Arrangement`;
where nothing else is asked for, they are sorted by text.
-/

namespace FleetRing

/-- The JSON of a location. -/
def Location.toJson (location : Location) : Json :=
  .string location.text

/-- Decode a location from its text. -/
def Location.decodeText (text : String) : Decoded Location :=
  match Location.ofText text with
  | .ok location => .ok location
  | .error _ => .error .unfit

/-- Decode a location. -/
def Location.decode (reading : Reading) : Decoded Location :=
  match reading.asString with
  | .error fault => .error fault
  | .ok text => Location.decodeText text

/-- Every region once, sorted by name. -/
def Region.byName : List Region :=
  [.beijing, .guizhou, .reserved1, .reserved2, .reserved3, .reserved4, .reserved5, .shanghai,
    .wulan]

/-- Every partition once, sorted by name. -/
def Partition.byName : List Partition :=
  [.rp1, .rp10, .rp2, .rp3, .rp4, .rp5, .rp6, .rp7, .rp8, .rp9]

/-- Every location once, sorted by text. -/
def Location.byText : List Location :=
  Region.byName.flatMap fun region => Partition.byName.map fun partition => ⟨region, partition⟩

/-- Every location is listed. -/
theorem Location.mem_byText (location : Location) : location ∈ byText := by
  have region : location.region ∈ Region.byName := by cases location.region <;> decide
  have partition : location.partition ∈ Partition.byName := by cases location.partition <;> decide
  exact List.mem_flatMap.mpr ⟨_, region, List.mem_map.mpr ⟨_, partition, rfl⟩⟩

/-- None is listed twice. -/
theorem Location.nodup_byText : byText.Nodup := by
  decide +kernel

namespace VersionMap

/-- The entries of a map, sorted by text. -/
def entriesByText (map : VersionMap) : List (Location × Version) :=
  Location.byText.filterMap fun location =>
    (map.get? location).map fun version => (location, version)

theorem enumerates_entriesByText (map : VersionMap) : map.Enumerates map.entriesByText where
  once := by
    refine List.pairwise_map.mpr (List.Pairwise.filterMap _ ?_ Location.nodup_byText)
    intro first second different one here other there
    obtain ⟨-, -, rfl⟩ := Option.map_eq_some_iff.mp here
    obtain ⟨-, -, rfl⟩ := Option.map_eq_some_iff.mp there
    exact different
  mem_iff location version := by simp [entriesByText, Location.mem_byText]

/-- An order in which the entries of every map are written. -/
structure Arrangement where
  entries : VersionMap → List (Location × Version)
  enumerates : ∀ map : VersionMap, map.Enumerates (entries map)

/-- Entries are written sorted by text. -/
def Arrangement.byText : Arrangement :=
  ⟨entriesByText, enumerates_entriesByText⟩

/-- The JSON of a version map whose entries come in some order. -/
def jsonOf (entries : List (Location × Version)) : Json :=
  .object (entries.map fun entry => (entry.1.text, .integer entry.2.toNat))

/-- The JSON of a version map. -/
def toJson (map : VersionMap) : Json :=
  jsonOf map.entriesByText

/-- Decode a version map. -/
def decode : Reading → Decoded VersionMap :=
  Reading.asMap Location.decodeText (·.asUInt64) VersionMap.put .empty

end VersionMap

end FleetRing
