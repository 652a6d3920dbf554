import FleetRing.Config
import FleetRing.Event.Codec
import FleetRing.Proofs.Json.Rereading
import FleetRing.Store.Codec

/-!
# Records that are read back

`Rereads` says of a decoder that it makes a value of the JSON that the value is written as. It is
shown of each kind of record from its parts: amounts and texts first, then maps, then the records
that hold them. A record leaves out what it can do without, and its decoder supplies that again.

Members of a map are decoded one by one into an empty map, so it is enough that each of them is what
the map holds under its key.
-/

namespace FleetRing

/-- A value is decoded from the JSON that it is written as. -/
structure Rereads {α : Type} (decode : Reading → Decoded α) (json : Json) (value : α) : Prop where
  plain : json.Plain
  decoded : decode json.reading = .ok value

/-- It is also decoded from the text. -/
theorem Rereads.decodeText {α : Type} {decode : Reading → Decoded α} {json : Json} {value : α}
    (rereads : Rereads decode json value) : Reading.decodeText decode json.compact = .ok value := by
  rw [Reading.decodeText, Reading.ofChars_compact rereads.plain]
  simp only [rereads.decoded]
  rfl

open Reading

section Scalars

@[simp]
theorem asString_string (text : String) : (Reading.string text).asString = .ok text := rfl

@[simp]
theorem asBool_bool (value : Bool) : (Reading.bool value).asBool = .ok value := rfl

/-- An integer is wanted as it is when it fits. -/
theorem asInteger_integer {low high value : Int} (fits : low ≤ value ∧ value ≤ high) :
    (Reading.integer value).asInteger low high = .ok value :=
  if_pos fits

@[simp]
theorem asInt32_integer (value : Int32) : (Reading.integer value.toInt).asInt32 = .ok value := by
  have low := value.le_toInt
  have high := value.toInt_lt
  rw [asInt32, asInteger_integer (by omega)]
  exact congrArg Except.ok (Int32.ofInt_toInt value)

@[simp]
theorem asInt64_integer (value : Int64) : (Reading.integer value.toInt).asInt64 = .ok value := by
  have low := value.le_toInt
  have high := value.toInt_lt
  rw [asInt64, asInteger_integer (by omega)]
  exact congrArg Except.ok (Int64.ofInt_toInt value)

@[simp]
theorem asUInt8_integer (value : UInt8) : (Reading.integer value.toNat).asUInt8 = .ok value := by
  have high := value.toNat_lt
  rw [asUInt8, asInteger_integer (by omega)]
  exact congrArg Except.ok UInt8.ofNat_toNat

@[simp]
theorem asUInt64_integer (value : UInt64) :
    (Reading.integer value.toNat).asUInt64 = .ok value := by
  have high := value.toNat_lt
  rw [asUInt64, asInteger_integer (by omega)]
  exact congrArg Except.ok UInt64.ofNat_toNat

end Scalars

namespace Json

@[simp]
theorem plain_string (text : String) : (Json.string text).Plain := by
  rw [Plain]
  trivial

@[simp]
theorem plain_bool (value : Bool) : (Json.bool value).Plain := by
  rw [Plain]
  trivial

@[simp]
theorem plain_int32 (value : Int32) : (Json.integer value.toInt).Plain := by
  have low := value.le_toInt
  have high := value.toInt_lt
  rw [Plain]
  omega

@[simp]
theorem plain_int64 (value : Int64) : (Json.integer value.toInt).Plain := by
  have low := value.le_toInt
  have high := value.toInt_lt
  rw [Plain]
  omega

@[simp]
theorem plain_uint8 (value : UInt8) : (Json.integer value.toNat).Plain := by
  have high := value.toNat_lt
  rw [Plain]
  omega

@[simp]
theorem plain_uint64 (value : UInt64) : (Json.integer value.toNat).Plain := by
  have high := value.toNat_lt
  rw [Plain]
  omega

variable {members : List (String × Json)} {key : String} {value : Json}

@[simp]
theorem plain_object : (Json.object members).Plain ↔ PlainMembers members := by
  rw [Plain]

@[simp]
theorem plainMembers_nil : PlainMembers [] := trivial

@[simp]
theorem plainMembers_cons :
    PlainMembers ((key, value) :: members) ↔ value.Plain ∧ PlainMembers members := by
  rw [PlainMembers]

end Json

theorem rereads_int64 (value : Int64) : Rereads (·.asInt64) (.integer value.toInt) value :=
  ⟨Json.plain_int64 value, by simp⟩

theorem rereads_uint64 (value : UInt64) : Rereads (·.asUInt64) (.integer value.toNat) value :=
  ⟨Json.plain_uint64 value, by simp⟩

/-- A record is decoded from the members that fill it. -/
theorem asRecord_object {σ α : Type} {slots : List (Slot σ)} {start : σ}
    {finish : σ → Option α} {members : List (String × Json)} {value : α} (record : σ)
    (filled : fillMembers slots (Json.readingMembers members) start = .ok record)
    (finished : finish record = some value) :
    asRecord slots start finish (Json.object members).reading = .ok value := by
  simp only [Json.reading, asRecord, fillRecord, filled, finished]

section Maps

variable {μ κ β : Type} {get : μ → κ → Option β} {insert : μ → κ → β → μ}

/-- Members that are decoded are inserted one by one. -/
theorem foldMembers_map {decode : Reading → Decoded β} {toJson : β → Json}
    (decodeKey : String → Decoded κ) (keyText : κ → String) (insert : μ → κ → β → μ)
    (keys : ∀ key, decodeKey (keyText key) = .ok key)
    (values : ∀ value, Rereads decode (toJson value) value) (pairs : List (κ × β)) (map : μ) :
    foldMembers decodeKey decode insert
        (Json.readingMembers (pairs.map fun pair => (keyText pair.1, toJson pair.2))) map =
      .ok (pairs.foldl (fun map pair => insert map pair.1 pair.2) map) := by
  induction pairs generalizing map with
  | nil => rfl
  | cons pair pairs ih =>
    rw [List.map_cons, Json.readingMembers, List.foldl_cons, ← ih, foldMembers]
    simp only [asString, keys, (values pair.2).decoded]

theorem plainMembers_map {toJson : β → Json} (plain : ∀ value, (toJson value).Plain)
    (keyText : κ → String) (pairs : List (κ × β)) :
    Json.PlainMembers (pairs.map fun pair => (keyText pair.1, toJson pair.2)) := by
  induction pairs with
  | nil => trivial
  | cons pair pairs ih => exact ⟨plain pair.2, ih⟩

/-- Inserting entries of a map leaves the map at their keys, and what was there at others. -/
theorem get_foldl_insert [DecidableEq κ]
    (sets : ∀ map key other value,
      get (insert map key value) other = if key = other then some value else get map other)
    {whole : μ} {pairs : List (κ × β)} (agree : ∀ pair ∈ pairs, get whole pair.1 = some pair.2)
    (start : μ) (key : κ) :
    get (pairs.foldl (fun map pair => insert map pair.1 pair.2) start) key =
      if key ∈ pairs.map Prod.fst then get whole key else get start key := by
  induction pairs generalizing start with
  | nil => rfl
  | cons pair pairs ih =>
    obtain ⟨first, rest⟩ := List.forall_mem_cons.mp agree
    rw [List.foldl_cons, ih rest, sets]
    by_cases later : key ∈ pairs.map Prod.fst
    · simp [later]
    · by_cases here : pair.1 = key
      · simp [here, ← first]
      · have other : ¬ key = pair.1 := fun same => here same.symm
        simp [later, here, other]

/-- So inserting all entries into an empty map leaves the map. -/
theorem get_foldl_insert_all [DecidableEq κ] (get : μ → κ → Option β) (insert : μ → κ → β → μ)
    (sets : ∀ map key other value,
      get (insert map key value) other = if key = other then some value else get map other)
    {start : μ} (whole : μ) (pairs : List (κ × β))
    (entries : ∀ key value, (key, value) ∈ pairs ↔ get whole key = some value)
    (empty : ∀ key, get start key = none) (key : κ) :
    get (pairs.foldl (fun map pair => insert map pair.1 pair.2) start) key = get whole key := by
  rw [get_foldl_insert sets (fun pair member => (entries pair.1 pair.2).mp member)]
  split
  · rfl
  · next absent =>
    cases found : get whole key with
    | none => exact empty key
    | some value => exact absurd (List.mem_map.mpr ⟨_, (entries key value).mpr found, rfl⟩) absent

end Maps

namespace Location

/-- A text is split at its first slash. -/
theorem splitSlash_append {before : List Char} (unsplit : '/' ∉ before) (behind : List Char) :
    splitSlash (before ++ '/' :: behind) = some (before, behind) := by
  induction before with
  | nil => rfl
  | cons c before ih =>
    obtain ⟨other, unsplit⟩ : '/' ≠ c ∧ '/' ∉ before := by simpa using unsplit
    rw [List.cons_append, splitSlash, ih unsplit]
    · rfl
    · exact fun same => other same.symm

/-- A location is found by its text. -/
theorem ofText_text (location : Location) : ofText location.text = .ok location := by
  have unsplit : '/' ∉ location.region.name.toList := by
    cases location.region <;> decide
  have slash : "/".toList = ['/'] := rfl
  rw [ofText, text, String.toList_append, String.toList_append, slash, List.append_assoc,
    List.singleton_append, splitSlash_append unsplit]
  simp only [String.ofList_toList, Region.ofName, Region.ofName?_name, Partition.ofName,
    Partition.ofName?_name]
  rfl

end Location

namespace VersionMap

/-- A map of versions is decoded from its JSON, in whatever order its entries are written. -/
theorem Enumerates.rereads {map : VersionMap} {entries : List (Location × Version)}
    (all : map.Enumerates entries) : Rereads VersionMap.decode (jsonOf entries) map where
  plain := by
    rw [jsonOf, Json.plain_object]
    exact plainMembers_map Json.plain_uint64 _ _
  decoded := by
    have keys : ∀ location, Location.decodeText location.text = .ok location := by
      intro location
      rw [Location.decodeText, Location.ofText_text]
    have whole := get_foldl_insert_all get? put get?_put map entries all.mem_iff get?_empty
    rw [jsonOf, Json.reading, decode, asMap, foldMembers_map _ _ _ keys rereads_uint64,
      VersionMap.ext whole]

end VersionMap

/-- So is a status. -/
theorem StoreStatus.rereads (status : StoreStatus) {entries : List (Location × Version)}
    (all : status.versions.Enumerates entries) :
    Rereads StoreStatus.decode (status.jsonOf entries) status where
  plain := by simp [jsonOf, all.rereads.plain]
  decoded := by
    refine asRecord_object ⟨status.regions, status.partitions, status.perLocation,
      status.versions⟩ ?_ rfl
    simp [fillMembers, slots, Slot.of, Except.map, all.rereads.decoded]

/-- Details that are not known are left out. -/
theorem Placement.rereads (placement : Placement) :
    Rereads Placement.decode placement.toJson placement where
  plain := by
    obtain ⟨region, partition, center, zone, domain⟩ := placement
    cases center <;> cases zone <;> cases domain <;> simp [toJson, Json.optionalText]
  decoded := by
    obtain ⟨region, partition, center, zone, domain⟩ := placement
    refine asRecord_object ⟨region, partition, center.map some, zone.map some,
      domain.map some⟩ ?_ ?_
    · cases center <;> cases zone <;> cases domain <;>
        simp [fillMembers, slots, Slot.of, Except.map, Json.optionalText, asOption]
    · cases center <;> cases zone <;> cases domain <;> rfl

theorem Taints.rereads (taints : Taints) : Rereads Taints.decode taints.toJson taints where
  plain := by simp [toJson]
  decoded := by
    refine asRecord_object ⟨taints.noSchedule, taints.noExecute⟩ ?_ rfl
    simp [fillMembers, FlagPair.slots, Slot.of, Except.map]

theorem Hardware.rereads (hardware : Hardware) :
    Rereads Hardware.decode hardware.toJson hardware where
  plain := by simp [toJson]
  decoded := by
    refine asRecord_object ⟨hardware.gpu, hardware.fpga⟩ ?_ rfl
    simp [fillMembers, FlagPair.slots, Slot.of, Except.map]

/-- Scalar resources are written sorted by name, and decoded in any order. -/
theorem ScalarResources.rereads (scalars : ScalarResources) :
    Rereads ScalarResources.decode (ScalarResources.toJson scalars) scalars where
  plain := by
    rw [toJson, Json.plain_object]
    exact plainMembers_map Json.plain_int64 id _
  decoded := by
    have sets : ∀ (map : ScalarResources) (name other : String) (amount : Int64),
        (map.insert name amount)[other]? = if name = other then some amount else map[other]? := by
      intro map name other amount
      simp [Std.ExtTreeMap.getElem?_insert]
    have whole := get_foldl_insert_all (fun (map : ScalarResources) name => map[name]?)
      (fun map name amount => map.insert name amount) sets scalars scalars.toList
      (fun _ _ => Std.ExtTreeMap.mem_toList_iff_getElem?_eq_some)
      (fun _ => Std.ExtTreeMap.getElem?_empty)
    have members := foldMembers_map .ok id (fun (map : ScalarResources) name amount =>
      map.insert name amount) (fun _ => rfl) rereads_int64 scalars.toList ∅
    rw [toJson, Json.reading, decode, asMap]
    exact members.trans (congrArg Except.ok (Std.ExtTreeMap.ext_getElem? whole))

/-- An empty map of scalar resources is left out. -/
theorem Resources.rereads (resources : Resources) :
    Rereads Resources.decode resources.toJson resources where
  plain := by
    by_cases empty : resources.scalars.isEmpty <;>
      simp [toJson, empty, (ScalarResources.rereads resources.scalars).plain]
  decoded := by
    obtain ⟨milliCpu, memory, storage, pods, scalars⟩ := resources
    have decoded := (ScalarResources.rereads scalars).decoded
    by_cases empty : scalars = ∅
    · subst empty
      refine asRecord_object ⟨milliCpu, memory, storage, pods, none⟩ ?_ rfl
      simp [fillMembers, slots, Slot.of, Except.map]
    · refine asRecord_object ⟨milliCpu, memory, storage, pods, scalars⟩ ?_ rfl
      simp [fillMembers, slots, Slot.of, Except.map, empty, decoded]

theorem Node.rereads (node : Node) : Rereads Node.decode node.toJson node where
  plain := by
    simp [toJson, node.placement.rereads.plain, node.taints.rereads.plain,
      node.hardware.rereads.plain, node.resources.rereads.plain]
  decoded := by
    refine asRecord_object ⟨node.id, node.versionText, node.placement, node.taints,
      node.hardware, node.resources, node.conditions, node.reserved, node.machineType⟩ ?_ rfl
    simp [fillMembers, slots, Slot.of, Except.map, node.placement.rereads.decoded,
      node.taints.rereads.decoded, node.hardware.rereads.decoded, node.resources.rereads.decoded]

theorem EventType.ofName?_name (type : EventType) : ofName? type.name = some type := by
  cases type <;> decide

/-- Stamps are not written. -/
theorem NodeEvent.rereads (event : NodeEvent) :
    Rereads NodeEvent.decode event.toJson { event with stamps := {} } where
  plain := by simp [toJson, event.node.rereads.plain]
  decoded := by
    refine asRecord_object ⟨event.type, event.node⟩ ?_ rfl
    simp [fillMembers, slots, Slot.of, Except.map, EventType.decode, EventType.decodeName,
      EventType.ofName?_name, event.node.rereads.decoded]

theorem Config.rereads (config : Config) : Rereads Config.decode config.toJson config where
  plain := by simp [toJson, word]
  decoded := by
    refine asRecord_object ⟨config.regions, config.partitions, config.virtualStores,
      config.minimalRequest, config.windowLength, config.retryLimit, config.persistTimeout,
      config.breakerThreshold, config.breakerCooldown, config.watchCapacity⟩ ?_ rfl
    simp [fillMembers, slots, Slot.of, Except.map, word]

end FleetRing
