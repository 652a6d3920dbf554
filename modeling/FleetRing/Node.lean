import FleetRing.Location.Name
import FleetRing.Text.Numeral

/-!
# Node records

A node is what schedulers need to know about a machine. Its id is unique within
its location, and its resource version orders the changes of that location. Both
the version and the location are kept as they were reported, so a record may
carry a version text or a pair of raw integers that mean nothing.
-/

namespace FleetRing

/-- Where a node stands, as reported. -/
structure Placement where
  region : Int32
  partition : Int32
  dataCenter : Option String := none
  availabilityZone : Option String := none
  faultDomain : Option String := none
  deriving DecidableEq, Repr, Inhabited

/-- What a node does not accept. -/
structure Taints where
  noSchedule : Bool := false
  noExecute : Bool := false
  deriving DecidableEq, Repr, Inhabited

/-- Special hardware of a node. -/
structure Hardware where
  gpu : Bool := false
  fpga : Bool := false
  deriving DecidableEq, Repr, Inhabited

/-- Amounts of named resources beyond the common ones. -/
abbrev ScalarResources := Std.ExtTreeMap String Int64

/-- What a node has to offer. -/
structure Resources where
  milliCpu : Int64 := 0
  memory : Int64 := 0
  ephemeralStorage : Int64 := 0
  pods : Int64 := 0
  scalars : ScalarResources := ∅

/-- A machine as reported. -/
structure Node where
  id : String
  versionText : String
  placement : Placement
  taints : Taints := {}
  hardware : Hardware := {}
  resources : Resources := {}
  conditions : UInt8 := 0
  reserved : Bool := false
  machineType : String := ""

/-- The placement at a location, without further detail. -/
def Placement.at (location : Location) : Placement where
  region := Int32.ofNat location.region.index
  partition := Int32.ofNat location.partition.index

namespace Resources

theorem eq_of_fields {a b : Resources} (milliCpu : a.milliCpu = b.milliCpu)
    (memory : a.memory = b.memory) (ephemeralStorage : a.ephemeralStorage = b.ephemeralStorage)
    (pods : a.pods = b.pods) (scalars : a.scalars.toList = b.scalars.toList) : a = b := by
  obtain ⟨_, _, _, _, left⟩ := a
  obtain ⟨_, _, _, _, right⟩ := b
  have : left = right := Std.ExtTreeMap.ext_toList (List.Perm.of_eq scalars)
  simp_all

instance : DecidableEq Resources := fun a b =>
  decidable_of_iff
    (a.milliCpu = b.milliCpu ∧ a.memory = b.memory ∧ a.ephemeralStorage = b.ephemeralStorage ∧
      a.pods = b.pods ∧ a.scalars.toList = b.scalars.toList)
    ⟨fun ⟨h1, h2, h3, h4, h5⟩ => eq_of_fields h1 h2 h3 h4 h5, by rintro rfl; simp⟩

end Resources

deriving instance DecidableEq for Node

instance : Inhabited Node := ⟨{ id := "", versionText := "", placement := default }⟩

namespace Node

/-- A node with an id, a version and a location, and defaults for all else. -/
def fresh (id : String) (version : Version) (location : Location) : Node where
  id := id
  versionText := toString version
  placement := .at location

/-- The resource version, if the text is an unsigned 64-bit number. -/
def version? (node : Node) : Option Version :=
  Text.word? node.versionText

/-- The resource version, or why there is none. -/
def version (node : Node) : Except Error Version :=
  match node.version? with
  | some version => .ok version
  | none => .error (.invalidVersion node.versionText)

/-- The location, if both raw integers stand in their tables. -/
def location? (node : Node) : Option Location :=
  Location.ofRaw? node.placement.region.toInt node.placement.partition.toInt

/-- The location, or why there is none. -/
def location (node : Node) : Except Error Location :=
  Location.ofRaw node.placement.region.toInt node.placement.partition.toInt

/-- The key under which the node is persisted. -/
def recordKey (node : Node) : String :=
  "MinNode." ++ node.id ++ "." ++ toString node.placement.region.toInt ++ "." ++
    toString node.placement.partition.toInt

/-- The lowest condition bit says that the node is ready. -/
def isReady (node : Node) : Bool :=
  node.conditions &&& 1 != 0

end Node

end FleetRing
