import FleetRing.Json.Decode
import FleetRing.Node

/-!
# JSON of node records

`Node.toJson` writes every field in a fixed order and leaves out the details of
the placement that are not known and an empty map of scalar resources.
`Node.decode` asks for the id, the version text and the placement; all else has
defaults, but a field that is given must be complete.
-/

namespace FleetRing

open Reading (Slot asRecord)

/-- The member of an optional text, if there is one. -/
def Json.optionalText (name : String) : Option String → List (String × Json)
  | none => []
  | some text => [(name, .string text)]

/-- The JSON of a placement. -/
def Placement.toJson (placement : Placement) : Json :=
  .object (
    ("region", .integer placement.region.toInt) ::
    ("resource_partition", .integer placement.partition.toInt) ::
    (Json.optionalText "data_center" placement.dataCenter ++
      Json.optionalText "availability_zone" placement.availabilityZone ++
      Json.optionalText "fault_domain" placement.faultDomain))

/-- The JSON of taints. -/
def Taints.toJson (taints : Taints) : Json :=
  .object [("no_schedule", .bool taints.noSchedule), ("no_execute", .bool taints.noExecute)]

/-- The JSON of special hardware. -/
def Hardware.toJson (hardware : Hardware) : Json :=
  .object [("has_gpu", .bool hardware.gpu), ("has_fpga", .bool hardware.fpga)]

/-- The JSON of scalar resources, sorted by name. -/
def ScalarResources.toJson (scalars : ScalarResources) : Json :=
  .object (scalars.toList.map fun entry => (entry.1, .integer entry.2.toInt))

/-- The JSON of resources. -/
def Resources.toJson (resources : Resources) : Json :=
  .object (
    ("milli_cpu", .integer resources.milliCpu.toInt) ::
    ("memory", .integer resources.memory.toInt) ::
    ("ephemeral_storage", .integer resources.ephemeralStorage.toInt) ::
    ("allowed_pod_number", .integer resources.pods.toInt) ::
    (if resources.scalars.isEmpty then []
    else [("scalar_resources", ScalarResources.toJson resources.scalars)]))

/-- The JSON of a node. -/
def Node.toJson (node : Node) : Json :=
  .object [
    ("id", .string node.id),
    ("resource_version", .string node.versionText),
    ("geo_info", node.placement.toJson),
    ("taints", node.taints.toJson),
    ("special_hardware_types", node.hardware.toJson),
    ("allocatable_resource", node.resources.toJson),
    ("conditions", .integer node.conditions.toNat),
    ("reserved", .bool node.reserved),
    ("machine_type", .string node.machineType)]

/-- The text under which a node is persisted. -/
def Node.text (node : Node) : String :=
  node.toJson.compact

/-- A placement that is being read. -/
structure Placement.Draft where
  region : Option Int32 := none
  partition : Option Int32 := none
  dataCenter : Option (Option String) := none
  availabilityZone : Option (Option String) := none
  faultDomain : Option (Option String) := none

/-- The fields of a placement. -/
def Placement.slots : List (Slot Placement.Draft) := [
  .of "region" (·.asInt32) (·.region) fun value draft => { draft with region := some value },
  .of "resource_partition" (·.asInt32) (·.partition)
    fun value draft => { draft with partition := some value },
  .of "data_center" (·.asOption (·.asString)) (·.dataCenter)
    fun value draft => { draft with dataCenter := some value },
  .of "availability_zone" (·.asOption (·.asString)) (·.availabilityZone)
    fun value draft => { draft with availabilityZone := some value },
  .of "fault_domain" (·.asOption (·.asString)) (·.faultDomain)
    fun value draft => { draft with faultDomain := some value }]

/-- The placement, once both raw integers are there. -/
def Placement.Draft.finish (draft : Placement.Draft) : Option Placement := do
  let region ← draft.region
  let partition ← draft.partition
  return ⟨region, partition, draft.dataCenter.join, draft.availabilityZone.join,
    draft.faultDomain.join⟩

/-- Decode a placement. -/
def Placement.decode : Reading → Decoded Placement :=
  asRecord Placement.slots {} Placement.Draft.finish

/-- Two truth values that are being read. -/
structure FlagPair where
  first : Option Bool := none
  second : Option Bool := none

/-- The fields of a record of two truth values. -/
def FlagPair.slots (first second : String) : List (Slot FlagPair) := [
  .of first (·.asBool) (·.first) fun value draft => { draft with first := some value },
  .of second (·.asBool) (·.second) fun value draft => { draft with second := some value }]

/-- Decode taints. -/
def Taints.decode : Reading → Decoded Taints :=
  asRecord (FlagPair.slots "no_schedule" "no_execute") {} fun draft => do
    return ⟨← draft.first, ← draft.second⟩

/-- Decode special hardware. -/
def Hardware.decode : Reading → Decoded Hardware :=
  asRecord (FlagPair.slots "has_gpu" "has_fpga") {} fun draft => do
    return ⟨← draft.first, ← draft.second⟩

/-- Decode scalar resources; of a repeated name the last amount stays. -/
def ScalarResources.decode : Reading → Decoded ScalarResources :=
  Reading.asMap .ok (·.asInt64) (fun map name amount => map.insert name amount) ∅

/-- Resources that are being read. -/
structure Resources.Draft where
  milliCpu : Option Int64 := none
  memory : Option Int64 := none
  ephemeralStorage : Option Int64 := none
  pods : Option Int64 := none
  scalars : Option ScalarResources := none

/-- The fields of resources. -/
def Resources.slots : List (Slot Resources.Draft) := [
  .of "milli_cpu" (·.asInt64) (·.milliCpu)
    fun value draft => { draft with milliCpu := some value },
  .of "memory" (·.asInt64) (·.memory) fun value draft => { draft with memory := some value },
  .of "ephemeral_storage" (·.asInt64) (·.ephemeralStorage)
    fun value draft => { draft with ephemeralStorage := some value },
  .of "allowed_pod_number" (·.asInt64) (·.pods)
    fun value draft => { draft with pods := some value },
  .of "scalar_resources" ScalarResources.decode (·.scalars)
    fun value draft => { draft with scalars := some value }]

/-- The resources, once the four common amounts are there. -/
def Resources.Draft.finish (draft : Resources.Draft) : Option Resources := do
  let milliCpu ← draft.milliCpu
  let memory ← draft.memory
  let ephemeralStorage ← draft.ephemeralStorage
  let pods ← draft.pods
  return ⟨milliCpu, memory, ephemeralStorage, pods, draft.scalars.getD ∅⟩

/-- Decode resources. -/
def Resources.decode : Reading → Decoded Resources :=
  asRecord Resources.slots {} Resources.Draft.finish

/-- A node that is being read. -/
structure Node.Draft where
  id : Option String := none
  versionText : Option String := none
  placement : Option Placement := none
  taints : Option Taints := none
  hardware : Option Hardware := none
  resources : Option Resources := none
  conditions : Option UInt8 := none
  reserved : Option Bool := none
  machineType : Option String := none

/-- The fields of a node. -/
def Node.slots : List (Slot Node.Draft) := [
  .of "id" (·.asString) (·.id) fun value draft => { draft with id := some value },
  .of "resource_version" (·.asString) (·.versionText)
    fun value draft => { draft with versionText := some value },
  .of "geo_info" Placement.decode (·.placement)
    fun value draft => { draft with placement := some value },
  .of "taints" Taints.decode (·.taints) fun value draft => { draft with taints := some value },
  .of "special_hardware_types" Hardware.decode (·.hardware)
    fun value draft => { draft with hardware := some value },
  .of "allocatable_resource" Resources.decode (·.resources)
    fun value draft => { draft with resources := some value },
  .of "conditions" (·.asUInt8) (·.conditions)
    fun value draft => { draft with conditions := some value },
  .of "reserved" (·.asBool) (·.reserved) fun value draft => { draft with reserved := some value },
  .of "machine_type" (·.asString) (·.machineType)
    fun value draft => { draft with machineType := some value }]

/-- The node, once its id, version text and placement are there. -/
def Node.Draft.finish (draft : Node.Draft) : Option Node := do
  let id ← draft.id
  let versionText ← draft.versionText
  let placement ← draft.placement
  return {
    id, versionText, placement
    taints := draft.taints.getD {}
    hardware := draft.hardware.getD {}
    resources := draft.resources.getD {}
    conditions := draft.conditions.getD 0
    reserved := draft.reserved.getD false
    machineType := draft.machineType.getD "" }

/-- Decode a node. -/
def Node.decode : Reading → Decoded Node :=
  asRecord Node.slots {} Node.Draft.finish

end FleetRing
