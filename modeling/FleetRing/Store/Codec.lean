import FleetRing.Store
import FleetRing.Version.Codec

/-!
# JSON of the store status
-/

namespace FleetRing.StoreStatus

open Reading (Slot asRecord)

/-- The JSON of a status whose versions come in some order. -/
def jsonOf (status : StoreStatus) (entries : List (Location × Version)) : Json :=
  .object [
    ("region_count", .integer status.regions.toNat),
    ("partition_count", .integer status.partitions.toNat),
    ("virtual_nodes_per_partition", .integer status.perLocation.toNat),
    ("current_resource_versions", VersionMap.jsonOf entries)]

/-- The text under which such a status is persisted. -/
def textOf (status : StoreStatus) (entries : List (Location × Version)) : String :=
  (status.jsonOf entries).compact

/-- A status that is being read. -/
structure Draft where
  regions : Option UInt64 := none
  partitions : Option UInt64 := none
  perLocation : Option UInt64 := none
  versions : Option VersionMap := none

/-- The fields of a status. -/
def slots : List (Slot Draft) := [
  .of "region_count" (·.asUInt64) (·.regions)
    fun value draft => { draft with regions := some value },
  .of "partition_count" (·.asUInt64) (·.partitions)
    fun value draft => { draft with partitions := some value },
  .of "virtual_nodes_per_partition" (·.asUInt64) (·.perLocation)
    fun value draft => { draft with perLocation := some value },
  .of "current_resource_versions" VersionMap.decode (·.versions)
    fun value draft => { draft with versions := some value }]

/-- The status, once every field is there. -/
def Draft.finish (draft : Draft) : Option StoreStatus := do
  return ⟨← draft.regions, ← draft.partitions, ← draft.perLocation, ← draft.versions⟩

/-- Decode a status. -/
def decode : Reading → Decoded StoreStatus :=
  asRecord slots {} Draft.finish

end FleetRing.StoreStatus
