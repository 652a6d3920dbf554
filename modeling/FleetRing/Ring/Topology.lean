import FleetRing.Location.Name
import FleetRing.Ring.Arc

/-!
# The location ring

A topology puts the first `regions` regions and the first `partitions`
partitions of each on a ring of 360 degrees. Every region has an equally wide
arc of the ring, every partition an equally wide part of its region's arc.
Locations are numbered along the ring.
-/

namespace FleetRing

/-- How many regions, and how many partitions of each, stand on the ring. -/
structure Topology where
  regions : Nat
  partitions : Nat
  regions_pos : 0 < regions := by decide
  regions_le : regions ≤ Region.count := by decide
  partitions_pos : 0 < partitions := by decide
  partitions_le : partitions ≤ Partition.count := by decide
  deriving DecidableEq, Repr

namespace Topology

/-- The topology with given counts, when both lie within the tables. -/
def ofCounts (regions partitions : Nat) : Except Error Topology :=
  if badRegions : regions = 0 ∨ Region.count < regions then
    .error (.topology (.regionCount regions))
  else if badPartitions : partitions = 0 ∨ Partition.count < partitions then
    .error (.topology (.partitionCount partitions))
  else
    .ok ⟨regions, partitions, by omega, by omega, by omega, by omega⟩

/-- The number of locations on the ring. -/
def size (topology : Topology) : Nat :=
  topology.regions * topology.partitions

/-- The number of a location along the ring, if it stands there. -/
def indexOf? (topology : Topology) (location : Location) : Option Nat :=
  if location.region.index < topology.regions ∧
      location.partition.index < topology.partitions then
    some (location.region.index * topology.partitions + location.partition.index)
  else none

/-- The location with a given number. -/
def locationAt? (topology : Topology) (index : Nat) : Option Location :=
  if index < topology.size then
    match Region.ofIndex? (index / topology.partitions),
        Partition.ofIndex? (index % topology.partitions) with
    | some region, some partition => some ⟨region, partition⟩
    | _, _ => none
  else none

/-- All locations of the ring, by number. -/
def locations (topology : Topology) : List Location :=
  (List.range topology.size).filterMap topology.locationAt?

section Arcs

variable {α : Type} [Scalar α]

/-- The arc of the whole ring. -/
def wholeRing : Arc α :=
  ⟨Scalar.ofCount 0, Scalar.ofCount 360⟩

/-- The arcs of all locations, by number. -/
def arcs (topology : Topology) : List (Arc α) :=
  (wholeRing.split topology.regions).flatMap (·.split topology.partitions)

end Arcs

end Topology

/-- A topology together with the arcs of its locations, ready for look-up. -/
structure Ring (α : Type) [Scalar α] where
  topology : Topology
  arcs : Array (Arc α)
  arcs_eq : arcs = topology.arcs.toArray

namespace Ring

variable {α : Type} [Scalar α]

/-- The ring of a topology. -/
def ofTopology (topology : Topology) : Ring α :=
  ⟨topology, topology.arcs.toArray, rfl⟩

/-- The arc of a location, if it stands on the ring. -/
def arcOf? (ring : Ring α) (location : Location) : Option (Arc α) :=
  match ring.topology.indexOf? location with
  | some index => ring.arcs[index]?
  | none => none

end Ring

end FleetRing
