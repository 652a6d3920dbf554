import Std.Data.ExtTreeMap

/-!
# Locations

A location is a region together with one of the resource partitions of that
region. Both come from fixed tables: wire payloads carry small integers or
names, and everything behind the reader works with `Location` values. The
order of locations is region first, then partition, by table position.
-/

namespace FleetRing

/-- The regions of the table, in table order. -/
inductive Region where
  | beijing | shanghai | wulan | guizhou
  | reserved1 | reserved2 | reserved3 | reserved4 | reserved5
  deriving DecidableEq, Repr, Inhabited

/-- The resource partitions of every region, in table order. -/
inductive Partition where
  | rp1 | rp2 | rp3 | rp4 | rp5 | rp6 | rp7 | rp8 | rp9 | rp10
  deriving DecidableEq, Repr, Inhabited

namespace Region

/-- Every region once, in table order. -/
def all : List Region :=
  [beijing, shanghai, wulan, guizhou, reserved1, reserved2, reserved3, reserved4, reserved5]

/-- The number of regions in the table. -/
def count : Nat := 9

/-- The name of a region, as it stands in texts. -/
def name : Region → String
  | beijing => "Beijing"
  | shanghai => "Shanghai"
  | wulan => "Wulan"
  | guizhou => "Guizhou"
  | reserved1 => "Reserved1"
  | reserved2 => "Reserved2"
  | reserved3 => "Reserved3"
  | reserved4 => "Reserved4"
  | reserved5 => "Reserved5"

/-- The position of a region in the table. -/
def index : Region → Nat
  | beijing => 0
  | shanghai => 1
  | wulan => 2
  | guizhou => 3
  | reserved1 => 4
  | reserved2 => 5
  | reserved3 => 6
  | reserved4 => 7
  | reserved5 => 8

/-- The region at a table position. -/
def ofIndex? (i : Nat) : Option Region :=
  all[i]?

/-- The region with a given name. -/
def ofName? (text : String) : Option Region :=
  all.find? fun region => region.name == text

theorem index_lt (region : Region) : region.index < count := by
  cases region <;> decide

theorem ofIndex?_index (region : Region) : ofIndex? region.index = some region := by
  cases region <;> rfl

theorem ofName?_name (region : Region) : ofName? region.name = some region := by
  cases region <;> decide

theorem index_injective {a b : Region} (same : a.index = b.index) : a = b := by
  have ha := ofIndex?_index a
  rw [same, ofIndex?_index b] at ha
  exact (Option.some.inj ha).symm

end Region

namespace Partition

/-- Every partition once, in table order. -/
def all : List Partition :=
  [rp1, rp2, rp3, rp4, rp5, rp6, rp7, rp8, rp9, rp10]

/-- The number of partitions in the table. -/
def count : Nat := 10

/-- The name of a partition, as it stands in texts. -/
def name : Partition → String
  | rp1 => "RP1"
  | rp2 => "RP2"
  | rp3 => "RP3"
  | rp4 => "RP4"
  | rp5 => "RP5"
  | rp6 => "RP6"
  | rp7 => "RP7"
  | rp8 => "RP8"
  | rp9 => "RP9"
  | rp10 => "RP10"

/-- The position of a partition in the table. -/
def index : Partition → Nat
  | rp1 => 0
  | rp2 => 1
  | rp3 => 2
  | rp4 => 3
  | rp5 => 4
  | rp6 => 5
  | rp7 => 6
  | rp8 => 7
  | rp9 => 8
  | rp10 => 9

/-- The partition at a table position. -/
def ofIndex? (i : Nat) : Option Partition :=
  all[i]?

/-- The partition with a given name. -/
def ofName? (text : String) : Option Partition :=
  all.find? fun partition => partition.name == text

theorem index_lt (partition : Partition) : partition.index < count := by
  cases partition <;> decide

theorem ofIndex?_index (partition : Partition) : ofIndex? partition.index = some partition := by
  cases partition <;> rfl

theorem ofName?_name (partition : Partition) : ofName? partition.name = some partition := by
  cases partition <;> decide

theorem index_injective {a b : Partition} (same : a.index = b.index) : a = b := by
  have ha := ofIndex?_index a
  rw [same, ofIndex?_index b] at ha
  exact (Option.some.inj ha).symm

end Partition

/-- A region and a resource partition in it. -/
structure Location where
  region : Region
  partition : Partition
  deriving DecidableEq, Repr, Inhabited

namespace Location

/-- The text of a location: both names, separated by a slash. -/
def text (location : Location) : String :=
  location.region.name ++ "/" ++ location.partition.name

/-- The position of a location among all locations of both tables. -/
def rank (location : Location) : Nat :=
  location.region.index * Partition.count + location.partition.index

/-- The location of a pair of raw integers, when both stand in their table. -/
def ofRaw? (region partition : Int) : Option Location :=
  match region, partition with
  | .ofNat r, .ofNat p =>
    match Region.ofIndex? r, Partition.ofIndex? p with
    | some region, some partition => some ⟨region, partition⟩
    | _, _ => none
  | _, _ => none

theorem rank_injective {a b : Location} (same : a.rank = b.rank) : a = b := by
  obtain ⟨ra, pa⟩ := a
  obtain ⟨rb, pb⟩ := b
  have boundA := pa.index_lt
  have boundB := pb.index_lt
  simp only [rank, Partition.count] at same boundA boundB
  have regions : ra.index = rb.index := by omega
  have partitions : pa.index = pb.index := by omega
  rw [Region.index_injective regions, Partition.index_injective partitions]

/-- Locations are ordered by region, then by partition. -/
instance : Ord Location where
  compare a b := compare a.rank b.rank

instance : Std.TransOrd Location where
  eq_swap {a b} := @Std.OrientedCmp.eq_swap Nat compare _ a.rank b.rank
  isLE_trans {a b c} := @Std.TransCmp.isLE_trans Nat compare _ a.rank b.rank c.rank

instance : Std.LawfulEqOrd Location where
  compare_self {a} := @Std.ReflCmp.compare_self Nat compare _ a.rank
  eq_of_compare same :=
    rank_injective (@Std.LawfulEqCmp.eq_of_compare Nat compare _ _ _ same)

/-- Raw integers taken from a location name it again. -/
theorem ofRaw?_index (location : Location) :
    ofRaw? location.region.index location.partition.index = some location := by
  obtain ⟨region, partition⟩ := location
  cases region <;> cases partition <;> rfl

end Location

end FleetRing
