import FleetRing.Store
import Mathlib.Data.List.Basic

/-!
# How stores are laid out along the ring

Locations are numbered along the ring, and stores are numbered in blocks: those of
location `i` are the ones from `i * n` on, `n` of them. Nothing here depends on
the arithmetic of positions, so routing is in bounds and true to the location
whatever a floating point computation yields.
-/

namespace FleetRing

section Blocks

variable {α β : Type} {f : α → List β} {n : Nat} {items : List α}

/-- Blocks of one length take up that length each. -/
theorem length_flatMap_of_length (each : ∀ item ∈ items, (f item).length = n) :
    (items.flatMap f).length = items.length * n := by
  rw [List.length_flatMap, List.map_congr_left each, List.map_const', List.sum_replicate_nat]

/-- Entry `j` of block `i` stands at `i * n + j`. -/
theorem getElem?_flatMap_of_length (each : ∀ item ∈ items, (f item).length = n) (i : Nat)
    {j : Nat} (inside : j < n) :
    (items.flatMap f)[i * n + j]? = items[i]?.bind fun item => (f item)[j]? := by
  induction items generalizing i with
  | nil => simp
  | cons item items ih =>
    have first := each item List.mem_cons_self
    have rest : ∀ other ∈ items, (f other).length = n :=
      fun other member => each other (List.mem_cons_of_mem item member)
    rw [List.flatMap_cons]
    cases i with
    | zero =>
      rw [Nat.zero_mul, Nat.zero_add, List.getElem?_append_left (by omega)]
      simp
    | succ i =>
      have behind : (i + 1) * n + j = (f item).length + (i * n + j) := by
        rw [first, Nat.add_mul]
        omega
      rw [behind, List.getElem?_append_right (Nat.le_add_right _ _), Nat.add_sub_cancel_left,
        ih rest i]
      simp

end Blocks

/-- A region stands where its position says. -/
theorem Region.index_of_ofIndex? {i : Nat} {region : Region} (found : ofIndex? i = some region) :
    region.index = i := by
  have bound : i < all.length := (List.getElem?_eq_some_iff.mp found).1
  exact ((List.getElem?_inj bound (by decide)).mp (found.trans (ofIndex?_index region).symm)).symm

/-- A partition stands where its position says. -/
theorem Partition.index_of_ofIndex? {i : Nat} {partition : Partition}
    (found : ofIndex? i = some partition) : partition.index = i := by
  have bound : i < all.length := (List.getElem?_eq_some_iff.mp found).1
  exact ((List.getElem?_inj bound (by decide)).mp
    (found.trans (ofIndex?_index partition).symm)).symm

/-- The raw integers of a location are its positions in the tables. -/
theorem Location.index_of_ofRaw? {region partition : Int} {location : Location}
    (found : ofRaw? region partition = some location) :
    (location.region.index : Int) = region ∧ (location.partition.index : Int) = partition := by
  unfold ofRaw? at found
  split at found
  · next r p =>
    split at found
    · next first second regionAt partitionAt =>
      obtain rfl := Option.some.inj found
      exact ⟨congrArg Int.ofNat (Region.index_of_ofIndex? regionAt),
        congrArg Int.ofNat (Partition.index_of_ofIndex? partitionAt)⟩
    · cases found
  · cases found

namespace Topology

variable (topology : Topology) {location : Location} {i : Nat}

/-- The number of a location leads back to it. -/
theorem locationAt?_of_indexOf? (found : topology.indexOf? location = some i) :
    i < topology.size ∧ topology.locationAt? i = some location := by
  unfold indexOf? at found
  split at found
  · next inside =>
    obtain rfl := Option.some.inj found
    obtain ⟨regions, partitions⟩ := inside
    have bound : location.region.index * topology.partitions + location.partition.index <
        topology.size := by
      calc location.region.index * topology.partitions + location.partition.index
          < (location.region.index + 1) * topology.partitions := by
            rw [Nat.add_mul, Nat.one_mul]
            exact Nat.add_lt_add_left partitions _
        _ ≤ topology.size := Nat.mul_le_mul_right _ regions
    have region : (location.region.index * topology.partitions + location.partition.index) /
        topology.partitions = location.region.index := by
      rw [Nat.mul_comm, Nat.mul_add_div topology.partitions_pos, Nat.div_eq_of_lt partitions,
        Nat.add_zero]
    have partition : (location.region.index * topology.partitions + location.partition.index) %
        topology.partitions = location.partition.index := by
      rw [Nat.mul_comm, Nat.mul_add_mod, Nat.mod_eq_of_lt partitions]
    refine ⟨bound, ?_⟩
    simp [locationAt?, bound, region, partition, Region.ofIndex?_index, Partition.ofIndex?_index]
  · cases found

/-- The location with a number has that number. -/
theorem indexOf?_of_locationAt? (found : topology.locationAt? i = some location) :
    topology.indexOf? location = some i := by
  unfold locationAt? at found
  split at found
  · next bound =>
    split at found
    · next region partition regionAt partitionAt =>
      obtain rfl := Option.some.inj found
      have regions : i / topology.partitions < topology.regions :=
        Nat.div_lt_of_lt_mul (Nat.mul_comm _ _ ▸ bound)
      have partitions := Nat.mod_lt i topology.partitions_pos
      have whole := Nat.div_add_mod' i topology.partitions
      simp only [indexOf?, Region.index_of_ofIndex? regionAt,
        Partition.index_of_ofIndex? partitionAt, regions, partitions, whole, and_self, if_true]
    · cases found
  · cases found

/-- Every number below the size is that of a location. -/
theorem exists_locationAt? (bound : i < topology.size) :
    ∃ location, topology.locationAt? i = some location := by
  have regionBound : i / topology.partitions < Region.all.length := by
    have product : i < topology.partitions * topology.regions := Nat.mul_comm _ _ ▸ bound
    exact Nat.lt_of_lt_of_le (Nat.div_lt_of_lt_mul product) topology.regions_le
  have partitionBound : i % topology.partitions < Partition.all.length :=
    Nat.lt_of_lt_of_le (Nat.mod_lt i topology.partitions_pos) topology.partitions_le
  simp [locationAt?, bound, Region.ofIndex?, Partition.ofIndex?,
    List.getElem?_eq_getElem regionBound, List.getElem?_eq_getElem partitionBound]

/-- Every number below the size has its entry in the list of locations. -/
theorem locations_eq : topology.locations =
    (List.range topology.size).map fun i => (topology.locationAt? i).getD default := by
  rw [locations, List.filterMap_eq_map_iff_forall_eq_some]
  intro i member
  obtain ⟨location, found⟩ := topology.exists_locationAt? (List.mem_range.mp member)
  simp [found]

/-- Locations are listed by number. -/
theorem getElem?_locations (i : Nat) : topology.locations[i]? = topology.locationAt? i := by
  rw [locations_eq, List.getElem?_map]
  by_cases bound : i < topology.size
  · obtain ⟨location, found⟩ := topology.exists_locationAt? bound
    simp [bound, found]
  · simp [bound, locationAt?]

@[simp]
theorem length_locations : topology.locations.length = topology.size := by
  simp [locations_eq]

/-- Every location has an arc. -/
theorem length_arcs {α : Type} [Scalar α] :
    (topology.arcs : List (Arc α)).length = topology.size := by
  rw [arcs, length_flatMap_of_length fun arc _ => arc.length_split topology.partitions,
    Arc.length_split, size]

end Topology

namespace Ring

variable {α : Type} [Scalar α] (ring : Ring α) {location : Location} {i n : Nat}

/-- A location of the ring has the arc with its number. -/
theorem exists_arcOf? (found : ring.topology.indexOf? location = some i) :
    ∃ arc, ring.arcOf? location = some arc := by
  have bound := (ring.topology.locationAt?_of_indexOf? found).1
  have inside : i < ring.arcs.size := by
    rw [ring.arcs_eq, List.size_toArray, ring.topology.length_arcs]
    exact bound
  exact ⟨ring.arcs[i], by simp [arcOf?, found, inside]⟩

/-- The part of the layout that belongs to a location. -/
def block (n : Nat) (location : Location) : List (Location × Arc α) :=
  match ring.arcOf? location with
  | some arc => (arc.split n).map fun part => (location, part)
  | none => []

theorem layout_eq (n : Nat) : ring.layout n = ring.topology.locations.flatMap (ring.block n) := rfl

/-- Every location has as many stores. -/
theorem length_block (listed : location ∈ ring.topology.locations) :
    (ring.block n location).length = n := by
  obtain ⟨i, found⟩ := List.mem_iff_getElem?.mp listed
  rw [ring.topology.getElem?_locations] at found
  obtain ⟨arc, here⟩ := ring.exists_arcOf? (ring.topology.indexOf?_of_locationAt? found)
  simp [block, here]

/-- Every location has its block in the layout. -/
theorem length_layout (n : Nat) : (ring.layout n).length = ring.topology.size * n := by
  rw [layout_eq, length_flatMap_of_length fun _ => ring.length_block,
    ring.topology.length_locations]

/-- Block `i` of the layout holds the parts of the arc of location `i`, in order. -/
theorem getElem?_layout_eq {arc : Arc α} {j : Nat} (inside : j < n)
    (found : ring.topology.indexOf? location = some i) (here : ring.arcOf? location = some arc) :
    (ring.layout n)[i * n + j]? = some (location, arc.part n j) := by
  have listed : ring.topology.locations[i]? = some location := by
    rw [ring.topology.getElem?_locations]
    exact (ring.topology.locationAt?_of_indexOf? found).2
  rw [layout_eq, getElem?_flatMap_of_length (fun _ => ring.length_block) i inside, listed]
  simp [block, here, Arc.split, inside]

/-- Block `i` of the layout belongs to location `i`. -/
theorem getElem?_layout {j : Nat} (inside : j < n)
    (found : ring.topology.indexOf? location = some i) :
    ∃ part, (ring.layout n)[i * n + j]? = some (location, part) := by
  obtain ⟨arc, here⟩ := ring.exists_arcOf? found
  exact ⟨arc.part n j, ring.getElem?_layout_eq inside found here⟩

/-- Nothing else is in the layout: entry `k` belongs to block `k / n`. -/
theorem locationAt?_of_layout (positive : 0 < n) {k : Nat} {entry : Location × Arc α}
    (here : (ring.layout n)[k]? = some entry) :
    ring.topology.locationAt? (k / n) = some entry.1 := by
  have bound : k < n * ring.topology.size := by
    have inside := (List.getElem?_eq_some_iff.mp here).1
    rwa [ring.length_layout, Nat.mul_comm] at inside
  obtain ⟨location, found⟩ := ring.topology.exists_locationAt? (Nat.div_lt_of_lt_mul bound)
  obtain ⟨part, placed⟩ :=
    ring.getElem?_layout (Nat.mod_lt k positive) (ring.topology.indexOf?_of_locationAt? found)
  rw [Nat.div_add_mod', here] at placed
  rw [found, Option.some.inj placed]

end Ring

namespace NodeStore

/-- The stores stand where the layout of the ring puts them. -/
structure Laid (store : NodeStore) : Prop where
  positive : 0 < store.perLocation
  location_eq : ∀ k : Nat, (store.stores[k]?).map (·.location) =
    ((store.ring.layout store.perLocation)[k]?).map (·.1)

/-- A new node store is laid out. -/
theorem laid_ofTopology (topology : Topology) {perLocation : Nat} (positive : 0 < perLocation) :
    (ofTopology topology perLocation).Laid where
  positive := positive
  location_eq k := by
    simp only [ofTopology, List.getElem?_toArray, List.getElem?_map, List.getElem?_zipIdx,
      Option.map_map]
    rfl

/-- A token is served by a store of its location. -/
theorem Laid.location_of_locate? {store : NodeStore} (laid : store.Laid) {token : Token}
    {location : Location} {k : Nat} (found : store.locate? token location = some k) :
    ∃ target, store.stores[k]? = some target ∧ target.location = location := by
  unfold locate? at found
  split at found
  · next i arc index _ =>
    obtain rfl := Option.some.inj found
    have inside := arc.partOf_lt laid.positive (arc.position token.fraction)
    obtain ⟨part, placed⟩ := store.ring.getElem?_layout inside index
    have same := laid.location_eq (arc.storeOf i store.perLocation (arc.position token.fraction))
    rw [show (store.ring.layout store.perLocation)[arc.storeOf i store.perLocation
      (arc.position token.fraction)]? = some (location, part) from placed] at same
    exact Option.map_eq_some_iff.mp same
  · cases found

end NodeStore

end FleetRing
