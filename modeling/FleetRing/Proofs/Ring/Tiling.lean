import FleetRing.Proofs.Ring.Serving
import FleetRing.Proofs.Store.Routing

/-!
# Stores tile the ring

The ring is cut three times: into regions, these into partitions, and these into stores. Each cut
computes its borders anew, and only the last one is taken over from what is cut. So the stores
follow each other without gaps if computing the first border of a cut gives what was there before;
nothing else is asked of the arithmetic (`IsAnchored`), and exact arithmetic always does this.

`Tiles` is kept by cutting each piece of a tiling, which takes it from the whole ring down to the
stores. In exact arithmetic every piece has a width, and so every point of the ring is on one store
exactly (`stores_tile`).
-/

namespace FleetRing

namespace Arc

/-- Arcs that follow each other from one point to another, each starting where the one before it
ends. -/
inductive Tiles {α : Type} : α → List (Arc α) → α → Prop
  | nil (here : α) : Tiles here [] here
  | cons {lower upper : α} {arc : Arc α} {arcs : List (Arc α)} (start : arc.lower = lower)
      (rest : Tiles arc.upper arcs upper) : Tiles lower (arc :: arcs) upper

namespace Tiles

variable {α : Type} {lower middle upper : α} {arc next : Arc α} {arcs others : List (Arc α)}

theorem append (tiles : Tiles lower arcs middle) (rest : Tiles middle others upper) :
    Tiles lower (arcs ++ others) upper := by
  induction tiles with
  | nil here => exact rest
  | cons start _ ih => exact .cons start (ih rest)

/-- Cutting every arc of a tiling gives a tiling. -/
theorem flatMap {cut : Arc α → List (Arc α)} (tiles : Tiles lower arcs upper)
    (each : ∀ arc ∈ arcs, Tiles arc.lower (cut arc) arc.upper) :
    Tiles lower (arcs.flatMap cut) upper := by
  induction tiles with
  | nil here => exact .nil here
  | cons start _ ih =>
    rw [List.flatMap_cons, ← start]
    exact (each _ List.mem_cons_self).append
      (ih fun other member => each other (List.mem_cons_of_mem _ member))

/-- Borders in a row tile what lies between the first and the last. -/
theorem of_borders (border : Nat → α) (n : Nat) :
    Tiles (border 0) ((List.range n).map fun i => ⟨border i, border (i + 1)⟩) (border n) := by
  induction n with
  | zero => exact .nil _
  | succ n ih =>
    rw [List.range_succ, List.map_append]
    exact ih.append (.cons rfl (.nil _))

theorem lower_eq (tiles : Tiles lower arcs upper) (here : arcs[0]? = some arc) :
    arc.lower = lower := by
  cases tiles with
  | nil => cases here
  | cons start => exact Option.some.inj here ▸ start

theorem upper_eq (tiles : Tiles lower arcs upper) (here : arcs[arcs.length - 1]? = some arc) :
    arc.upper = upper := by
  induction tiles with
  | nil => cases here
  | cons _ rest ih =>
    cases rest with
    | nil => exact congrArg Arc.upper (Option.some.inj here).symm
    | cons => exact ih here

/-- Where one arc ends the next one starts. -/
theorem adjoin (tiles : Tiles lower arcs upper) {k : Nat} (here : arcs[k]? = some arc)
    (there : arcs[k + 1]? = some next) : arc.upper = next.lower := by
  induction tiles generalizing k with
  | nil => cases here
  | cons _ rest ih =>
    cases k with
    | zero =>
      obtain rfl := Option.some.inj here
      exact (rest.lower_eq there).symm
    | succ k => exact ih here there

end Tiles

variable {α : Type} [Scalar α]

/-- Computing the first border of `n` parts of an arc gives the lower end of the arc. -/
def IsAnchored (arc : Arc α) (n : Nat) : Prop :=
  arc.lower + Scalar.ofCount 0 * (arc.width / Scalar.ofCount n) = arc.lower

instance [DecidableEq α] (arc : Arc α) (n : Nat) : Decidable (arc.IsAnchored n) :=
  inferInstanceAs (Decidable (_ = _))

/-- The parts of an arc tile it. -/
theorem tiles_split {arc : Arc α} {n : Nat} (positive : 0 < n) (anchored : arc.IsAnchored n) :
    Tiles arc.lower (arc.split n) arc.upper := by
  -- The borders as they are after the last one is taken over from the arc.
  let border (i : Nat) : α :=
    if i = n then arc.upper else arc.border (arc.width / Scalar.ofCount n) i
  have first : border 0 = arc.lower := (if_neg positive.ne).trans anchored
  have last : border n = arc.upper := if_pos rfl
  have parts : arc.split n = (List.range n).map fun i => ⟨border i, border (i + 1)⟩ := by
    refine List.map_congr_left fun i member => ?_
    have inner : border i = arc.border (arc.width / Scalar.ofCount n) i :=
      if_neg (List.mem_range.mp member).ne
    rw [inner]
    rfl
  rw [parts, ← first, ← last]
  exact .of_borders border n

end Arc

variable {α : Type} [Scalar α]

/-- None of the cuts that lay out `n` stores for each location moves the start of what it cuts. -/
structure Topology.IsAnchored (α : Type) [Scalar α] (topology : Topology) (n : Nat) : Prop where
  ring : (wholeRing : Arc α).IsAnchored topology.regions
  regions : ∀ region ∈ (wholeRing : Arc α).split topology.regions,
    region.IsAnchored topology.partitions
  locations : ∀ arc ∈ (topology.arcs : List (Arc α)), arc.IsAnchored n

/-- The arcs of all locations tile the ring. -/
theorem Topology.tiles_arcs {topology : Topology} {n : Nat} (anchored : topology.IsAnchored α n) :
    Arc.Tiles (Scalar.ofCount 0 : α) topology.arcs (Scalar.ofCount 360) :=
  (Arc.tiles_split topology.regions_pos anchored.ring).flatMap fun region member =>
    Arc.tiles_split topology.partitions_pos (anchored.regions region member)

namespace Ring

variable (ring : Ring α) {n : Nat}

/-- Locations and arcs are numbered alike. -/
theorem map_arcOf?_locations :
    ring.topology.locations.map ring.arcOf? = (ring.topology.arcs : List (Arc α)).map some := by
  refine List.ext_getElem? fun i => ?_
  rw [List.getElem?_map, List.getElem?_map, ring.topology.getElem?_locations]
  cases found : ring.topology.locationAt? i with
  | none =>
    have beyond : ring.topology.size ≤ i := by
      by_contra inside
      obtain ⟨location, here⟩ := ring.topology.exists_locationAt? (not_le.mp inside)
      rw [found] at here
      cases here
    rw [List.getElem?_eq_none (by rwa [ring.topology.length_arcs])]
    rfl
  | some location =>
    have number := ring.topology.indexOf?_of_locationAt? found
    obtain ⟨arc, here⟩ := ring.exists_arcOf? number
    have placed : (ring.topology.arcs : List (Arc α))[i]? = some arc := by
      simpa [arcOf?, number, ring.arcs_eq] using here
    rw [placed, Option.map_some, Option.map_some, here]

/-- The stores are the parts of all arcs, in order. -/
theorem map_snd_layout (n : Nat) :
    (ring.layout n).map (·.2) = (ring.topology.arcs : List (Arc α)).flatMap (·.split n) := by
  have blocks : (ring.layout n).map (·.2) =
      (ring.topology.locations.map ring.arcOf?).flatMap fun found =>
        found.elim [] (·.split n) := by
    rw [layout_eq, List.map_flatMap, List.flatMap_map]
    refine congrArg (List.flatMap · _) (funext fun location => ?_)
    unfold block
    cases ring.arcOf? location <;> simp
  rw [blocks, map_arcOf?_locations, List.flatMap_map]
  rfl

/-- The stores tile the ring. -/
theorem tiles_layout (positive : 0 < n) (anchored : ring.topology.IsAnchored α n) :
    Arc.Tiles (Scalar.ofCount 0 : α) ((ring.layout n).map (·.2)) (Scalar.ofCount 360) := by
  rw [map_snd_layout]
  exact (Topology.tiles_arcs anchored).flatMap fun arc member =>
    Arc.tiles_split positive (anchored.locations arc member)

/-- Sites that tile a ring, `n` of them for each location. -/
structure Tiled (n : Nat) (sites : List (Location × Arc α)) (lower upper : α) : Prop where
  /-- The first one starts where the ring does, -/
  first : ∃ site, sites[0]? = some site ∧ site.2.lower = lower
  /-- the last one ends where the ring does, -/
  last : ∃ site, sites[sites.length - 1]? = some site ∧ site.2.upper = upper
  /-- and all others end where the next one starts. -/
  adjoin : ∀ k site next, sites[k]? = some site → sites[k + 1]? = some next →
    site.2.upper = next.2.lower
  /-- Blocks of `n` belong to one location each, -/
  location : ∀ k site, sites[k]? = some site → ring.topology.locationAt? (k / n) = some site.1
  /-- and reach from the start to the end of its arc. -/
  arc : ∀ location i, ring.topology.indexOf? location = some i →
    ∃ arc first last, ring.arcOf? location = some arc ∧
      sites[i * n]? = some (location, first) ∧ first.lower = arc.lower ∧
      sites[i * n + (n - 1)]? = some (location, last) ∧ last.upper = arc.upper

variable {ring}

theorem mem_arcs_of_arcOf? {location : Location} {arc : Arc α}
    (here : ring.arcOf? location = some arc) : arc ∈ (ring.topology.arcs : List (Arc α)) := by
  unfold arcOf? at here
  split at here
  · rw [ring.arcs_eq, List.getElem?_toArray] at here
    exact List.mem_of_getElem? here
  · cases here

/-- The layout of a ring tiles it. -/
theorem tiled_layout (positive : 0 < n) (anchored : ring.topology.IsAnchored α n) :
    ring.Tiled n (ring.layout n) (Scalar.ofCount 0) (Scalar.ofCount 360) := by
  have tiles := ring.tiles_layout positive anchored
  have arc_of {k : Nat} {site : Location × Arc α} (here : (ring.layout n)[k]? = some site) :
      ((ring.layout n).map (·.2))[k]? = some site.2 := by
    rw [List.getElem?_map, here, Option.map_some]
  have inhabited : 0 < (ring.layout n).length := by
    rw [ring.length_layout]
    exact Nat.mul_pos (Nat.mul_pos ring.topology.regions_pos ring.topology.partitions_pos) positive
  refine ⟨?_, ?_, fun k site next here there => ?_, fun k site here => ?_,
    fun location i number => ?_⟩
  · have here := List.getElem?_eq_getElem inhabited
    exact ⟨_, here, tiles.lower_eq (arc_of here)⟩
  · have here := List.getElem?_eq_getElem (Nat.sub_one_lt inhabited.ne')
    refine ⟨_, here, tiles.upper_eq ?_⟩
    rw [List.length_map]
    exact arc_of here
  · exact tiles.adjoin (arc_of here) (arc_of there)
  · exact ring.locationAt?_of_layout positive here
  · obtain ⟨arc, here⟩ := ring.exists_arcOf? number
    have parts := Arc.tiles_split positive (anchored.locations arc (mem_arcs_of_arcOf? here))
    have final : n - 1 < n := Nat.sub_one_lt positive.ne'
    have start : (arc.split n)[0]? = some (arc.part n 0) :=
      Arc.getElem?_split_eq_some.mpr ⟨positive, rfl⟩
    have stop : (arc.split n)[n - 1]? = some (arc.part n (n - 1)) :=
      Arc.getElem?_split_eq_some.mpr ⟨final, rfl⟩
    refine ⟨arc, arc.part n 0, arc.part n (n - 1), here,
      ring.getElem?_layout_eq positive number here, parts.lower_eq start,
      ring.getElem?_layout_eq final number here, parts.upper_eq ?_⟩
    rwa [Arc.length_split]

end Ring

namespace Arc

variable {lower upper point : Rat} {arc part : Arc Rat} {arcs : List (Arc Rat)} {n : Nat}

/-- Exact arithmetic moves nothing. -/
theorem isAnchored (arc : Arc Rat) (n : Nat) : arc.IsAnchored n := by
  have still : arc.lower + (0 : Rat) * (arc.width / Scalar.ofCount n) = arc.lower := by
    rw [zero_mul, add_zero]
  exact still

/-- The parts of an arc that has a width have one. -/
theorem lower_lt_upper_of_mem_split (wide : arc.lower < arc.upper) (member : part ∈ arc.split n) :
    part.lower < part.upper := by
  obtain ⟨i, inside, rfl⟩ := mem_split.mp member
  have positive : 0 < n := Nat.zero_lt_of_lt inside
  rw [part_eq arc positive]
  exact (add_lt_add_iff_left _).mpr
    (mul_lt_mul_of_pos_right (Nat.cast_lt.mpr (Nat.lt_succ_self i)) (step_pos wide positive))

namespace Tiles

/-- No arc of a tiling starts before the tiling does. -/
theorem le_lower (tiles : Tiles lower arcs upper) (wide : ∀ arc ∈ arcs, arc.lower < arc.upper)
    (member : arc ∈ arcs) : lower ≤ arc.lower := by
  induction tiles with
  | nil => cases member
  | @cons lower upper first arcs start rest ih =>
    rcases List.mem_cons.mp member with rfl | later
    · exact start.ge
    · have first_wide := wide first List.mem_cons_self
      have after := ih (fun other among => wide other (List.mem_cons_of_mem first among)) later
      rw [← start]
      exact first_wide.le.trans after

/-- Every point is on exactly one arc of a tiling. -/
theorem existsUnique_contains (tiles : Tiles lower arcs upper)
    (wide : ∀ arc ∈ arcs, arc.lower < arc.upper) (above : lower ≤ point) (below : point < upper) :
    ∃! k : Nat, ∃ arc, arcs[k]? = some arc ∧ arc.contains point = true := by
  induction tiles with
  | nil => exact absurd below (not_lt.mpr above)
  | @cons lower upper first arcs start rest ih =>
    have rest_wide : ∀ arc ∈ arcs, arc.lower < arc.upper :=
      fun other among => wide other (List.mem_cons_of_mem first among)
    by_cases here : point < first.upper
    · refine ⟨0, ⟨first, rfl, contains_iff.mpr ⟨start.trans_le above, here⟩⟩, ?_⟩
      rintro (- | k) ⟨arc, found, on⟩
      · rfl
      · have later := rest.le_lower rest_wide (List.mem_of_getElem? found)
        exact absurd here (not_lt.mpr (later.trans (contains_iff.mp on).1))
    · obtain ⟨k, on, only⟩ := ih rest_wide (not_lt.mp here) below
      refine ⟨k + 1, on, ?_⟩
      rintro (- | other) ⟨arc, found, contained⟩
      · obtain rfl := Option.some.inj found
        exact absurd (contains_iff.mp contained).2 here
      · rw [only other ⟨arc, found, contained⟩]

end Tiles

end Arc

namespace Topology

theorem isAnchored (topology : Topology) (n : Nat) : topology.IsAnchored Rat n where
  ring := Arc.isAnchored _ _
  regions _ _ := Arc.isAnchored _ _
  locations _ _ := Arc.isAnchored _ _

/-- Every location has an arc with a width. -/
theorem lower_lt_upper_of_mem_arcs {topology : Topology} {arc : Arc Rat}
    (member : arc ∈ topology.arcs) : arc.lower < arc.upper := by
  obtain ⟨region, among, within⟩ := List.mem_flatMap.mp member
  have whole : (wholeRing : Arc Rat).lower < (wholeRing : Arc Rat).upper := by decide
  exact Arc.lower_lt_upper_of_mem_split (Arc.lower_lt_upper_of_mem_split whole among) within

end Topology

/-- So does every store. -/
theorem Ring.lower_lt_upper_of_mem_layout {ring : Ring Rat} {n : Nat} {site : Location × Arc Rat}
    (member : site ∈ ring.layout n) : site.2.lower < site.2.upper := by
  have among := List.mem_map_of_mem (f := (·.2)) member
  rw [ring.map_snd_layout, List.mem_flatMap] at among
  obtain ⟨arc, listed, part⟩ := among
  exact Arc.lower_lt_upper_of_mem_split (Topology.lower_lt_upper_of_mem_arcs listed) part

/-- Every point of the ring is on exactly one store. -/
theorem Ring.existsUnique_contains (ring : Ring Rat) {n : Nat} (positive : 0 < n) {point : Rat}
    (above : 0 ≤ point) (below : point < 360) :
    ∃! k : Nat, ∃ site, (ring.layout n)[k]? = some site ∧ site.2.contains point = true := by
  have tiles := ring.tiles_layout positive (ring.topology.isAnchored n)
  have wide : ∀ arc ∈ (ring.layout n).map (·.2), arc.lower < arc.upper := by
    intro arc member
    obtain ⟨site, listed, rfl⟩ := List.mem_map.mp member
    exact lower_lt_upper_of_mem_layout listed
  have reading (k : Nat) : (∃ arc, ((ring.layout n).map (·.2))[k]? = some arc ∧
      arc.contains point = true) ↔
        ∃ site, (ring.layout n)[k]? = some site ∧ site.2.contains point = true := by
    rw [List.getElem?_map]
    cases (ring.layout n)[k]? <;> simp
  simpa only [reading] using tiles.existsUnique_contains wide above below

namespace NodeStore

/-- The place of every store, by number. -/
def sites (store : NodeStore) : List (Location × Arc Float) :=
  store.stores.toList.map fun target => (target.location, target.arc)

/-- A node store of a topology can be created, its stores tile the ring, and in exact arithmetic
each point of the ring would be on one of them. -/
structure TilesRing (topology : Topology) (n : Nat) : Prop where
  /-- The stores, in index order, go around the ring from its start to its end. -/
  stores : ∃ store, create n topology.regions topology.partitions = .ok store ∧
    store.ring = .ofTopology topology ∧
    store.stores.toList.map (·.index) = List.range (topology.regions * topology.partitions * n) ∧
    store.ring.Tiled n store.sites 0.0 360.0
  /-- So do they in exact arithmetic, -/
  exactly : (Ring.ofTopology topology : Ring Rat).Tiled n ((Ring.ofTopology topology).layout n) 0 360
  /-- where every one of them has a width, -/
  wide : ∀ site ∈ (Ring.ofTopology topology : Ring Rat).layout n, site.2.lower < site.2.upper
  /-- and every point of the ring is on exactly one of them. -/
  contains : ∀ point : Rat, 0 ≤ point → point < 360 →
    ∃! k : Nat, ∃ site, ((Ring.ofTopology topology : Ring Rat).layout n)[k]? = some site ∧
      site.2.contains point = true

/-- The stores of every topology tile the ring, however many there are of each location, provided
that adding no step at all to the start of an arc gives that start. -/
theorem stores_tile (topology : Topology) {n : Nat} (positive : 0 < n)
    (anchored : topology.IsAnchored Float n) : TilesRing topology n := by
  have sites : (ofTopology topology n).sites = (Ring.ofTopology topology : Ring Float).layout n := by
    simp only [NodeStore.sites, ofTopology, List.map_map]
    exact List.zipIdx_map_fst 0 _
  have indices : (ofTopology topology n).stores.toList.map (·.index) =
      List.range (topology.regions * topology.partitions * n) := by
    have bound : ((Ring.ofTopology topology : Ring Float).layout n).length =
        topology.regions * topology.partitions * n := Ring.length_layout _ n
    simp only [ofTopology, List.map_map]
    rw [List.range_eq_range', ← bound]
    exact List.zipIdx_map_snd 0 _
  have created := create_eq_ok.mpr ⟨positive, topology, rfl, rfl, rfl⟩
  refine ⟨⟨ofTopology topology n, created, rfl, indices, ?_⟩, ?_, fun site => ?_, fun point => ?_⟩
  · rw [sites]
    exact Ring.tiled_layout positive anchored
  · exact Ring.tiled_layout positive (topology.isAnchored n)
  · exact Ring.lower_lt_upper_of_mem_layout
  · exact Ring.existsUnique_contains _ positive

/-- Six locations with four stores each: the arithmetic of floating point numbers does not move any
of the borders. -/
theorem stores_tile_quarters :
    TilesRing ⟨2, 3, by decide, by decide, by decide, by decide⟩ 4 :=
  stores_tile ⟨2, 3, by decide, by decide, by decide, by decide⟩ (by decide)
    ⟨by decide +kernel, by decide +kernel, by decide +kernel⟩

end NodeStore

end FleetRing
