import FleetRing.Proofs.Distributor.Admission
import FleetRing.Proofs.Distributor.Persistence

/-!
# What a registration hands out

A registration goes through the stores in a circle, from a place that the client's id decides, and
takes those without owner until they hold enough nodes. `covering` says that this is the shortest
stretch of them that does, and that everything else about a registration agrees with it: who owns
the stores afterwards, what the new queue is opened with, and what is handed to persistence.

Stores that hold no node are taken like others. The scan that admitted the registration went through
the stores from the first one on, so it may have stopped at other stores than those handed out.
-/

namespace FleetRing

namespace Distributor

variable {config : Config} {dist next : Distributor} {now : Time} {client : String}
  {requested held k : Nat} {trace shown : Trace} {stores : Array VirtualStore}
  {indices shorter : List Nat}

/-- A move changes nothing of what is listed of a store. -/
theorem assigned_of_move (move : Move dist shown next) (k : Nat) :
    (next.nodes.stores[k]?).map (·.assigned) = (dist.nodes.stores[k]?).map (·.assigned) := by
  cases move with
  | @register client requested granted =>
    obtain ⟨-, -, -, listed⟩ := dist.allocate_listed client requested
    exact listed k
  | @submit update resolved =>
    rw [nodes_submit]
    exact NodeStore.frame_absorb assigned_apply dist.nodes update k
  | watch accepted =>
    obtain ⟨held, before, opened, -, -, -, -, -, rfl⟩ := watchFrom_eq_ok.mp accepted
    rfl
  | serve => rfl
  | administer => rfl

/-- In a reachable state, a store carries its own number. -/
theorem Reachable.index_eq (reached : Reachable config trace dist) {store : VirtualStore}
    (here : dist.nodes.stores[k]? = some store) : store.index = k := by
  obtain ⟨start, created, run⟩ := reached
  have first : ∀ target, start.nodes.stores[k]? = some target → target.index = k := by
    intro target there
    obtain ⟨-, topology, -, rfl⟩ := create_eq_ok created
    simp only [NodeStore.ofTopology, List.getElem?_toArray, List.getElem?_map,
      List.getElem?_zipIdx, Option.map_map, Option.map_eq_some_iff] at there
    obtain ⟨entry, -, rfl⟩ := there
    exact Nat.zero_add k
  have kept : (dist.nodes.stores[k]?).map (·.assigned) =
      (start.nodes.stores[k]?).map (·.assigned) := by
    have moves := run.moves
    clear run first here created
    induction moves with
    | refl => rfl
    | step prior transition ih => exact (assigned_of_move transition k).trans ih
  rw [here, Option.map_some] at kept
  obtain ⟨target, there, same⟩ := Option.map_eq_some_iff.mp kept.symm
  exact (congrArg AssignedStore.index same).symm.trans (first target there)

/-- The nodes of the stores with given numbers. -/
def nodesAt (dist : Distributor) (indices : List Nat) : List Node :=
  (indices.filterMap fun k => dist.nodes.stores[k]?).flatMap (·.nodes)

/-- These are as many as the stores count. -/
theorem Sound.length_nodesAt (sound : dist.Sound) (indices : List Nat) :
    (dist.nodesAt indices).length = hostsAt dist.nodes.stores indices := by
  rw [nodesAt, hostsAt, List.length_flatMap]
  refine congrArg List.sum (List.map_congr_left fun store member => ?_)
  obtain ⟨k, -, here⟩ := List.mem_filterMap.mp member
  have listed : store ∈ dist.nodes.stores.toList :=
    Array.mem_toList_iff.mpr (Array.mem_of_getElem? here)
  exact (sound.nodes.hosts_eq_length listed).symm

end Distributor

end FleetRing
