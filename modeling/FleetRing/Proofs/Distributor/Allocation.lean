import FleetRing.Distributor
import FleetRing.Proofs.Store.Inventory

/-!
# How stores are handed out

`select` picks free stores without repetition, and enough of them whenever the free
stores cover the request, wherever it starts. `assignAll` gives a client exactly the stores
that it was handed, and leaves all others alone.
-/

namespace FleetRing

namespace Distributor

variable {stores : Array VirtualStore} {requested : Nat} {indices : List Nat} {k : Nat}

/-- A store without owner. -/
def IsFree (stores : Array VirtualStore) (k : Nat) (store : VirtualStore) : Prop :=
  stores[k]? = some store ∧ store.isAssigned = false

/-- What is selected comes in the given order. -/
theorem select_sublist (stores : Array VirtualStore) (requested held : Nat) (indices : List Nat) :
    (select stores requested held indices).Sublist indices := by
  induction indices generalizing held with
  | nil => exact List.Sublist.slnil
  | cons k rest ih =>
    unfold select
    split
    · exact (ih held).cons k
    · split
      · exact (ih held).cons k
      · split
        · exact (List.nil_sublist rest).cons_cons k
        · exact (ih _).cons_cons k

/-- Only free stores are selected. -/
theorem isFree_of_mem_select {held : Nat} (member : k ∈ select stores requested held indices) :
    ∃ store, IsFree stores k store := by
  induction indices generalizing held with
  | nil => cases member
  | cons first rest ih =>
    unfold select at member
    split at member
    · exact ih member
    · next store here =>
      split at member
      · exact ih member
      · next free =>
        have selected : IsFree stores first store := ⟨here, by simpa using free⟩
        split at member
        · rw [List.mem_singleton.mp member]
          exact ⟨store, selected⟩
        · rcases List.mem_cons.mp member with rfl | later
          · exact ⟨store, selected⟩
          · exact ih later

/-- The hosts of the stores with given numbers. -/
def hostsAt (stores : Array VirtualStore) (indices : List Nat) : Nat :=
  ((indices.filterMap fun k => stores[k]?).map (·.hosts)).sum

theorem hostsAt_cons (stores : Array VirtualStore) (k : Nat) (indices : List Nat) :
    hostsAt stores (k :: indices) =
      ((stores[k]?).map (·.hosts)).getD 0 + hostsAt stores indices := by
  cases here : stores[k]? <;> simp [hostsAt, here]

/-- Where there are hosts, one of the stores holds some. -/
theorem exists_host_of_hostsAt (positive : 0 < hostsAt stores indices) :
    ∃ k ∈ indices, ∃ store, stores[k]? = some store ∧ 0 < store.hosts := by
  by_contra none
  refine Nat.ne_of_gt positive (List.sum_eq_zero fun count member => ?_)
  obtain ⟨store, listed, rfl⟩ := List.mem_map.mp member
  obtain ⟨k, given, here⟩ := List.mem_filterMap.mp listed
  exact Nat.eq_zero_of_not_pos fun host => none ⟨k, given, store, here, host⟩

/-- What a store has to offer: its hosts, when it is free. -/
def offer (store : VirtualStore) : Nat :=
  if store.isAssigned then 0 else store.hosts

/-- What the stores with given numbers have to offer. -/
def offerAt (stores : Array VirtualStore) (indices : List Nat) : Nat :=
  ((indices.filterMap fun k => stores[k]?).map offer).sum

/-- A selection covers what is requested, if the stores that it chooses from do. -/
theorem le_hostsAt_select {held : Nat} (enough : requested ≤ held + offerAt stores indices) :
    requested ≤ held + hostsAt stores (select stores requested held indices) := by
  induction indices generalizing held with
  | nil => exact enough
  | cons k rest ih =>
    cases here : stores[k]? with
    | none =>
      simp only [select, here]
      exact ih (by simpa [offerAt, here] using enough)
    | some store =>
      have offered : offerAt stores (k :: rest) = offer store + offerAt stores rest := by
        simp [offerAt, here]
      rw [offered, offer] at enough
      by_cases assigned : store.isAssigned = true
      · simp only [select, here, assigned, if_true]
        exact ih (by simpa [assigned] using enough)
      · by_cases last : requested ≤ held + store.hosts
        · simp [select, here, assigned, last, hostsAt]
        · have later := @ih (held + store.hosts) (by simpa [assigned, Nat.add_assoc] using enough)
          simpa [select, here, assigned, last, hostsAt_cons, Nat.add_assoc] using later

/-- A scan that finds enough has seen enough on offer. -/
theorem le_of_coversFree {free : Nat} {list : List VirtualStore}
    (covered : NodeStore.coversFree requested free list = true) :
    requested ≤ free + (list.map offer).sum := by
  induction list generalizing free with
  | nil => cases covered
  | cons store rest ih =>
    unfold NodeStore.coversFree at covered
    rw [List.map_cons, List.sum_cons, offer]
    split at covered
    · next assigned =>
      have later := ih covered
      rw [if_pos assigned]
      omega
    · next unassigned =>
      rw [if_neg unassigned]
      split at covered
      · omega
      · have later := ih covered
        omega

/-- Every number occurs in the cycle. -/
theorem mem_cycle {count : Nat} (offset : Nat) (bound : k < count) : k ∈ cycle count offset := by
  have start := Nat.mod_lt offset (Nat.zero_lt_of_lt bound)
  by_cases ahead : offset % count ≤ k
  · refine List.mem_map.mpr ⟨k - offset % count, List.mem_range.mpr (by omega), ?_⟩
    rw [Nat.add_mod_eq_ite, Nat.mod_eq_of_lt (by omega : k - offset % count < count)]
    rw [if_neg (by omega)]
    omega
  · have back : k + count - offset % count < count := by omega
    refine List.mem_map.mpr ⟨k + count - offset % count, List.mem_range.mpr back, ?_⟩
    rw [Nat.add_mod_eq_ite, Nat.mod_eq_of_lt back, if_pos (by omega)]
    omega

/-- No number occurs twice. -/
theorem nodup_cycle (count offset : Nat) : (cycle count offset).Nodup := by
  refine List.Nodup.map_on ?_ List.nodup_range
  intro i iListed j jListed same
  have iBound := List.mem_range.mp iListed
  have jBound := List.mem_range.mp jListed
  have start := Nat.mod_lt offset (Nat.zero_lt_of_lt iBound)
  rw [Nat.add_mod_eq_ite, Nat.add_mod_eq_ite, Nat.mod_eq_of_lt iBound,
    Nat.mod_eq_of_lt jBound] at same
  split at same <;> split at same <;> omega

/-- Cyclically or not, all numbers are there. -/
theorem cycle_perm (count offset : Nat) : (cycle count offset).Perm (List.range count) := by
  refine (List.perm_ext_iff_of_nodup (nodup_cycle count offset) List.nodup_range).mpr fun k => ?_
  rw [List.mem_range]
  refine ⟨fun member => ?_, mem_cycle offset⟩
  obtain ⟨i, listed, rfl⟩ := List.mem_map.mp member
  exact Nat.mod_lt _ (Nat.zero_lt_of_lt (List.mem_range.mp listed))

/-- Wherever it starts, a selection covers what the free stores cover. -/
theorem le_hostsAt_of_hasFree {nodes : NodeStore} (covered : nodes.hasFree requested = true)
    (offset : Nat) : requested ≤ hostsAt nodes.stores
      (select nodes.stores requested 0 (cycle nodes.stores.size offset)) := by
  have order := ((cycle_perm nodes.stores.size offset).filterMap
    fun k => nodes.stores[k]?).map offer
  have whole : offerAt nodes.stores (cycle nodes.stores.size offset) =
      (nodes.stores.toList.map offer).sum := by
    rw [offerAt, order.sum_eq, NodeStore.filterMap_range]
  have scanned : requested ≤ 0 + (nodes.stores.toList.map offer).sum := le_of_coversFree covered
  rw [← whole] at scanned
  simpa using le_hostsAt_select scanned

/-- What handing out `assigned` to an owner makes of the stores. -/
structure Hands (owner : Owner) (stores : Array VirtualStore) (assigned : List Nat)
    (next : Array VirtualStore) : Prop where
  getElem?_eq : ∀ i : Nat, next[i]? =
    if i ∈ assigned then (stores[i]?).map fun store => { store with owner := some owner }
    else stores[i]?
  free : ∀ i ∈ assigned, ∃ store, IsFree stores i store

section Hands

variable {owner : Owner} {assigned : List Nat} {next : Array VirtualStore} {target : VirtualStore}

/-- A store that is handed out names its new owner. -/
theorem Hands.given (hands : Hands owner stores assigned next) (member : k ∈ assigned) :
    ∃ target, next[k]? = some target ∧ target.owner = some owner := by
  obtain ⟨store, here, -⟩ := hands.free k member
  refine ⟨{ store with owner := some owner }, ?_, rfl⟩
  rw [hands.getElem?_eq, if_pos member, here]
  rfl

/-- A store with an owner is not handed out. -/
theorem Hands.kept (hands : Hands owner stores assigned next) {other : Owner}
    (here : stores[k]? = some target) (owned : target.owner = some other) :
    next[k]? = some target := by
  have unassigned : k ∉ assigned := by
    intro member
    obtain ⟨store, there, free⟩ := hands.free k member
    obtain rfl := Option.some.inj (here.symm.trans there)
    simp [VirtualStore.isAssigned, owned] at free
  rw [hands.getElem?_eq, if_neg unassigned, here]

/-- An owner is the new one, of a store that was handed out, or was one before. -/
theorem Hands.owner_cases (hands : Hands owner stores assigned next) {other : Owner}
    (here : next[k]? = some target) (owned : target.owner = some other) :
    (k ∈ assigned ∧ other = owner) ∨ stores[k]? = some target := by
  rw [hands.getElem?_eq] at here
  split at here
  · next member =>
    obtain ⟨before, -, rfl⟩ := Option.map_eq_some_iff.mp here
    exact .inl ⟨member, (Option.some.inj owned).symm⟩
  · exact .inr here

end Hands

/-- One more store is handed out exactly when it is free, and the client has an id. -/
theorem assignOne_spec {client : String} {queue : Nat} {next : Array VirtualStore}
    {assigned : List Nat} (hands : Hands ⟨client, queue⟩ stores assigned next) (named : client ≠ "")
    {store : VirtualStore} (free : IsFree stores k store) (fresh : k ∉ assigned) :
    ∃ after, assignOne client queue (next, assigned) k = (after, k :: assigned) ∧
      Hands ⟨client, queue⟩ stores (k :: assigned) after := by
  have here : next[k]? = some store := by
    rw [hands.getElem?_eq, if_neg fresh, free.1]
  have given : store.assign? client queue =
      some { store with owner := some ⟨client, queue⟩ } := by
    simp [VirtualStore.assign?, named, free.2]
  refine ⟨next.setIfInBounds k { store with owner := some ⟨client, queue⟩ }, ?_, ?_, ?_⟩
  · simp [assignOne, here, given]
  · intro i
    have inside := (Array.getElem?_eq_some_iff.mp here).1
    rw [Array.getElem?_setIfInBounds]
    by_cases same : k = i
    · subst same
      simp [inside, free.1]
    · have unequal : ¬ i = k := fun equal => same equal.symm
      simp [same, unequal, hands.getElem?_eq]
  · intro i member
    rcases List.mem_cons.mp member with rfl | earlier
    · exact ⟨store, free⟩
    · exact hands.free i earlier

/-- A client with an id is handed every free store that was selected for it. -/
theorem assignAll_spec {client : String} (named : client ≠ "") (queue : Nat)
    (unique : indices.Nodup) (free : ∀ i ∈ indices, ∃ store, IsFree stores i store) :
    (assignAll client queue stores indices).2 = indices ∧
      Hands ⟨client, queue⟩ stores indices (assignAll client queue stores indices).1 := by
  have folded : ∀ (rest assigned : List Nat) (next : Array VirtualStore), rest.Nodup →
      (∀ i ∈ rest, i ∉ assigned ∧ ∃ store, IsFree stores i store) →
      Hands ⟨client, queue⟩ stores assigned next →
        (rest.foldl (assignOne client queue) (next, assigned)).2 = rest.reverse ++ assigned ∧
          Hands ⟨client, queue⟩ stores (rest.reverse ++ assigned)
            (rest.foldl (assignOne client queue) (next, assigned)).1 := by
    intro rest
    induction rest with
    | nil => intro assigned next _ _ hands; exact ⟨rfl, hands⟩
    | cons first rest ih =>
      intro assigned next unique each hands
      obtain ⟨absent, unique⟩ := List.nodup_cons.mp unique
      obtain ⟨fresh, store, isFree⟩ := each first List.mem_cons_self
      obtain ⟨after, step, hands⟩ := assignOne_spec hands named isFree fresh
      have later : ∀ i ∈ rest, i ∉ first :: assigned ∧ ∃ store, IsFree stores i store := by
        intro i member
        obtain ⟨fresh, isFree⟩ := each i (List.mem_cons_of_mem first member)
        refine ⟨fun listed => ?_, isFree⟩
        rcases List.mem_cons.mp listed with rfl | earlier
        · exact absent member
        · exact fresh earlier
      have whole : (first :: rest).reverse ++ assigned = rest.reverse ++ (first :: assigned) := by
        simp
      rw [List.foldl_cons, step, whole]
      exact ih (first :: assigned) after unique later hands
  have start : Hands ⟨client, queue⟩ stores [] stores := ⟨by simp, by simp⟩
  obtain ⟨assigned, hands⟩ :=
    folded indices [] stores unique (fun i member => ⟨by simp, free i member⟩) start
  rw [List.append_nil] at assigned hands
  refine ⟨by simp [assignAll, assigned], ⟨fun i => ?_, free⟩⟩
  have whole := hands.getElem?_eq i
  simp only [List.mem_reverse] at whole
  exact whole

/-- A client without id is handed nothing. -/
theorem assignAll_unnamed (queue : Nat) (stores : Array VirtualStore) (indices : List Nat) :
    assignAll "" queue stores indices = (stores, []) := by
  have folded : indices.foldl (assignOne "" queue) (stores, []) = (stores, []) := by
    induction indices with
    | nil => rfl
    | cons first rest ih =>
      have step : assignOne "" queue (stores, []) first = (stores, []) := by
        simp only [assignOne, VirtualStore.assign?]
        split <;> simp
      rw [List.foldl_cons, step, ih]
  simp [assignAll, folded]

end Distributor

end FleetRing
