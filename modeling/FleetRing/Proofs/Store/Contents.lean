import FleetRing.Proofs.Store.Chain

/-!
# A virtual store as a map from ids to nodes

`find?` looks an id up in the chain of its token. `Sound` says that every node
lies in the slot of its token and that no id occurs twice in a chain; then a node
is in the store exactly when it is found under its own id, whatever tokens
collide. An update changes what is found under its own id, or nothing.
-/

namespace FleetRing

namespace VirtualStore

variable {store : VirtualStore} {token : Token} {update : Update} {id : String}
  {stored : StoredNode} {tokenOf : String → Token}

/-- The node with an id, in the slot of a token. -/
def find? (store : VirtualStore) (token : Token) (id : String) : Option StoredNode :=
  (store.chainAt token).find? id

/-- The ids of all nodes, slot by slot. -/
def ids (store : VirtualStore) : List String :=
  store.stored.map (·.node.id)

/-- Nodes lie in the slots of their tokens, and no id occurs twice in a slot. -/
structure Sound (tokenOf : String → Token) (store : VirtualStore) : Prop where
  slot : ∀ token, ∀ stored ∈ store.chainAt token, tokenOf stored.node.id = token
  unique : ∀ token, (store.chainAt token).ids.Nodup

/-- The slots after an update that is applied. -/
theorem chainAt_apply (applied : (store.apply token update).2.isApplied = true) (other : Token) :
    (store.apply token update).1.chainAt other =
      if other = token then (Chain.apply (store.chainAt token) update).1
      else store.chainAt other := by
  have inserted : ∀ chain, ((store.slots.insert token chain)[other]?).getD [] =
      if other = token then chain else store.chainAt other := by
    intro chain
    rw [Std.ExtTreeMap.getElem?_insert]
    by_cases here : other = token
    · simp [here]
    · have unequal : ¬ token = other := fun equal => here equal.symm
      simp [here, unequal, chainAt]
  unfold apply at applied ⊢
  split
  · next supported =>
    simp only [supported, if_true] at applied ⊢
    generalize Chain.apply (store.chainAt token) update = result at applied ⊢
    obtain ⟨chain, mutation⟩ := result
    cases mutation with
    | inserted => exact inserted chain
    | updated => exact inserted chain
    | duplicate => cases applied
    | stale => cases applied
    | unsupported => cases applied
  · next unsupported => simp [unsupported, Mutation.isApplied] at applied

/-- What an update of a supported type does is judged by the node that is found under its id. -/
theorem apply_mutation (store : VirtualStore) (token : Token)
    (supported : update.type.carriesState = true) :
    (store.apply token update).2 = Mutation.judge update (store.find? token update.node.id) := by
  rw [find?, ← Chain.apply_mutation]
  unfold apply
  rw [if_pos supported]
  split <;> simp_all

/-- Only updates of a supported type are applied, and as the chain applies them. -/
theorem applied_chain (applied : (store.apply token update).2.isApplied = true) :
    update.type.carriesState = true ∧
      (Chain.apply (store.chainAt token) update).2.isApplied = true := by
  by_cases supported : update.type.carriesState = true
  · rw [apply_mutation store token supported, find?, ← Chain.apply_mutation] at applied
    exact ⟨supported, applied⟩
  · simp [apply, supported, Mutation.isApplied] at applied

/-- An update that is not applied leaves the store. -/
theorem apply_of_not_applied (kept : (store.apply token update).2.isApplied = false) :
    (store.apply token update).1 = store := by
  unfold apply at kept ⊢
  split
  · next supported =>
    simp only [supported, if_true] at kept
    split at kept <;> simp_all [Mutation.isApplied]
  · rfl

/-- Only a node that is new counts. -/
theorem hosts_apply (store : VirtualStore) (token : Token) (update : Update) :
    (store.apply token update).1.hosts =
      if (store.apply token update).2 = .inserted then store.hosts + 1 else store.hosts := by
  unfold apply
  split
  · split
    · rfl
    · rfl
    · next mutation new _ _ => exact (if_neg new).symm
  · rfl

/-- The place and the owner of a store stay as they are. -/
theorem apply_frame (store : VirtualStore) (token : Token) (update : Update) :
    (store.apply token update).1.index = store.index ∧
      (store.apply token update).1.location = store.location ∧
      (store.apply token update).1.arc = store.arc ∧
      (store.apply token update).1.owner = store.owner := by
  unfold apply
  split
  · split <;> exact ⟨rfl, rfl, rfl, rfl⟩
  · exact ⟨rfl, rfl, rfl, rfl⟩

/-- An update that is applied is found under its id, and every other node as before. -/
theorem find?_apply (applied : (store.apply token update).2.isApplied = true) (other : Token)
    (id : String) : (store.apply token update).1.find? other id =
      if other = token ∧ id = update.node.id then some update.toStored
      else store.find? other id := by
  rw [find?, chainAt_apply applied]
  by_cases here : other = token
  · subst here
    rw [if_pos rfl, Chain.find?_apply (applied_chain applied).2]
    simp [find?]
  · simp [here, find?]

/-- An update is applied over an older node only. -/
theorem older_of_applied (applied : (store.apply token update).2.isApplied = true) :
    ∀ stored, store.find? token update.node.id = some stored → stored.version < update.version := by
  rw [apply_mutation store token (applied_chain applied).1] at applied
  exact Mutation.older_of_judge applied

/-- Nodes stay in the slots of their tokens. -/
theorem Sound.apply (sound : store.Sound tokenOf) (update : Update) :
    (store.apply (tokenOf update.node.id) update).1.Sound tokenOf := by
  cases applied : (store.apply (tokenOf update.node.id) update).2.isApplied with
  | false => rwa [apply_of_not_applied applied]
  | true =>
    constructor
    · intro token stored member
      rw [chainAt_apply applied] at member
      split at member
      · next here =>
        have found := Chain.find?_of_mem (Chain.nodup_apply (sound.unique _)) member
        rw [Chain.find?_apply (applied_chain applied).2] at found
        split at found
        · next same => rw [same, here]
        · exact (sound.slot _ _ (Chain.id_of_find? found).1).trans here.symm
      · exact sound.slot token stored member
    · intro token
      rw [chainAt_apply applied]
      split
      · exact Chain.nodup_apply (sound.unique _)
      · exact sound.unique token

theorem mem_stored : stored ∈ store.stored ↔ ∃ token, stored ∈ store.chainAt token := by
  simp only [VirtualStore.stored, List.mem_flatMap, Prod.exists]
  constructor
  · rintro ⟨token, chain, slot, member⟩
    rw [Std.ExtTreeMap.mem_toList_iff_getElem?_eq_some] at slot
    exact ⟨token, by rwa [chainAt, slot]⟩
  · rintro ⟨token, member⟩
    cases slot : store.slots[token]? with
    | none => simp [chainAt, slot] at member
    | some chain =>
      refine ⟨token, chain, Std.ExtTreeMap.mem_toList_iff_getElem?_eq_some.mpr slot, ?_⟩
      rwa [chainAt, slot] at member

namespace Sound

variable (sound : store.Sound tokenOf)
include sound

/-- A node is in the store exactly when it is found under its own id. -/
theorem mem_stored_iff :
    stored ∈ store.stored ↔ store.find? (tokenOf stored.node.id) stored.node.id = some stored := by
  rw [mem_stored]
  constructor
  · rintro ⟨token, member⟩
    rw [sound.slot token stored member]
    exact Chain.find?_of_mem (sound.unique token) member
  · intro found
    exact ⟨_, (Chain.id_of_find? found).1⟩

/-- An id is in the store exactly when something is found under it. -/
theorem mem_ids_iff : id ∈ store.ids ↔ (store.find? (tokenOf id) id).isSome := by
  rw [ids, List.mem_map]
  constructor
  · rintro ⟨stored, member, rfl⟩
    rw [sound.mem_stored_iff.mp member]
    rfl
  · intro some
    obtain ⟨stored, found⟩ := Option.isSome_iff_exists.mp some
    have same := (Chain.id_of_find? found).2
    refine ⟨stored, sound.mem_stored_iff.mpr ?_, same⟩
    rwa [same]

/-- No id occurs twice in the whole store. -/
theorem nodup_ids : store.ids.Nodup := by
  have slots : store.slots.toList.Pairwise fun a b => ¬ compare a.1 b.1 = .eq :=
    Std.ExtTreeMap.distinct_keys_toList
  have chain_eq : ∀ slot ∈ store.slots.toList, store.chainAt slot.1 = slot.2 := by
    intro slot member
    rw [chainAt, Std.ExtTreeMap.mem_toList_iff_getElem?_eq_some.mp member]
    rfl
  rw [ids, VirtualStore.stored, List.map_flatMap, List.nodup_flatMap]
  constructor
  · intro slot member
    rw [← chain_eq slot member]
    exact sound.unique slot.1
  · refine slots.imp_of_mem fun {first second} here there different => ?_
    intro id inFirst inSecond
    obtain ⟨one, oneMember, rfl⟩ := List.mem_map.mp inFirst
    obtain ⟨two, twoMember, same⟩ := List.mem_map.mp inSecond
    rw [← chain_eq first here] at oneMember
    rw [← chain_eq second there] at twoMember
    have tokens : second.1 = first.1 := by
      rw [← sound.slot _ _ twoMember, ← sound.slot _ _ oneMember, same]
    exact different (by rw [tokens]; exact Std.LawfulEqCmp.compare_eq_iff_eq.mpr rfl)

/-- Applying an update adds its id, if it is new. -/
theorem ids_apply_perm
    (applied : (store.apply (tokenOf update.node.id) update).2.isApplied = true) :
    (store.apply (tokenOf update.node.id) update).1.ids.Perm
      (if update.node.id ∈ store.ids then store.ids else update.node.id :: store.ids) := by
  have after := sound.apply update
  have nodup : (if update.node.id ∈ store.ids then store.ids
      else update.node.id :: store.ids).Nodup := by
    split
    · exact sound.nodup_ids
    · next absent => exact List.nodup_cons.mpr ⟨absent, sound.nodup_ids⟩
  rw [List.perm_ext_iff_of_nodup after.nodup_ids nodup]
  intro id
  rw [after.mem_ids_iff, find?_apply applied]
  by_cases same : id = update.node.id
  · subst same
    by_cases listed : update.node.id ∈ store.ids <;> simp [listed]
  · simp only [same, and_false, if_false, ← sound.mem_ids_iff]
    by_cases listed : update.node.id ∈ store.ids <;> simp [listed, same]

/-- The number of hosts stays the number of nodes. -/
theorem hosts_eq_apply (counted : store.hosts = store.ids.length) (update : Update) :
    (store.apply (tokenOf update.node.id) update).1.hosts =
      (store.apply (tokenOf update.node.id) update).1.ids.length := by
  cases applied : (store.apply (tokenOf update.node.id) update).2.isApplied with
  | false => rwa [apply_of_not_applied applied]
  | true =>
    have judged := apply_mutation store (tokenOf update.node.id) (applied_chain applied).1
    rw [(sound.ids_apply_perm applied).length_eq, VirtualStore.hosts_apply]
    by_cases listed : update.node.id ∈ store.ids
    · obtain ⟨stored, found⟩ := Option.isSome_iff_exists.mp (sound.mem_ids_iff.mp listed)
      have replaced : (store.apply (tokenOf update.node.id) update).2 ≠ .inserted := by
        rw [judged, found, Mutation.judge]
        split
        · decide
        · split <;> decide
      simp [listed, replaced, counted]
    · have absent : store.find? (tokenOf update.node.id) update.node.id = none := by
        simpa using fun some => listed (sound.mem_ids_iff.mpr some)
      have inserted : (store.apply (tokenOf update.node.id) update).2 = .inserted := by
        rw [judged, absent]
        rfl
      simp [listed, inserted, counted]

end Sound

end VirtualStore

end FleetRing
