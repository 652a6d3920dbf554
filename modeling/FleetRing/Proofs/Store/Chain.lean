import FleetRing.Store.Virtual
import Mathlib.Data.List.Nodup

/-!
# Chains of nodes that share a slot

An update looks its node up by id, whatever the order of the chain. `judge` says
what it does, given what is found, and `find?_apply` what is found afterwards.
-/

namespace FleetRing

/-- What an update of a supported type does, given the node that is there. -/
def Mutation.judge (update : Update) : Option StoredNode → Mutation
  | none => .inserted
  | some stored =>
    if update.type = .added then .duplicate
    else if update.version ≤ stored.version then .stale
    else .updated

/-- The node that an update leaves where it is applied. -/
def Update.toStored (update : Update) : StoredNode :=
  ⟨update.version, update.node⟩

/-- Only a missing or an older node gives way. -/
theorem Mutation.older_of_judge {update : Update} {held : Option StoredNode}
    (applied : (Mutation.judge update held).isApplied = true) :
    ∀ stored, held = some stored → stored.version < update.version := by
  rintro stored rfl
  by_cases added : update.type = .added
  · simp [judge, added, isApplied] at applied
  · by_cases older : update.version ≤ stored.version
    · simp [judge, added, older, isApplied] at applied
    · exact UInt64.not_le.mp older

namespace Chain

/-- The node with an id. -/
def find? (chain : Chain) (id : String) : Option StoredNode :=
  List.find? (fun stored => stored.node.id == id) chain

/-- The ids in a chain, in order. -/
def ids (chain : Chain) : List String :=
  chain.map (·.node.id)

variable {chain : Chain} {update : Update} {id : String} {stored : StoredNode}

theorem find?_cons (first : StoredNode) (rest : Chain) :
    find? (first :: rest) id = if first.node.id = id then some first else find? rest id := by
  by_cases here : first.node.id = id
  · simp [find?, here]
  · simp [find?, beq_eq_false_iff_ne.mpr here, here]

/-- A node is found under its own id. -/
theorem id_of_find? (found : chain.find? id = some stored) :
    stored ∈ chain ∧ stored.node.id = id :=
  ⟨List.mem_of_find?_eq_some found, by simpa using List.find?_some found⟩

/-- Where ids are unique, every node is found. -/
theorem find?_of_mem (unique : chain.ids.Nodup) (member : stored ∈ chain) :
    chain.find? stored.node.id = some stored := by
  induction chain with
  | nil => cases member
  | cons first rest ih =>
    obtain ⟨absent, unique⟩ := List.nodup_cons.mp unique
    rw [find?_cons]
    rcases List.mem_cons.mp member with rfl | later
    · simp
    · have different : first.node.id ≠ stored.node.id := by
        intro same
        exact absent (List.mem_map.mpr ⟨stored, later, same.symm⟩)
      rw [if_neg different]
      exact ih unique later

/-- An update is judged by the node with its id. -/
theorem apply_mutation :
    (apply chain update).2 = Mutation.judge update (chain.find? update.node.id) := by
  induction chain with
  | nil => rfl
  | cons first rest ih =>
    rw [find?_cons]
    by_cases here : first.node.id = update.node.id
    · simp only [apply, here, if_true, Mutation.judge]
      split
      · rfl
      · split <;> rfl
    · simpa only [apply, here, if_false] using ih

/-- A node that is applied is found afterwards, and every other one as before. -/
theorem find?_apply (applied : (apply chain update).2.isApplied = true) (id : String) :
    (apply chain update).1.find? id =
      if id = update.node.id then some update.toStored else chain.find? id := by
  induction chain with
  | nil =>
    by_cases asked : id = update.node.id
    · simp [apply, find?, Update.toStored, asked]
    · have unequal : ¬ update.node.id = id := fun equal => asked equal.symm
      simp [apply, find?, asked, unequal]
  | cons first rest ih =>
    by_cases here : first.node.id = update.node.id
    · simp only [apply, here, if_true] at applied ⊢
      split at applied
      · cases applied
      · next other =>
        split at applied
        · cases applied
        · next newer =>
          simp only [other, newer, if_false]
          by_cases asked : id = update.node.id
          · simp [find?_cons, asked, Update.toStored]
          · have unequal : ¬ update.node.id = id := fun equal => asked equal.symm
            simp [find?_cons, here, asked, unequal]
    · simp only [apply, here, if_false] at applied ⊢
      rw [find?_cons, ih applied, find?_cons]
      by_cases asked : id = update.node.id
      · simp [asked, here]
      · simp [asked]

/-- The ids of a chain after an update: a new one comes last. -/
theorem ids_apply : (apply chain update).1.ids =
    if update.node.id ∈ chain.ids then chain.ids else chain.ids ++ [update.node.id] := by
  induction chain with
  | nil => simp [apply, ids]
  | cons first rest ih =>
    by_cases here : first.node.id = update.node.id
    · have listed : update.node.id ∈ ids (first :: rest) := by simp [ids, here]
      simp only [apply, here, if_true, listed]
      split
      · rfl
      · split
        · rfl
        · simp [ids, here]
    · have unequal : ¬ update.node.id = first.node.id := fun equal => here equal.symm
      have step : (apply (first :: rest) update).1.ids =
          first.node.id :: (apply rest update).1.ids := by
        simp [apply, here, ids]
      have whole : ids (first :: rest) = first.node.id :: ids rest := rfl
      rw [step, ih, whole]
      by_cases listed : update.node.id ∈ ids rest <;> simp [listed, unequal]

/-- So ids stay unique. -/
theorem nodup_apply (unique : chain.ids.Nodup) : (apply chain update).1.ids.Nodup := by
  rw [ids_apply]
  split
  · exact unique
  · next absent => exact List.Nodup.concat absent unique |> (by simpa using ·)

end Chain

end FleetRing
