import FleetRing.Proofs.Store.Contents

/-!
# The node that prevails

Updates that carry the state of one node come one after the other. The first one
brings the node in. After that a modification prevails over what is held exactly
when its version is larger, and an addition never does. `prevailing` is what a
sequence of updates leaves, said without stores, slots and tokens;
`VirtualStore.find?_apply_eq` says that this is what a store finds.
-/

namespace FleetRing

/-- States are carried by additions and modifications. -/
theorem EventType.carriesState_iff {type : EventType} :
    type.carriesState = true ↔ type = .added ∨ type = .modified := by
  cases type <;> simp [carriesState]

/-- What is held of a node after one more update of it. -/
def Update.prevail (held : Option StoredNode) (update : Update) : Option StoredNode :=
  match held with
  | none => some update.toStored
  | some stored =>
    if update.type = .modified ∧ stored.version < update.version then some update.toStored
    else some stored

/-- What is held of a node after its updates. -/
def prevailing (updates : List Update) : Option StoredNode :=
  updates.foldl Update.prevail none

section Prevailing

variable {update first : Update} {updates rest : List Update} {held : Option StoredNode}
  {stored : StoredNode}

/-- An update prevails exactly where it is applied. -/
theorem Update.prevail_eq (supported : update.type.carriesState = true)
    (held : Option StoredNode) : Update.prevail held update =
      if (Mutation.judge update held).isApplied = true then some update.toStored else held := by
  cases held with
  | none => rfl
  | some stored =>
    rcases EventType.carriesState_iff.mp supported with added | modified
    · simp [prevail, Mutation.judge, added, Mutation.isApplied]
    · by_cases older : update.version ≤ stored.version
      · simp [prevail, Mutation.judge, modified, older, UInt64.not_lt.mpr older,
          Mutation.isApplied]
      · simp [prevail, Mutation.judge, modified, older, UInt64.not_le.mp older,
          Mutation.isApplied]

/-- Once there is a node, its version is the largest one among those that follow with a
modification. -/
theorem foldl_prevail_some (stored : StoredNode) (rest : List Update) :
    ∃ last, rest.foldl Update.prevail (some stored) = some last ∧
      last.version = ((rest.filter (·.type = .modified)).map (·.version)).foldl max
        stored.version := by
  induction rest generalizing stored with
  | nil => exact ⟨stored, rfl, rfl⟩
  | cons update rest ih =>
    by_cases modified : update.type = .modified
    · have larger : max stored.version update.version =
          if stored.version ≤ update.version then update.version else stored.version := rfl
      by_cases newer : stored.version < update.version
      · obtain ⟨last, found, version⟩ := ih update.toStored
        have max_eq : max stored.version update.version = update.version := by
          rw [larger, if_pos (UInt64.le_of_lt newer)]
        refine ⟨last, by simpa [Update.prevail, modified, newer] using found, ?_⟩
        simpa [modified, max_eq, Update.toStored] using version
      · obtain ⟨last, found, version⟩ := ih stored
        have max_eq : max stored.version update.version = stored.version := by
          rw [larger]
          split
          · next below => exact UInt64.le_antisymm (UInt64.not_lt.mp newer) below
          · rfl
        refine ⟨last, by simpa [Update.prevail, modified, newer] using found, ?_⟩
        simpa [modified, max_eq] using version
    · obtain ⟨last, found, version⟩ := ih stored
      exact ⟨last, by simpa [Update.prevail, modified] using found,
        by simpa [modified] using version⟩

/-- The first update brings the node in; its version is that of the first update or of a
modification, whichever is the largest. -/
theorem prevailing_cons (first : Update) (rest : List Update) :
    ∃ stored, prevailing (first :: rest) = some stored ∧
      stored.version = ((rest.filter (·.type = .modified)).map (·.version)).foldl max
        first.version :=
  foldl_prevail_some first.toStored rest

/-- A node is held exactly when there was an update of it. -/
theorem isSome_prevailing : (prevailing updates).isSome = true ↔ updates ≠ [] := by
  cases updates with
  | nil => simp [prevailing]
  | cons first rest =>
    obtain ⟨stored, found, -⟩ := prevailing_cons first rest
    simp [found]

/-- What is held never gets older. -/
theorem le_foldl_prevail (stored : StoredNode) (updates : List Update) :
    ∃ last, updates.foldl Update.prevail (some stored) = some last ∧
      stored.version ≤ last.version := by
  induction updates generalizing stored with
  | nil => exact ⟨stored, rfl, UInt64.le_refl _⟩
  | cons update updates ih =>
    rw [List.foldl_cons]
    by_cases newer : update.type = .modified ∧ stored.version < update.version
    · obtain ⟨last, found, above⟩ := ih update.toStored
      rw [show Update.prevail (some stored) update = some update.toStored from if_pos newer]
      exact ⟨last, found, UInt64.le_trans (UInt64.le_of_lt newer.2) above⟩
    · rw [show Update.prevail (some stored) update = some stored from if_neg newer]
      exact ih stored

/-- What is held is at least as new as every modification that came. -/
theorem le_prevailing (modified : update.type = .modified) (came : update ∈ updates) :
    ∃ last, prevailing updates = some last ∧ update.version ≤ last.version := by
  obtain ⟨before, after, rfl⟩ := List.append_of_mem came
  rw [prevailing, List.foldl_append, List.foldl_cons]
  have next : ∀ held, ∃ stored, Update.prevail held update = some stored ∧
      update.version ≤ stored.version := by
    intro held
    cases held with
    | none => exact ⟨_, rfl, UInt64.le_refl _⟩
    | some stored =>
      by_cases newer : stored.version < update.version
      · exact ⟨_, if_pos ⟨modified, newer⟩, UInt64.le_refl _⟩
      · exact ⟨_, if_neg (fun both => newer both.2), UInt64.not_lt.mp newer⟩
  obtain ⟨stored, found, below⟩ := next (before.foldl Update.prevail none)
  obtain ⟨last, kept, above⟩ := le_foldl_prevail stored after
  exact ⟨last, found ▸ kept, UInt64.le_trans below above⟩

/-- What prevails came with one of the updates. -/
theorem exists_of_prevailing (prevails : prevailing updates = some stored) :
    ∃ update ∈ updates, update.toStored = stored := by
  have either : ∀ (updates : List Update) (held : Option StoredNode),
      updates.foldl Update.prevail held = some stored →
        held = some stored ∨ ∃ update ∈ updates, update.toStored = stored := by
    intro updates
    induction updates with
    | nil => exact fun held kept => .inl kept
    | cons update updates ih =>
      intro held kept
      rcases ih _ kept with last | ⟨other, member, came⟩
      · have next : Update.prevail held update = some update.toStored ∨
            Update.prevail held update = held := by
          cases held with
          | none => exact .inl rfl
          | some before =>
            simp only [Update.prevail]
            split
            · exact .inl rfl
            · exact .inr rfl
        rcases next with brought | before
        · exact .inr ⟨update, List.mem_cons_self, Option.some.inj (brought.symm.trans last)⟩
        · exact .inl (before.symm.trans last)
      · exact .inr ⟨other, List.mem_cons_of_mem update member, came⟩
  exact (either updates none prevails).resolve_left nofun

end Prevailing

namespace VirtualStore

/-- A store finds what prevails under the id of an update, and every other node as before. -/
theorem find?_apply_eq (store : VirtualStore) (token : Token) (update : Update) (other : Token)
    (id : String) : (store.apply token update).1.find? other id =
      if update.type.carriesState = true ∧ other = token ∧ id = update.node.id then
        Update.prevail (store.find? other id) update
      else store.find? other id := by
  cases applied : (store.apply token update).2.isApplied with
  | true =>
    have supported := (applied_chain applied).1
    rw [find?_apply applied]
    by_cases here : other = token ∧ id = update.node.id
    · obtain ⟨rfl, rfl⟩ := here
      rw [apply_mutation store other supported] at applied
      simp [supported, Update.prevail_eq supported, applied]
    · simp [here]
  | false =>
    rw [apply_of_not_applied applied]
    split
    · next here =>
      obtain ⟨supported, rfl, rfl⟩ := here
      rw [apply_mutation store other supported] at applied
      simp [Update.prevail_eq supported, applied]
    · rfl

end VirtualStore

end FleetRing
