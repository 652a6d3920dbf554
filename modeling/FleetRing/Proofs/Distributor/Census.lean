import FleetRing.Proofs.Distributor.Persistence

/-!
# How many records there are

Where every run ended persisted, there is one record for each node that is held, one for the status
once anything was persisted, and one for the assignments once a client was registered, and no other
one (`Accounts.size_records`).
-/

namespace FleetRing

namespace Contents

open RecordStore

variable {writings : List Writing} {key text : String}

/-- A record is one of a node, the status, or the list of assignments. -/
theorem kind_of_record (recorded : (after {} writings).records[key]? = some text) :
    (∃ rest, key = nodePrefix ++ rest) ∨ key = statusKey ∨ key = assignmentsKey := by
  by_contra other
  simp only [not_or, not_exists] at other
  obtain ⟨node, status, assignments⟩ := other
  have last := get_after (·.records[key]?) (fun _ => none) (fun writing contents => ?_) writings {}
  · rw [recorded] at last
    simp [latest] at last
  · cases writing with
    | nodes changed => exact getElem?_putNodes_of_ne node changed contents.records
    | status reached =>
      exact (getElem?_putRecord ..).trans (if_neg fun same => status same.symm)
    | assignment given =>
      exact (getElem?_putRecord ..).trans (if_neg fun same => assignments same.symm)

/-- Assignments are listed only when there is one. -/
theorem exists_assignment_of_record
    (recorded : (after {} writings).records[assignmentsKey]? = some text) :
    ∃ client : String, ((after {} writings).assignments[client]?).isSome = true := by
  induction writings using List.reverseRecOn with
  | nil => simp [after] at recorded
  | append_singleton writings writing ih =>
    rw [after_append] at recorded ⊢
    cases writing with
    | nodes changed =>
      exact ih ((getElem?_putNodes_of_ne assignmentsKey_ne ..).symm.trans recorded)
    | status reached =>
      exact ih (((getElem?_putRecord ..).trans (if_neg (by decide))).symm.trans recorded)
    | assignment given => exact ⟨given.client, by simp [after, Writing.effect]⟩

end Contents

namespace Distributor

variable {config : Config} {start dist next : Distributor} {deeds : List Deed} {trace : Trace}

/-- The keys of the records that there are after some deeds. -/
def recordKeys (dist : Distributor) (deeds : List Deed) : List String :=
  dist.nodes.stored.map (·.node.recordKey) ++
    ((if deeds.isEmpty then [] else [RecordStore.statusKey]) ++
      if dist.clients.isEmpty then [] else [RecordStore.assignmentsKey])

namespace Accounts

variable (accounts : dist.Accounts deeds) (sound : dist.Sound)
include accounts sound

/-- No two of them are the same. -/
theorem nodup_recordKeys : (dist.recordKeys deeds).Nodup := by
  have nodes : (dist.nodes.stored.map (·.node.recordKey)).Nodup := by
    refine List.pairwise_map.mpr ((List.pairwise_map.mp sound.nodes.nodup_stored).imp_of_mem ?_)
    intro one two member _ different same
    exact different ((Node.recordKey_eq_iff (accounts.latest_of_stored sound member).1).mp same)
  have other : RecordStore.statusKey ≠ RecordStore.assignmentsKey := by decide
  refine List.nodup_append.mpr ⟨nodes, ?_, ?_⟩
  · cases deeds.isEmpty <;> cases dist.clients.isEmpty <;> simp [other]
  · intro key inNodes asked inOthers
    obtain ⟨stored, -, rfl⟩ := List.mem_map.mp inNodes
    obtain ⟨rest, same⟩ := stored.node.exists_rest
    rw [same]
    rcases List.mem_append.mp inOthers with status | assignments
    · obtain rfl := List.mem_singleton.mp (List.mem_ite_nil_left.mp status).2
      exact (statusKey_ne rest).symm
    · obtain rfl := List.mem_singleton.mp (List.mem_ite_nil_left.mp assignments).2
      exact (assignmentsKey_ne rest).symm

/-- Where a node is held or a client is known, something was to be written. -/
theorem deeds_ne_nil (inhabited : dist.nodes.stored ≠ [] ∨ dist.clients ≠ []) : deeds ≠ [] := by
  rintro rfl
  rcases inhabited with nodes | clients
  · obtain ⟨stored, member⟩ := List.exists_mem_of_ne_nil _ nodes
    have last := (accounts.latest_of_stored sound member).2
    cases last
  · obtain ⟨entry, rest, same⟩ := List.exists_cons_of_ne_nil clients
    have assigned := accounts.assigned entry.1
    rw [client?, same, List.lookup_cons_self] at assigned
    cases assigned

variable (persisted : ∀ deed ∈ deeds, deed.outcome = .persisted)
include persisted

/-- Assignments are listed exactly when there is a client. -/
theorem isSome_listing :
    (dist.backend.records.get? RecordStore.assignmentsKey).isSome = !dist.clients.isEmpty := by
  have mirrored := accounts.mirrored sound persisted
  cases clients : dist.clients with
  | cons entry rest =>
    have known : dist.client? entry.1 = some entry.2 := by
      rw [client?, clients, List.lookup_cons_self]
    rw [mirrored.listing entry.1 entry.2 known]
    rfl
  | nil =>
    rw [List.isEmpty_nil, Bool.not_true, Option.isSome_eq_false_iff, Option.isNone_iff_eq_none]
    refine Option.eq_none_iff_forall_ne_some.mpr fun text recorded => ?_
    have found : dist.backend.records.contents.records[RecordStore.assignmentsKey]? =
        some text := recorded
    rw [accounts.contents] at found
    obtain ⟨client, given⟩ := Contents.exists_assignment_of_record found
    rw [← accounts.contents] at given
    have assigned := mirrored.assignments client
    rw [client?, clients] at assigned
    exact absurd (given.symm.trans (congrArg Option.isSome assigned)) (by simp)

/-- There are records under these keys, and under no other ones. -/
theorem mem_recordKeys {key : String} : key ∈ dist.recordKeys deeds ↔
    (dist.backend.records.get? key).isSome = true := by
  have mirrored := accounts.mirrored sound persisted
  have listing := accounts.isSome_listing sound persisted
  constructor
  · intro member
    rcases List.mem_append.mp member with node | other
    · obtain ⟨stored, held, rfl⟩ := List.mem_map.mp node
      obtain ⟨rest, same⟩ := stored.node.exists_rest
      rw [same, (mirrored.nodes rest _).mpr ⟨stored, held, same, rfl⟩]
      rfl
    · rcases List.mem_append.mp other with status | assignments
      · obtain ⟨present, only⟩ := List.mem_ite_nil_left.mp status
        obtain ⟨entries, -, recorded⟩ := mirrored.status (mt List.isEmpty_iff.mpr present)
        rw [List.mem_singleton.mp only, recorded]
        rfl
      · obtain ⟨present, only⟩ := List.mem_ite_nil_left.mp assignments
        rw [List.mem_singleton.mp only, listing, Bool.eq_false_iff.mpr present]
        rfl
  · intro present
    obtain ⟨text, recorded⟩ := Option.isSome_iff_exists.mp present
    have found : dist.backend.records.contents.records[key]? = Option.some text := recorded
    rw [accounts.contents] at found
    rw [recordKeys, List.mem_append, List.mem_append]
    rcases Contents.kind_of_record found with ⟨rest, rfl⟩ | rfl | rfl
    · obtain ⟨stored, held, same, -⟩ := (mirrored.nodes rest text).mp recorded
      exact .inl (List.mem_map.mpr ⟨stored, held, same⟩)
    · refine .inr (.inl (List.mem_ite_nil_left.mpr ⟨fun empty => ?_, List.mem_singleton_self _⟩))
      rw [mirrored.unwritten (List.isEmpty_iff.mp empty)] at present
      cases present
    · refine .inr (.inr (List.mem_ite_nil_left.mpr ⟨fun empty => ?_, List.mem_singleton_self _⟩))
      rw [listing, empty] at present
      cases present

/-- So there is a record for each node, one for the status and one for the assignments. -/
theorem size_records : dist.backend.records.size =
    dist.nodes.stored.length + (if deeds.isEmpty then 0 else 1) +
      if dist.clients.isEmpty then 0 else 1 := by
  have keys : dist.backend.records.records.keys.Perm (dist.recordKeys deeds) := by
    refine (List.perm_ext_iff_of_nodup Std.ExtTreeMap.nodup_keys
      (accounts.nodup_recordKeys sound)).mpr fun key => ?_
    rw [accounts.mem_recordKeys sound persisted, Std.ExtTreeMap.mem_keys,
      Std.ExtTreeMap.mem_iff_isSome_getElem?]
    rfl
  have count := keys.length_eq
  rw [Std.ExtTreeMap.length_keys] at count
  rw [RecordStore.size, count, recordKeys, List.length_append, List.length_append,
    List.length_map, Nat.add_assoc]
  cases deeds.isEmpty <;> cases dist.clients.isEmpty <;> rfl

end Accounts

end Distributor

end FleetRing
