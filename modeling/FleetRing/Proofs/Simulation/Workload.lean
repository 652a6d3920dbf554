import FleetRing.Proofs.Distributor.Calm
import FleetRing.Simulation

/-!
# What a simulation sends

The nodes of a simulation have ids of their own and stand at all locations in turn, and its updates
are of these nodes in turn. Versions are handed out location by location, so whatever comes later of
a location is newer, as long as there are versions left (`orderly`).
-/

namespace FleetRing

/-- A new node stands where it was put. -/
theorem Node.location?_fresh (id : String) (version : Version) (location : Location) :
    (Node.fresh id version location).location? = some location := by
  have region : (Int32.ofNat location.region.index).toInt = location.region.index :=
    Int32.toInt_ofNat_of_lt (Nat.lt_trans location.region.index_lt (by decide))
  have partition : (Int32.ofNat location.partition.index).toInt = location.partition.index :=
    Int32.toInt_ofNat_of_lt (Nat.lt_trans location.partition.index_lt (by decide))
  have raw := location.ofRaw?_index
  rw [← region, ← partition] at raw
  exact raw

/-- It has the version that it was given. -/
theorem Node.version?_fresh (id : String) (version : Version) (location : Location) :
    (Node.fresh id version location).version? = some version :=
  Text.word?_toString version

/-- What an update is about: the id of a node, and its location. -/
def Update.key (update : Update) : String × Location :=
  (update.node.id, update.location)

namespace Distributor

/-- An event of a supported type is accepted with the location and the version that it reports. -/
theorem accept?_of_reports {event : NodeEvent} (supported : event.type.carriesState = true)
    {location : Location} (place : event.node.location? = some location) {version : Version}
    (number : event.node.version? = some version) :
    accept? event = some ⟨event, location, version⟩ := by
  have here : Location.ofRaw? event.node.placement.region.toInt
      event.node.placement.partition.toInt = some location := place
  simp [accept?, supported, Update.ofEvent, Node.location, Location.ofRaw, here, Node.version,
    number, bind, Except.bind, pure, Except.pure, Except.toOption]

/-- So is each one of a batch. -/
theorem arrivals_of_reports {ι : Type} (items : List ι) (event : ι → NodeEvent)
    (location : ι → Location) (version : ι → Version)
    (each : ∀ item ∈ items, (event item).type.carriesState = true ∧
      (event item).node.location? = some (location item) ∧
      (event item).node.version? = some (version item)) (now : Time) :
    arrivals now (items.map event) = items.map fun item =>
      ⟨(event item).stamp .distributorReceived now, location item, version item⟩ := by
  have accepted : items.filterMap (accept? ∘ event) =
      items.map fun item => ⟨event item, location item, version item⟩ := by
    refine List.filterMap_eq_map_iff_forall_eq_some.mpr fun item member => ?_
    obtain ⟨supported, place, number⟩ := each item member
    exact accept?_of_reports supported place number
  rw [arrivals_eq, List.filterMap_map, accepted, List.map_map]
  rfl

end Distributor

namespace Simulation

open Distributor

section InTurn

variable {α β : Type}

/-- As many are taken as are asked for, unless there are none at all. -/
theorem length_inTurn {items : Array α} (nonempty : 0 < items.size) (count : Nat) :
    (inTurn items count).length = count := by
  refine (List.filterMap_length_eq_length.mpr fun i _ => ?_).trans List.length_range
  simp [Nat.mod_lt i nonempty]

theorem length_inTurn_le (items : Array α) (count : Nat) : (inTurn items count).length ≤ count :=
  (List.length_filterMap_le _ _).trans_eq List.length_range

theorem inTurn_eq_nil {items : Array α} (empty : items.size = 0) (count : Nat) :
    inTurn items count = [] := by
  refine List.filterMap_eq_nil_iff.mpr fun i _ => ?_
  simp [empty]

/-- Each is taken once when as many are taken as there are. -/
theorem inTurn_length (items : List α) : inTurn items.toArray items.length = items := by
  have whole : ∀ items : List α,
      (List.range items.length).filterMap (fun i => items[i]?) = items := by
    intro items
    induction items with
    | nil => rfl
    | cons item rest ih => simpa [List.range_succ_eq_map, List.filterMap_map] using ih
  refine Eq.trans (List.filterMap_congr fun i member => ?_) (whole items)
  simp [Nat.mod_eq_of_lt (List.mem_range.mp member)]

/-- What is taken is counted by its places. -/
theorem countP_inTurn (items : List α) (count : Nat) (counts : α → Bool) :
    (inTurn items.toArray count).countP counts =
      (List.range count).countP fun i => (items[i % items.length]?).any counts := by
  rw [inTurn, List.countP_filterMap]
  refine List.countP_congr fun i _ => ?_
  rw [List.getElem?_toArray, List.size_toArray]
  cases items[i % items.length]? <;> simp

theorem map_inTurn (f : α → β) (items : Array α) (count : Nat) :
    (inTurn items count).map f = inTurn (items.map f) count := by
  simp [inTurn, List.map_filterMap]

theorem mem_of_mem_inTurn {items : Array α} {count : Nat} {item : α}
    (member : item ∈ inTurn items count) : item ∈ items := by
  obtain ⟨i, -, found⟩ := List.mem_filterMap.mp member
  exact Array.mem_of_getElem? found

/-- Parts of a list make up the list. -/
theorem flatten_batches (items : List α) : (batches items).flatten = items := by
  have first : ∀ count, ((List.range count).map fun i =>
      (items.drop (i * batchSize)).take batchSize).flatten = items.take (count * batchSize) := by
    intro count
    induction count with
    | zero => simp
    | succ count ih =>
      rw [List.range_succ, List.map_append, List.flatten_append, ih, Nat.succ_mul, List.take_add]
      simp
  refine (first _).trans (List.take_of_length_le ?_)
  simp only [batchSize]
  omega

end InTurn

/-- How many versions were handed out at a location. -/
def counted (seen : VersionMap) (location : Location) : Version :=
  (seen.get? location).getD 0

theorem map_fst_number (seen : VersionMap) (locations : List Location) :
    (number seen locations).map Prod.fst = locations := by
  induction locations generalizing seen with
  | nil => rfl
  | cons location rest ih => simp [number, ih]

theorem counted_put (seen : VersionMap) (location other : Location) (version : Version) :
    counted (seen.put location version) other =
      if location = other then version else counted seen other := by
  rw [counted, VersionMap.get?_put]
  split <;> rfl

/-- Versions are left for the next one of a location, -/
theorem toNat_counted_succ {seen : VersionMap} {location : Location}
    (left : (counted seen location).toNat + 1 < UInt64.size) :
    (counted seen location + 1).toNat = (counted seen location).toNat + 1 := by
  rw [UInt64.toNat_add]
  exact Nat.mod_eq_of_lt left

/-- and for those that follow. -/
theorem left_put {seen : VersionMap} {first : Location} {rest : List Location}
    (left : ∀ location, (counted seen location).toNat + (rest.length + 1) < UInt64.size)
    (location : Location) :
    (counted (seen.put first (counted seen first + 1)) location).toNat + rest.length <
      UInt64.size := by
  have here := left first
  have there := left location
  rw [counted_put]
  split
  · rw [toNat_counted_succ (by omega)]
    omega
  · omega

/-- Versions that are handed out are larger than all before, but not by more than there are. -/
theorem number_above {locations : List Location} {seen : VersionMap}
    (left : ∀ location, (counted seen location).toNat + locations.length < UInt64.size) :
    ∀ entry ∈ number seen locations, counted seen entry.1 < entry.2 ∧
      entry.2.toNat ≤ (counted seen entry.1).toNat + locations.length := by
  induction locations generalizing seen with
  | nil => exact fun _ member => nomatch member
  | cons first rest ih =>
    have next : (counted seen first + 1).toNat = (counted seen first).toNat + 1 :=
      toNat_counted_succ (by have := left first; simp only [List.length_cons] at this; omega)
    intro entry member
    rcases List.mem_cons.mp member with rfl | later
    · refine ⟨UInt64.lt_iff_toNat_lt.mpr ?_, ?_⟩
      · exact next ▸ Nat.lt_succ_self _
      · exact next ▸ by simp
    · obtain ⟨above, below⟩ := ih (left_put left) entry later
      rw [counted_put, UInt64.lt_iff_toNat_lt] at above
      rw [counted_put] at below
      rw [UInt64.lt_iff_toNat_lt, List.length_cons]
      split at above
      · next same =>
        subst same
        rw [if_pos rfl] at below
        omega
      · next other =>
        rw [if_neg other] at below
        omega

/-- The later one of two versions of a location is larger. -/
def Ascends (entries : List (Location × Version)) : Prop :=
  entries.Pairwise fun earlier later => earlier.1 = later.1 → earlier.2 < later.2

/-- Versions are handed out in order. -/
theorem ascends_number {locations : List Location} {seen : VersionMap}
    (left : ∀ location, (counted seen location).toNat + locations.length < UInt64.size) :
    Ascends (number seen locations) := by
  induction locations generalizing seen with
  | nil => exact .nil
  | cons first rest ih =>
    refine List.pairwise_cons.mpr ⟨fun entry later same => ?_, ih (left_put left)⟩
    obtain ⟨above, -⟩ := number_above (left_put left) entry later
    rwa [counted_put, if_pos same] at above

/-- Versions that are handed out after others were collected go on from these. -/
theorem ascends_append {first second : List Location}
    (left : first.length + second.length < UInt64.size) :
    Ascends (number .empty first ++ number (.ofList (number .empty first)) second) := by
  have blank : ∀ location, (counted .empty location).toNat = 0 := fun _ => rfl
  have start : ∀ location, (counted .empty location).toNat + first.length < UInt64.size := by
    intro location
    rw [blank]
    omega
  have collected := VersionMap.Collects.ofList (number .empty first)
  have few : ∀ location, (counted (.ofList (number .empty first)) location).toNat ≤
      first.length := by
    intro location
    rw [counted]
    cases held : (VersionMap.ofList (number .empty first)).get? location with
    | none => exact Nat.zero_le _
    | some version =>
      obtain ⟨-, below⟩ := number_above start _ (collected.mem location version held)
      rwa [blank, Nat.zero_add] at below
  have next : ∀ location, (counted (.ofList (number .empty first)) location).toNat +
      second.length < UInt64.size := fun location => by
    have := few location
    omega
  refine List.pairwise_append.mpr ⟨ascends_number start, ascends_number next,
    fun earlier early later late same => ?_⟩
  obtain ⟨held, found, below⟩ := collected.le earlier.1 earlier.2 early
  obtain ⟨above, -⟩ := number_above next later late
  rw [counted, ← same, found] at above
  exact UInt64.lt_of_le_of_lt below above

/-- What new nodes bring in when they are reported. -/
def additions (locations : List Location) (nodes : Nat) : List Update :=
  arrivals 0 ((freshNodes locations nodes).map fun node => { type := .added, node })

/-- What their updates bring in. -/
def changes (locations : List Location) (nodes updates : Nat) : List Update :=
  arrivals 0 (updateEvents (freshNodes locations nodes) locations updates)

section Workload

variable (locations : List Location) (nodes updates : Nat)

theorem additions_eq : additions locations nodes =
    (number .empty (inTurn locations.toArray nodes)).zipIdx.map fun entry =>
      ⟨NodeEvent.stamp
        { type := .added
          node := .fresh ("sim-node-" ++ toString entry.2) entry.1.2 entry.1.1 }
        .distributorReceived 0, entry.1.1, entry.1.2⟩ := by
  rw [additions, freshNodes, List.map_map]
  refine arrivals_of_reports _ _ (fun entry : (Location × Version) × Nat => entry.1.1)
    (fun entry => entry.1.2) (fun entry _ => ⟨rfl, ?_, ?_⟩) 0
  · exact Node.location?_fresh ("sim-node-" ++ toString entry.2) entry.1.2 entry.1.1
  · exact Node.version?_fresh ("sim-node-" ++ toString entry.2) entry.1.2 entry.1.1

/-- The nodes that come in are those that were created. -/
theorem additions_node : (additions locations nodes).map (·.node) = freshNodes locations nodes := by
  rw [additions_eq, List.map_map]
  rfl

/-- Their locations and versions are those that were handed out. -/
theorem additions_versions : (additions locations nodes).map (fun update =>
    (update.location, update.version)) = number .empty (inTurn locations.toArray nodes) := by
  rw [additions_eq, List.map_map]
  exact List.zipIdx_map_fst 0 _

theorem length_additions (nonempty : locations ≠ []) :
    (additions locations nodes).length = nodes := by
  have size : 0 < locations.toArray.size := by simpa using List.length_pos_of_ne_nil nonempty
  have count := congrArg List.length (additions_versions locations nodes)
  have placed := congrArg List.length (map_fst_number .empty (inTurn locations.toArray nodes))
  rw [List.length_map] at count placed
  rw [count, placed, length_inTurn size]

/-- They stand at the locations that are given. -/
theorem additions_location : ∀ update ∈ additions locations nodes, update.location ∈ locations := by
  intro update member
  have placed := congrArg (List.map Prod.fst) (additions_versions locations nodes)
  rw [map_fst_number, List.map_map] at placed
  have listed : update.location ∈ inTurn locations.toArray nodes := by
    rw [← placed]
    exact List.mem_map.mpr ⟨update, member, rfl⟩
  simpa using mem_of_mem_inTurn listed

/-- No two nodes have the same id. -/
theorem nodup_additions : ((additions locations nodes).map (·.node.id)).Nodup := by
  have apart : Function.Injective fun i : Nat => "sim-node-" ++ toString i := by
    intro one two same
    have digits := congrArg String.toList same
    rw [String.toList_append, String.toList_append] at digits
    exact Nat.repr_inj.mp (String.toList_injective (List.append_cancel_left digits))
  have numbers := (List.nodup_zipIdx_map_snd (number .empty (inTurn locations.toArray nodes))).map
    apart
  rw [List.map_map] at numbers
  rw [additions_eq, List.map_map]
  exact numbers

/-- Every node that is created stands somewhere. -/
theorem exists_location {node : Node} (created : node ∈ freshNodes locations nodes) :
    ∃ location, node.location? = some location := by
  obtain ⟨entry, -, rfl⟩ := List.mem_map.mp created
  exact ⟨_, Node.location?_fresh _ _ _⟩

/-- The nodes that are updated, in turn. -/
def turn : List Node :=
  inTurn (freshNodes locations nodes).toArray updates

/-- The versions that are handed out to updates, with their locations. -/
def renumbered : List (Location × Version) :=
  number (.ofList (number .empty (inTurn locations.toArray nodes)))
    ((turn locations nodes updates).filterMap (·.location?))

/-- Versions go to the locations of the nodes that they are for. -/
theorem location?_of_mem_zip {nodes : List Node}
    (located : ∀ node ∈ nodes, ∃ location, node.location? = some location) {seen : VersionMap}
    {entry : Node × Location × Version}
    (member : entry ∈ nodes.zip (number seen (nodes.filterMap (·.location?)))) :
    entry.1.location? = some entry.2.1 := by
  induction nodes generalizing seen with
  | nil => cases member
  | cons node rest ih =>
    obtain ⟨⟨location, here⟩, later⟩ := List.forall_mem_cons.mp located
    simp only [List.filterMap_cons, here, number, List.zip_cons_cons] at member
    rcases List.mem_cons.mp member with rfl | other
    · exact here
    · exact ih later other

theorem location?_of_mem_turn {node : Node} (member : node ∈ turn locations nodes updates) :
    ∃ location, node.location? = some location :=
  exists_location locations nodes (by simpa using mem_of_mem_inTurn member)

/-- As many versions are handed out as nodes are updated. -/
theorem length_renumbered :
    (renumbered locations nodes updates).length = (turn locations nodes updates).length := by
  have placed := congrArg List.length (map_fst_number
    (.ofList (number .empty (inTurn locations.toArray nodes)))
    ((turn locations nodes updates).filterMap (·.location?)))
  rw [List.length_map] at placed
  refine placed.trans (List.filterMap_length_eq_length.mpr fun node member => ?_)
  obtain ⟨location, here⟩ := location?_of_mem_turn locations nodes updates member
  rw [here]
  rfl

theorem changes_eq (nonempty : locations ≠ []) : changes locations nodes updates =
    ((turn locations nodes updates).zip (renumbered locations nodes updates)).map fun entry =>
      ⟨NodeEvent.stamp { type := .modified, node := withVersion entry.1 entry.2.2 }
        .distributorReceived 0, entry.2.1, entry.2.2⟩ := by
  have length : (freshNodes locations nodes).length = nodes := by
    rw [← additions_node, List.length_map, length_additions locations nodes nonempty]
  rw [changes, updateEvents, length]
  refine arrivals_of_reports _ _ (fun entry : Node × Location × Version => entry.2.1)
    (fun entry => entry.2.2) (fun entry member => ⟨rfl, ?_, ?_⟩) 0
  · exact location?_of_mem_zip (fun node => location?_of_mem_turn locations nodes updates) member
  · exact Text.word?_toString entry.2.2

theorem changes_type (nonempty : locations ≠ []) :
    ∀ update ∈ changes locations nodes updates, update.type = .modified := by
  intro update member
  rw [changes_eq locations nodes updates nonempty] at member
  obtain ⟨entry, -, rfl⟩ := List.mem_map.mp member
  rfl

/-- The locations and versions of updates are those that were handed out. -/
theorem changes_versions (nonempty : locations ≠ []) : (changes locations nodes updates).map
    (fun update => (update.location, update.version)) = renumbered locations nodes updates := by
  rw [changes_eq locations nodes updates nonempty, List.map_map]
  exact List.map_snd_zip (Nat.le_of_eq (length_renumbered locations nodes updates))

/-- Updates are of the nodes that were created, in turn. -/
theorem changes_key (nonempty : locations ≠ []) : (changes locations nodes updates).map Update.key =
    inTurn ((additions locations nodes).map Update.key).toArray updates := by
  let key : Node → String × Location := fun node => (node.id, node.location?.getD default)
  have created : (additions locations nodes).map Update.key =
      (freshNodes locations nodes).map key := by
    rw [← additions_node, List.map_map]
    refine List.map_congr_left fun update member => ?_
    have resolved := resolved_of_received 0 _ update member
    simp [key, Update.key, resolved.location]
  have sent : (changes locations nodes updates).map Update.key =
      (turn locations nodes updates).map key := by
    rw [changes_eq locations nodes updates nonempty, List.map_map]
    refine Eq.trans (List.map_congr_left (g := key ∘ Prod.fst) fun entry member => ?_) ?_
    · have place := location?_of_mem_zip
        (fun node => location?_of_mem_turn locations nodes updates) member
      have same : key entry.1 = (entry.1.id, entry.2.1) := by simp [key, place]
      exact same.symm
    · rw [← List.map_map, List.map_fst_zip]
      exact Nat.le_of_eq (length_renumbered locations nodes updates).symm
  rw [created, sent, turn, map_inTurn, List.map_toArray]

/-- No node is updated that was not created. -/
theorem key_mem_of_changes (nonempty : locations ≠ []) : ∀ update ∈ changes locations nodes updates,
    update.key ∈ (additions locations nodes).map Update.key := by
  intro update member
  have listed : update.key ∈ (changes locations nodes updates).map Update.key :=
    List.mem_map.mpr ⟨update, member, rfl⟩
  rw [changes_key locations nodes updates nonempty] at listed
  exact List.mem_toArray.mp (mem_of_mem_inTurn listed)

/-- As long as there are versions left, what comes later of a node is newer. -/
theorem orderly (nonempty : locations ≠ []) (left : nodes + updates < UInt64.size) :
    Orderly (additions locations nodes ++ changes locations nodes updates) := by
  have ascends : ((additions locations nodes ++ changes locations nodes updates).map fun update =>
      (update.location, update.version)).Pairwise fun earlier later =>
        earlier.1 = later.1 → earlier.2 < later.2 := by
    rw [List.map_append, additions_versions, changes_versions locations nodes updates nonempty]
    have placed := length_inTurn_le locations.toArray nodes
    have turned := length_inTurn_le (freshNodes locations nodes).toArray updates
    have fewer := List.length_filterMap_le (·.location?) (turn locations nodes updates)
    rw [turn] at fewer
    exact ascends_append (by rw [turn]; omega)
  obtain ⟨early, late, across⟩ := List.pairwise_append.mp (List.pairwise_map.mp ascends)
  have modified := changes_type locations nodes updates nonempty
  refine List.pairwise_append.mpr ⟨?_, ?_, fun earlier first later second _ same =>
    ⟨modified later second, across earlier first later second same⟩⟩
  · have apart := List.pairwise_map.mp (nodup_additions locations nodes)
    exact apart.imp fun different same => absurd same different
  · exact late.imp_of_mem fun _ second newer _ same => ⟨modified _ second, newer same⟩

/-- No two keys are the same. -/
theorem nodup_keys_additions : ((additions locations nodes).map Update.key).Nodup := by
  have ids := nodup_additions locations nodes
  refine .of_map Prod.fst ?_
  rwa [List.map_map]

/-- As many updates are sent as are asked for, unless there is no node at all. -/
theorem length_updateEvents (nonempty : locations ≠ []) :
    (updateEvents (freshNodes locations nodes) locations updates).length =
      if 0 < nodes then updates else 0 := by
  have length : (freshNodes locations nodes).length = nodes := by
    rw [← additions_node, List.length_map, length_additions locations nodes nonempty]
  have sent : (updateEvents (freshNodes locations nodes) locations updates).length =
      (turn locations nodes updates).length := by
    rw [updateEvents, length, List.length_map]
    refine List.length_zip.trans (Nat.min_eq_left ?_)
    exact Nat.le_of_eq (length_renumbered locations nodes updates).symm
  rw [sent, turn]
  split
  · next positive => exact length_inTurn (by simpa [length] using positive) updates
  · next without => rw [inTurn_eq_nil (by simpa [length] using without), List.length_nil]

/-- Updates are counted by the nodes that they are of. -/
theorem countP_changes (nonempty : locations ≠ []) (counts : String × Location → Bool) :
    (changes locations nodes updates).countP (fun update => counts update.key) =
      (List.range updates).countP fun i =>
        (((additions locations nodes).map Update.key)[i % nodes]?).any counts := by
  have length : ((additions locations nodes).map Update.key).length = nodes := by
    rw [List.length_map, length_additions locations nodes nonempty]
  have turned := countP_inTurn ((additions locations nodes).map Update.key) updates counts
  rw [length, ← changes_key locations nodes updates nonempty, List.countP_map] at turned
  exact turned

end Workload

end Simulation

end FleetRing
