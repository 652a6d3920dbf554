import FleetRing.Proofs.Json.Records
import FleetRing.Proofs.Persist.Deeds
import FleetRing.Proofs.Version.Semilattice

/-!
# What is persisted is recalled

Nodes, events, versions, the status and configurations are written as JSON and decoded from it.
`records_recalled` says that nothing is lost on the way, whatever texts and amounts they hold and in
whatever order versions are written, and that a record store therefore answers with the last node
that a successful call persisted under a key, whatever calls were made in between.

A record is looked up by its key alone. The keys of the status and of the assignments are no keys of
nodes, so calls that persist those leave every node as it is.
-/

namespace FleetRing

/-- A valid configuration is read from its text. -/
theorem Config.ofText_text {config : Config} (faultless : config.fault? = none) :
    Config.ofText config.text = .ok config := by
  rw [ofText, text, config.rereads.decodeText]
  simp only [validate, faultless]

namespace RecordStore

/-- A record is taken for a node when it can be decoded as one. -/
def nodeOf? (text : String) : Option Node :=
  (Reading.decodeText Node.decode text).toOption

theorem nodeOf?_text (node : Node) : nodeOf? node.text = some node := by
  rw [nodeOf?, Node.text, node.rereads.decodeText]
  rfl

theorem node?_eq (store : RecordStore) (key : String) :
    store.node? key = store.contents.records[key]?.bind nodeOf? := by
  rw [node?, get?, contents]
  cases store.records[key]? <;> rfl

/-- The last node with a key. -/
def lastUnder (key : String) (nodes : List Node) : Option Node :=
  (nodes.filter (·.recordKey = key)).getLast?

theorem lastUnder_append (key : String) (first second : List Node) :
    lastUnder key (first ++ second) = (lastUnder key second).or (lastUnder key first) := by
  rw [lastUnder, List.filter_append, List.getLast?_append, lastUnder, lastUnder]

/-- Texts of nodes are decoded to what was written. -/
theorem bind_nodeOf? (written : Option Node) (before : Option String) :
    ((written.map (·.text)).or before).bind nodeOf? = written.or (before.bind nodeOf?) := by
  cases written with
  | none => rfl
  | some node =>
    rw [Option.map_some, Option.some_or, Option.some_or, Option.bind_some, nodeOf?_text]

/-- Nodes that are persisted are found under their keys, the last one of each. -/
theorem node?_persistNodes {nodes : List Node} {store next : RecordStore}
    (persisted : persistNodes nodes store = (true, next)) (key : String) :
    next.node? key = (lastUnder key nodes).or (store.node? key) := by
  have wrote := (Writing.nodes nodes).contents_call store
  simp only [Writing.call, persisted, if_true] at wrote
  rw [node?_eq, node?_eq, wrote, Writing.effect, getElem?_putNodes, bind_nodeOf?]
  rfl

/-- A call changes the nodes that it persists, if it succeeds, and no other ones. -/
theorem node?_call (writing : Writing) (store : RecordStore) (rest : String) :
    (writing.call store).2.node? (nodePrefix ++ rest) =
      if (writing.call store).1 = true then
        (lastUnder (nodePrefix ++ rest) writing.touched).or (store.node? (nodePrefix ++ rest))
      else store.node? (nodePrefix ++ rest) := by
  rw [node?_eq, node?_eq, writing.contents_call]
  split
  · rw [Contents.record_effect, bind_nodeOf?]
    rfl
  · rfl

/-- Make calls one after the other, and list those that succeed. -/
def make : List Writing → RecordStore → List Writing × RecordStore
  | [], store => ([], store)
  | writing :: writings, store =>
    let (done, store) := writing.call store
    let (landed, store) := make writings store
    (if done then writing :: landed else landed, store)

/-- After any calls, the last node is found that one of them persisted under a key. -/
theorem node?_make (writings : List Writing) (store : RecordStore) (rest : String) :
    (make writings store).2.node? (nodePrefix ++ rest) =
      (lastUnder (nodePrefix ++ rest) ((make writings store).1.flatMap (·.touched))).or
        (store.node? (nodePrefix ++ rest)) := by
  induction writings generalizing store with
  | nil => rfl
  | cons writing writings ih =>
    have first := node?_call writing store rest
    rw [make]
    simp only [ih, first]
    split
    · rw [List.flatMap_cons, lastUnder_append, Option.or_assoc]
    · rfl

end RecordStore

/-- Everything that is written is decoded to what it was, apart from the stamps of events, which are
not written; the entries of a version map may be written in any order. So a record store holds the
last node that was persisted under each key. -/
theorem records_recalled :
    (∀ node : Node, Reading.decodeText Node.decode node.text = .ok node) ∧
    (∀ event : NodeEvent,
      Reading.decodeText NodeEvent.decode event.text = .ok { event with stamps := {} }) ∧
    (∀ (map : VersionMap) (order : List (Location × Version)), order.Perm map.toList →
      Reading.decodeText VersionMap.decode (VersionMap.jsonOf order).compact = .ok map) ∧
    (∀ (status : StoreStatus) (order : List (Location × Version)),
      order.Perm status.versions.toList →
        Reading.decodeText StoreStatus.decode (status.textOf order) = .ok status) ∧
    (∀ config : Config, Reading.decodeText Config.decode config.text = .ok config ∧
      (config.fault? = none → Config.ofText config.text = .ok config)) ∧
    (∀ (nodes : List Node) (store next : RecordStore) (key : String),
      RecordStore.persistNodes nodes store = (true, next) →
        next.node? key = (RecordStore.lastUnder key nodes).or (store.node? key)) ∧
    ∀ (writings : List Writing) (store : RecordStore) (rest : String),
      (RecordStore.make writings store).2.node? (nodePrefix ++ rest) =
        (RecordStore.lastUnder (nodePrefix ++ rest)
          ((RecordStore.make writings store).1.flatMap (·.touched))).or
            (store.node? (nodePrefix ++ rest)) :=
  ⟨fun node => node.rereads.decodeText, fun event => event.rereads.decodeText,
    fun _ _ order => (VersionMap.enumerates_iff_perm.mpr order).rereads.decodeText,
    fun status _ order => (status.rereads (VersionMap.enumerates_iff_perm.mpr order)).decodeText,
    fun config => ⟨config.rereads.decodeText, Config.ofText_text⟩,
    fun _ _ _ key persisted => RecordStore.node?_persistNodes persisted key,
    RecordStore.node?_make⟩

/-- A node of Shanghai whose id has to be escaped, and of which some details are known. -/
def quotedNode (version : Version) : Node where
  id := "a\"\\\n"
  versionText := toString version
  placement := { Placement.at ⟨.shanghai, .rp1⟩ with faultDomain := some "" }
  resources := { memory := -0x8000000000000000, scalars := {("gpu", 8)} }
  conditions := 255

/-- It was persisted twice in one call, and is found as it was the second time. A status is recalled
whose versions are not sorted. -/
theorem records_recalled_small :
    let nodes := [quotedNode 5, .fresh "b" 7 ⟨.beijing, .rp1⟩, quotedNode 6]
    let order := [(⟨.shanghai, .rp1⟩, 6), (⟨.beijing, .rp1⟩, 7)]
    let status : StoreStatus := ⟨2, 1, 1, .ofList order⟩
    ∃ next, RecordStore.persistNodes nodes {} = (true, next) ∧
      next.node? (quotedNode 5).recordKey = some (quotedNode 6) ∧
      Reading.decodeText StoreStatus.decode (status.textOf order) = .ok status ∧
      Config.ofText ({} : Config).text = .ok {} := by
  intro nodes order status
  obtain ⟨-, -, -, statuses, configs, persisted, -⟩ := records_recalled
  have done : RecordStore.persistNodes nodes {} = (true, (RecordStore.persistNodes nodes {}).2) :=
    rfl
  have last : RecordStore.lastUnder (quotedNode 5).recordKey nodes = some (quotedNode 6) := by
    decide +kernel
  refine ⟨_, done, (persisted nodes {} _ _ done).trans ?_,
    statuses status order (by decide +kernel), (configs {}).2 (by decide)⟩
  rw [last, Option.some_or]

end FleetRing
