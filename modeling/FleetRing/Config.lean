import FleetRing.Json.Decode
import FleetRing.Location

/-!
# Configuration

Every field has a default, so a partial text is a whole configuration. A text is
decoded first and validated afterwards; validation names the first field in
order that is out of bounds.
-/

namespace FleetRing

open Reading (Slot asRecord)

/-- How a distributor is set up. -/
structure Config where
  /-- Regions on the ring. -/
  regions : UInt64 := 5
  /-- Resource partitions of each region. -/
  partitions : UInt64 := 10
  /-- Virtual stores of each location. -/
  virtualStores : UInt64 := 200
  /-- Registrations must ask for more hosts than this. -/
  minimalRequest : UInt64 := 50
  /-- Updates retained for each location of a client. -/
  windowLength : UInt64 := 10000
  /-- Attempts of each persistence call. -/
  retryLimit : UInt64 := 5
  /-- How long a persistence call is waited for, in milliseconds. -/
  persistTimeout : UInt64 := 5000
  /-- Failed calls in a row that open the breaker; zero never opens it. -/
  breakerThreshold : UInt64 := 3
  /-- How long an open breaker skips calls, in milliseconds. -/
  breakerCooldown : UInt64 := 30000
  /-- Events that the channel of a watch holds. -/
  watchCapacity : UInt64 := 100
  deriving DecidableEq, Repr, Inhabited

/-- The first field that is out of bounds. -/
inductive ConfigFault where
  | regions | partitions | virtualStores | windowLength | retryLimit | watchCapacity
  deriving DecidableEq, Repr

/-- The wording of a field that is out of bounds. -/
def ConfigFault.message : ConfigFault → String
  | regions => "region_count must be within 1..=" ++ toString Region.count
  | partitions => "partition_count must be within 1..=" ++ toString Partition.count
  | virtualStores => "virtual_nodes_per_partition must be positive"
  | windowLength => "event_queue_length must be positive"
  | retryLimit => "persist_retry_limit must be positive"
  | watchCapacity => "watch_channel_capacity must be positive"

/-- Why there is no configuration. -/
inductive ConfigError where
  /-- The file cannot be read as text. -/
  | unreadable
  /-- The text cannot be decoded. -/
  | undecodable (fault : JsonFault)
  /-- A field is out of bounds. -/
  | invalid (fault : ConfigFault)
  deriving DecidableEq, Repr

/-- The wording of a missing configuration. -/
def ConfigError.message : ConfigError → String
  | unreadable => "invalid configuration: the file cannot be read"
  | undecodable _ => "invalid configuration: the text cannot be decoded"
  | invalid fault => "invalid configuration: " ++ fault.message

namespace Config

/-- The first field that is out of bounds, if there is one. -/
def fault? (config : Config) : Option ConfigFault :=
  if config.regions = 0 ∨ Region.count < config.regions.toNat then some .regions
  else if config.partitions = 0 ∨ Partition.count < config.partitions.toNat then some .partitions
  else if config.virtualStores = 0 then some .virtualStores
  else if config.windowLength = 0 then some .windowLength
  else if config.retryLimit = 0 then some .retryLimit
  else if config.watchCapacity = 0 then some .watchCapacity
  else none

/-- The JSON number of an unsigned word. -/
def word (value : UInt64) : Json :=
  .integer value.toNat

/-- The JSON of a configuration. -/
def toJson (config : Config) : Json :=
  .object [
    ("region_count", word config.regions),
    ("partition_count", word config.partitions),
    ("virtual_nodes_per_partition", word config.virtualStores),
    ("minimal_request_host_num", word config.minimalRequest),
    ("event_queue_length", word config.windowLength),
    ("persist_retry_limit", word config.retryLimit),
    ("persist_timeout_ms", word config.persistTimeout),
    ("circuit_breaker_threshold", word config.breakerThreshold),
    ("circuit_breaker_cooldown_ms", word config.breakerCooldown),
    ("watch_channel_capacity", word config.watchCapacity)]

/-- The compact text of a configuration. -/
def text (config : Config) : String :=
  config.toJson.compact

/-- The JSON of a configuration with its fields sorted by name. -/
def toSortedJson (config : Config) : Json :=
  .object [
    ("circuit_breaker_cooldown_ms", word config.breakerCooldown),
    ("circuit_breaker_threshold", word config.breakerThreshold),
    ("event_queue_length", word config.windowLength),
    ("minimal_request_host_num", word config.minimalRequest),
    ("partition_count", word config.partitions),
    ("persist_retry_limit", word config.retryLimit),
    ("persist_timeout_ms", word config.persistTimeout),
    ("region_count", word config.regions),
    ("virtual_nodes_per_partition", word config.virtualStores),
    ("watch_channel_capacity", word config.watchCapacity)]

/-- A configuration that is being read. -/
structure Draft where
  regions : Option UInt64 := none
  partitions : Option UInt64 := none
  virtualStores : Option UInt64 := none
  minimalRequest : Option UInt64 := none
  windowLength : Option UInt64 := none
  retryLimit : Option UInt64 := none
  persistTimeout : Option UInt64 := none
  breakerThreshold : Option UInt64 := none
  breakerCooldown : Option UInt64 := none
  watchCapacity : Option UInt64 := none

/-- The fields of a configuration. -/
def slots : List (Slot Draft) := [
  .of "region_count" (·.asUInt64) (·.regions)
    fun value draft => { draft with regions := some value },
  .of "partition_count" (·.asUInt64) (·.partitions)
    fun value draft => { draft with partitions := some value },
  .of "virtual_nodes_per_partition" (·.asUInt64) (·.virtualStores)
    fun value draft => { draft with virtualStores := some value },
  .of "minimal_request_host_num" (·.asUInt64) (·.minimalRequest)
    fun value draft => { draft with minimalRequest := some value },
  .of "event_queue_length" (·.asUInt64) (·.windowLength)
    fun value draft => { draft with windowLength := some value },
  .of "persist_retry_limit" (·.asUInt64) (·.retryLimit)
    fun value draft => { draft with retryLimit := some value },
  .of "persist_timeout_ms" (·.asUInt64) (·.persistTimeout)
    fun value draft => { draft with persistTimeout := some value },
  .of "circuit_breaker_threshold" (·.asUInt64) (·.breakerThreshold)
    fun value draft => { draft with breakerThreshold := some value },
  .of "circuit_breaker_cooldown_ms" (·.asUInt64) (·.breakerCooldown)
    fun value draft => { draft with breakerCooldown := some value },
  .of "watch_channel_capacity" (·.asUInt64) (·.watchCapacity)
    fun value draft => { draft with watchCapacity := some value }]

/-- The configuration of a draft; what it lacks has its default. -/
def Draft.finish (draft : Draft) : Config :=
  let default : Config := {}
  { regions := draft.regions.getD default.regions
    partitions := draft.partitions.getD default.partitions
    virtualStores := draft.virtualStores.getD default.virtualStores
    minimalRequest := draft.minimalRequest.getD default.minimalRequest
    windowLength := draft.windowLength.getD default.windowLength
    retryLimit := draft.retryLimit.getD default.retryLimit
    persistTimeout := draft.persistTimeout.getD default.persistTimeout
    breakerThreshold := draft.breakerThreshold.getD default.breakerThreshold
    breakerCooldown := draft.breakerCooldown.getD default.breakerCooldown
    watchCapacity := draft.watchCapacity.getD default.watchCapacity }

/-- Decode a configuration without validating it. -/
def decode : Reading → Decoded Config :=
  asRecord slots {} fun draft => some draft.finish

/-- Refuse a configuration with a field that is out of bounds. -/
def validate (config : Config) : Except ConfigError Config :=
  match config.fault? with
  | some fault => .error (.invalid fault)
  | none => .ok config

/-- Read and validate a configuration text. -/
def ofText (text : String) : Except ConfigError Config :=
  match Reading.decodeText decode text with
  | .error fault => .error (.undecodable fault)
  | .ok config => config.validate

/-- Read and validate the bytes of a file, if there are any; they must be UTF-8. -/
def ofFile (contents : Option ByteArray) : Except ConfigError Config :=
  match contents.bind String.fromUTF8? with
  | some text => ofText text
  | none => .error .unreadable

end Config

end FleetRing
