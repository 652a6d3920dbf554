import FleetRing.Text.Quoted
import FleetRing.Version

/-!
# Causes of failure

What can go wrong with places, versions, retained events and watches, one
constructor per cause. The wording is in `Error.message` and nowhere else.
-/

namespace FleetRing

/-- Why a topology cannot be laid out on the ring. -/
inductive TopologyFault where
  | regionCount (count : Nat)
  | partitionCount (count : Nat)
  | noVirtualStores
  deriving DecidableEq, Repr

namespace TopologyFault

/-- The wording of a topology fault. -/
def message : TopologyFault → String
  | regionCount count =>
    "region count " ++ toString count ++ " must be within 1..=" ++ toString Region.count
  | partitionCount count =>
    "partition count " ++ toString count ++ " must be within 1..=" ++ toString Partition.count
  | noVirtualStores => "virtual nodes per partition must be positive"

end TopologyFault

/-- Why a request about places, retained events or a watch is refused. -/
inductive Error where
  /-- No event was ever retained. -/
  | emptyWindow
  /-- The oldest retained version is already above the requested one. -/
  | versionTooOld (requested oldest : Version)
  /-- No retained event is newer than the requested version. -/
  | nothingNewer
  /-- The index lies before the first or behind the last retained event. -/
  | indexOutOfRange (index start stop : Nat)
  /-- A pair of raw integers outside the tables. -/
  | unknownLocation (region partition : Int)
  /-- A resource version text that is no unsigned 64-bit number. -/
  | invalidVersion (text : String)
  /-- A name that stands in no table. -/
  | unknownName (text : String)
  | topology (fault : TopologyFault)
  /-- The client's watch is still served. -/
  | alreadyWatching (client : String)
  /-- The client receives no events of that location. -/
  | locationNotWatched (client : String) (location : Location)
  deriving DecidableEq, Repr

namespace Error

/-- The wording of an error. -/
def message : Error → String
  | emptyWindow => "event queue is empty"
  | versionTooOld requested oldest =>
    "requested resource version " ++ toString requested ++
      " is older than the retained window (oldest " ++ toString oldest ++ ")"
  | nothingNewer => "end of event queue"
  | indexOutOfRange index start stop =>
    "event queue index " ++ toString index ++ " out of range [" ++ toString start ++ ", " ++
      toString stop ++ "]"
  | unknownLocation region partition =>
    "unknown location: region " ++ toString region ++ ", partition " ++ toString partition
  | invalidVersion text => "invalid resource version " ++ Text.quoted text
  | unknownName text => "unknown location name " ++ Text.quoted text
  | topology fault => "invalid topology: " ++ fault.message
  | alreadyWatching client => "client " ++ client ++ " already has an active watcher"
  | locationNotWatched client location =>
    "client " ++ client ++ " is not subscribed to location " ++ location.text

/-- Is this the answer "nothing to replay", which is no failure of the caller? -/
def isNothingNewer : Error → Bool
  | nothingNewer => true
  | _ => false

end Error

end FleetRing
