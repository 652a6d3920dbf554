import FleetRing.Config
import FleetRing.Error

/-!
# Refusals of the distributor
-/

namespace FleetRing

/-- Why the distributor refuses a request. -/
inductive Refusal where
  /-- A registration must ask for more hosts than the minimum. -/
  | notAboveMinimum (requested minimum : Nat)
  /-- There are not that many hosts at all. -/
  | aboveTotal (requested total : Nat)
  /-- There are not that many hosts without owner. -/
  | aboveFree (requested : Nat)
  | clientExists (client : String)
  | clientNotFound (client : String)
  /-- A watch without any location to start from. -/
  | noVersions
  | config (fault : ConfigFault)
  /-- A refusal of the node store or of a client's queue. -/
  | core (error : Error)
  deriving DecidableEq, Repr

/-- The wording of a refusal. -/
def Refusal.message : Refusal → String
  | notAboveMinimum requested minimum =>
    "requested host number " ++ toString requested ++ " must be more than " ++ toString minimum
  | aboveTotal requested total =>
    "requested host number " ++ toString requested ++ " exceeds total host number " ++
      toString total
  | aboveFree requested =>
    "requested host number " ++ toString requested ++ " exceeds free capacity"
  | clientExists client => "client id " ++ client ++ " already exists"
  | clientNotFound client => "client " ++ client ++ " not found"
  | noVersions => "missing watch argument: resource versions"
  | config fault => "invalid configuration: " ++ fault.message
  | core error => error.message

end FleetRing
