import FleetRing.Event.Codec
import FleetRing.Main
import FleetRing.Proofs.Distributor.Admission
import FleetRing.Proofs.Distributor.Batches
import FleetRing.Proofs.Distributor.CatchUp
import FleetRing.Proofs.Distributor.Holdings
import FleetRing.Proofs.Distributor.Tenure
import FleetRing.Proofs.Store.Redelivery
import FleetRing.Session
import FleetRing.Proofs.Distributor.Progress
import FleetRing.Proofs.Watch.Reconnection
import FleetRing.Proofs.Distributor.Isolation
import FleetRing.Proofs.Watch.Succession
import FleetRing.Proofs.Distributor.Versions
import FleetRing.Proofs.Store.Interleaving
import FleetRing.Proofs.Persist.Keys
import FleetRing.Proofs.Distributor.Persistence
import FleetRing.Proofs.Window.Lookup
import FleetRing.Proofs.Distributor.Covering
import FleetRing.Proofs.Persist.Recall
import FleetRing.Proofs.Simulation.Report
import FleetRing.Proofs.Watch.Acceptance
import FleetRing.Proofs.Window.Log
import FleetRing.Proofs.Persist.Openings
import FleetRing.Proofs.Store.Registry
import FleetRing.Proofs.Store.Routing
import FleetRing.Proofs.Ring.Tiling
import FleetRing.Proofs.Distributor.Exactness
import FleetRing.Proofs.Version.Semilattice
