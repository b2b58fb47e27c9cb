import Federation.Codec.Config
import Federation.Codec.Failure
import Federation.Codec.Membership
import Federation.Hashing.Wy
import Federation.Json.Reader
import Federation.Json.Writer
import Federation.Placement.Rows
import Federation.Schedule.Rehearsal
import Federation.Simulation.Session
import Federation.Simulation.StaticNode
import Federation.Proofs.Address.Seeds
import Federation.Proofs.Config.Report
import Federation.Proofs.Discovery.Admission
import Federation.Proofs.Discovery.Aftermath
import Federation.Proofs.Discovery.Alone
import Federation.Proofs.Discovery.Asking
import Federation.Proofs.Discovery.Cancellation
import Federation.Proofs.Discovery.CleanRound
import Federation.Proofs.Discovery.Entries
import Federation.Proofs.Discovery.ExactEffect
import Federation.Proofs.Discovery.Failover
import Federation.Proofs.Discovery.Independence
import Federation.Proofs.Discovery.Joining
import Federation.Proofs.Discovery.Ledger
import Federation.Proofs.Discovery.Outage
import Federation.Proofs.Discovery.Outset
import Federation.Proofs.Discovery.Questions
import Federation.Proofs.Discovery.Readdressing
import Federation.Proofs.Discovery.Setbacks
import Federation.Proofs.Discovery.SharedNames
import Federation.Proofs.Discovery.SoloRound
import Federation.Proofs.Discovery.Startup
import Federation.Proofs.Codec.RoundTrip
import Federation.Proofs.Membership.Patches
import Federation.Proofs.Pace.Estimate
import Federation.Proofs.Pace.Intervals
import Federation.Proofs.Pace.SteadyChurn
import Federation.Proofs.Placement.RegistryHistory
import Federation.Proofs.Placement.RingHistory
import Federation.Proofs.Placement.Room
import Federation.Proofs.Routing.Batches
import Federation.Proofs.Routing.HashedLookups
import Federation.Proofs.Routing.Replay
import Federation.Proofs.Routing.Reset
import Federation.Proofs.Routing.SharedHash
import Federation.Proofs.Routing.SoundLookups
import Federation.Proofs.Schedule.Discipline
import Federation.Proofs.Schedule.Pacing
