import DatasetCache.Config.Trial
import DatasetCache.Key.Survey
import DatasetCache.Scenario.Run
import DatasetCache.Proofs.Cache.Enrolment
import DatasetCache.Proofs.Context.Lifecycle
import DatasetCache.Proofs.Context.Outcome
import DatasetCache.Proofs.Coordinator.FirstCommitter
import DatasetCache.Proofs.Coordinator.Retention
import DatasetCache.Proofs.Cache.Ledger
import DatasetCache.Proofs.Cache.Moves
import DatasetCache.Proofs.Cache.Conservation
import DatasetCache.Proofs.Cache.Synchrony
import DatasetCache.Proofs.Cache.Deferral
import DatasetCache.Proofs.Cache.Residence
import DatasetCache.Proofs.Context.Reopening
import DatasetCache.Proofs.Shared.Conflict
import DatasetCache.Proofs.Shared.Caches
import DatasetCache.Proofs.Cache.Custody
import DatasetCache.Proofs.Cache.Opening
import DatasetCache.Proofs.Cache.Founding
import DatasetCache.Proofs.Cache.Tracking
import DatasetCache.Proofs.Cache.Permanence
import DatasetCache.Proofs.Cache.Lineup
import DatasetCache.Proofs.Cache.Dismissal
import DatasetCache.Proofs.Cache.Company
import DatasetCache.Proofs.Context.Settlement
import DatasetCache.Proofs.Cache.Isolation
import DatasetCache.Proofs.Coordinator.Commutation
import DatasetCache.Proofs.Context.Phases
import DatasetCache.Proofs.Cache.Execution
import DatasetCache.Proofs.Cache.Takeover
import DatasetCache.Proofs.Coordinator.Counters
import DatasetCache.Proofs.Cache.Construction
import DatasetCache.Proofs.Cache.Refusal
import DatasetCache.Proofs.Cache.Teardown
import DatasetCache.Proofs.Arguments.Reach
import DatasetCache.Proofs.Key.RoundTrip
import DatasetCache.Proofs.Config.RoundTrip
import DatasetCache.Proofs.Context.Drainage
import DatasetCache.Proofs.Store.Bookkeeping
import DatasetCache.Proofs.Statics.Loading
