import Temper.Lib.IndexMap
import Temper.Lib.SameOutcome
import Temper.Json
import Temper.Host
import Temper.Spec.Naming
import Temper.Spec.Automaton
import Temper.Spec.Translate
import Temper.Jit.Guard
import Temper.Jit.Table
import Temper.Jit.Builder
import Temper.EntityActor.Types
import Temper.EntityActor.Effects
import Temper.EntityActor.FieldSync
import Temper.EntityActor.ReferenceContract
import Temper.EntityActor.ProcessAction
import Temper.EntityActor.Replay
import Temper.EntityActor.ReplayRefinement
import Temper.EntityActor.Recovery
import Temper.Verify.Model
import Temper.Verify.InitialState
import Temper.EntityActor.SnapshotReplay
import Temper.EntityActor.Actor
import Temper.EntityActor.ConflictRecovery
import Temper.EntityActor.Bootstrap
import Temper.Lib.Machine
import Temper.EntityActor.Tombstone
import Temper.KeyIndex
import Temper.Lib.Keyset
import Temper.Lib.Transaction
import Temper.Odata.CandidateFilter
import Temper.Odata.KeyedRead
import Temper.Odata.Pagination
import Temper.Odata.Path
import Temper.Odata.PathRoundTrip
import Temper.Runtime.JournalIdentity
import Temper.Runtime.Persistence
import Temper.Runtime.SchemaDeployment
import Temper.StoreSim.Append
import Temper.StoreSim.Bootstrap
import Temper.StoreSim.Creation
import Temper.StoreSim.EventEffect
import Temper.StoreSim.KeyOwnership
import Temper.StoreSim.MigrationEffect
import Temper.StoreSim.MigrationLifecycle
import Temper.StoreSim.SourceSeal
import Temper.StoreSim.ActiveBundle
import Temper.Dispatch.CrossEntity
import Temper.Lib.Checks
import Temper.Lib.Framing
import Temper.Lib.Keyed
import Temper.Lib.Paging
import Temper.Lib.Sweep
import Temper.Runtime.Listing
import Temper.Spec.Bundle.Digest
import Temper.Spec.Csdl.ReadBack
import Temper.Spec.Csdl.RoundTrip
import Temper.StoreSim.Listing
import Temper.Trigger.Collection.Lifecycle
import Temper.Trigger.Collection.Refinement
import Temper.Trigger.Collection.Settlement
import Temper.Trigger.Guard
import Temper.Trigger.Reconciliation
import Temper.Trigger.Recovery
import Temper.Trigger.RecoverySweep
import Temper.Conformance.Certificate
import Temper.EntityActor.AuthorizedWrite
import Temper.EntityActor.Idempotency
import Temper.Lib.Smt
import Temper.Platform.AppBundle.Identity
import Temper.Verify.Induction
import Temper.EntityActor.Counters
import Temper.EntityActor.ReferenceHistory
import Temper.EntityActor.StateDigest
import Temper.EntityActor.TimeoutCounters
import Temper.IdempotencyCache
import Temper.Jit.Params
import Temper.Lib.Closure
import Temper.Lib.Renumber
import Temper.Spec.Assert
import Temper.Spec.AssertGrammar
import Temper.Spec.AssertText
import Temper.Spec.References
import Temper.Verify.Evaluators
import Temper.Verify.ReferenceSymmetry
import Temper.Verify.Unreachable
import Temper.Lib.BreadthFirst
import Temper.Lib.Multimap
import Temper.Lib.Ownership
import Temper.Lib.Parsing
import Temper.Lib.Saturation
import Temper.Lib.UnionFind
import Temper.Odata.FilterGrammar
import Temper.Odata.FilterLaws
import Temper.Odata.FilterParsing
import Temper.Odata.FilterText
import Temper.Odata.NativeScan
import Temper.Odata.OrderBy
import Temper.Runtime.JournalFraming
import Temper.StoreSim.BootstrapTargets
import Temper.StoreSim.MigrationLease
import Temper.Verify.Collection.Projection
import Temper.Verify.Paths
import Temper.Verify.SeedCover
import Temper.ActorRuntime.SpecActor
import Temper.Agent.SessionTree
import Temper.Authz.Candidates
import Temper.Authz.PendingDecisions
import Temper.Conformance.RecordedRun
import Temper.EntityActor.SnapshotQueue
import Temper.Evolution.Pareto
import Temper.Lib.Mutation
import Temper.Lib.Pipe
import Temper.Lib.Places
import Temper.Lib.TokenBucket
import Temper.Runtime.MessageConservation
import Temper.Server.QueryProjectionQueue
import Temper.Server.RateLimit
import Temper.Server.StorageCaps
import Temper.StoreSim.RetrySafety
import Temper.Trigger.AwaitedDelivery
import Temper.Trigger.Collection.InPlace
import Temper.Trigger.Collection.Refusal
import Temper.Trigger.Collection.WriteOnce
import Temper.Trigger.DeliveryFencing
import Temper.Wasm.HttpStream
import Temper.ApplicationData.Decimal
import Temper.ApplicationData.Filter
import Temper.ApplicationData.Query
import Temper.Dispatch.Composite
import Temper.Dispatch.CompositeOrder
import Temper.Lib.Base64
import Temper.Lib.HighWater
import Temper.Lib.KeyedMerge
import Temper.Lib.Topological
import Temper.Platform.InstallOrder
import Temper.Server.ActionInput
import Temper.Server.CaptureLoss
import Temper.Server.EventStream
import Temper.Server.RequestBody
import Temper.Spec.Csdl.Merge
import Temper.Verify.Partitions
