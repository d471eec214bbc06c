import RaftTimeDB.Lib.Lists
import RaftTimeDB.Lib.Trim
import RaftTimeDB.Lib.Runs
import RaftTimeDB.Lib.Table
import RaftTimeDB.Lib.Codec
import RaftTimeDB.Lib.Txn
import RaftTimeDB.Lib.Fallible
import RaftTimeDB.Lib.Routing
import RaftTimeDB.Lib.Watch
import RaftTimeDB.Types
import RaftTimeDB.Router
import RaftTimeDB.ModuleNames
import RaftTimeDB.StateMachine
import RaftTimeDB.LogSpec
import RaftTimeDB.Pool
import RaftTimeDB.LogStore
import RaftTimeDB.JsonFormats
import RaftTimeDB.StoreRefinement
import RaftTimeDB.StoreContract
import RaftTimeDB.CrashSafety
import RaftTimeDB.LegacyMigration
import RaftTimeDB.StoreFaults
import RaftTimeDB.StoreReads
import RaftTimeDB.Replicas
import RaftTimeDB.CatchUp
import RaftTimeDB.RouteMirror
import RaftTimeDB.SnapshotCut
import RaftTimeDB.SnapshotTasks
import RaftTimeDB.CachedSnapshot
import RaftTimeDB.SnapshotIds
import RaftTimeDB.Forwarder
import RaftTimeDB.Reconnects
import RaftTimeDB.Restart
import RaftTimeDB.Redelivery
import RaftTimeDB.Handler
import RaftTimeDB.Inbound
import RaftTimeDB.Cluster
import RaftTimeDB.Effects
import RaftTimeDB.Integrity
import RaftTimeDB.Ordering
import RaftTimeDB.OwnWrites
import RaftTimeDB.ModuleFidelity
import RaftTimeDB.Convergence
import RaftTimeDB.ForwarderProgress
import RaftTimeDB.Members
import RaftTimeDB.ShardMembership
import RaftTimeDB.MembershipRaces
import RaftTimeDB.ShardStart
import RaftTimeDB.ConnectionRoutes
import RaftTimeDB.Shutdown
import RaftTimeDB.Node
import RaftTimeDB.ShardSet
import RaftTimeDB.ListenerProgress
import RaftTimeDB.ShardApi
import RaftTimeDB.Api
import RaftTimeDB.Transport
import RaftTimeDB.Cli
import RaftTimeDB.Isolation
import RaftTimeDB.EarlyApply
