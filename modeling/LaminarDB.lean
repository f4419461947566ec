import LaminarDB.Pipeline.Conservation
import LaminarDB.Checkpoint.Protocol
import LaminarDB.Checkpoint.Atomicity
import LaminarDB.Pipeline.Recovery
import LaminarDB.Executor.Budget
import LaminarDB.State.SessionComponents
import LaminarDB.State.FixedWindows
import LaminarDB.Executor.JoinCheckpoint
import LaminarDB.Connectors.MySqlPosition
import LaminarDB.Connectors.PostgresPosition
import LaminarDB.Connectors.FileSinkPromise
import LaminarDB.Connectors.KafkaCoverage
import LaminarDB.Sql.JoinExtraction
import LaminarDB.Sql.LookupEquivalence
import LaminarDB.Coordinator.Numbering
import LaminarDB.Coordinator.WalTruncation
import LaminarDB.Connectors.ChangelogOrder
import LaminarDB.Connectors.DeltaSourceRuns
import LaminarDB.Connectors.DeltaSinkRuns
import LaminarDB.Connectors.PostgresSinkRuns
import LaminarDB.Dag.Multicast
import LaminarDB.Dag.BarrierAligner
import LaminarDB.Storage.IncrementalRecovery
import LaminarDB.Storage.WalMerge
import LaminarDB.Executor.TopK
import LaminarDB.Executor.ClosedBoundary
import LaminarDB.Executor.PostProjection
import LaminarDB.Executor.CycleTables
import LaminarDB.State.MmapStore
import LaminarDB.Executor.QueryChanges
import LaminarDB.Operator.WatermarkSort
import LaminarDB.Operator.Aggregators
import LaminarDB.Connectors.KafkaRows
import LaminarDB.Storage.PartitionUploads
import LaminarDB.Subscription.Dispatcher
import LaminarDB.Coordinator.StatePacking
import LaminarDB.Storage.DamagedTails
import LaminarDB.Sql.WindowFunctions
