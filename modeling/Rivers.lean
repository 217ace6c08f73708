import Rivers.Backfill.Execution
import Rivers.Backfill.Outcomes
import Rivers.Backfill.Permanence
import Rivers.Cache.ExactlyOnce
import Rivers.Cache.PartitionRows
import Rivers.Concurrency.Pools
import Rivers.Concurrency.RunStatus
import Rivers.Condition.Parity
import Rivers.Condition.Recording
import Rivers.Execution.ActionKeys
import Rivers.Execution.ActionRetry
import Rivers.Execution.Composition
import Rivers.Execution.Kubernetes
import Rivers.Execution.PlanOrder
import Rivers.Operator.Directory
import Rivers.Operator.Leader
import Rivers.Operator.Outcome
import Rivers.Operator.Restarts
import Rivers.Operator.Workspace
import Rivers.Partitions.MappingInverse
import Rivers.Partitions.Preview
import Rivers.Pass.Recovery
import Rivers.Sensor.RunStatus
import Rivers.Sensor.TickWriter
import Rivers.Storage.Provenance
import Rivers.Storage.RunQueue
import Rivers.Ui.Crossings
