import Tetonic.Run.Compaction
import Tetonic.Run.Floors
import Tetonic.Run.Drift
import Tetonic.Run.Terminal
import Tetonic.Run.Rederive
import Tetonic.Managed.Effects
import Tetonic.Managed.Once
import Tetonic.Txn.Verification
import Tetonic.Txn.Approval
import Tetonic.Txn.Recovery
import Tetonic.Broker.Gpu
import Tetonic.Control.AgentStops
import Tetonic.Fabric.Deliveries
import Tetonic.Fabric.CapabilityRegistry
import Tetonic.Fabric.ResultAccept
import Tetonic.Node.Requests
import Tetonic.Context.Authority
import Tetonic.Run.TaskOutcome
import Tetonic.Run.Cancellation
import Tetonic.Run.Scheduling
import Tetonic.Run.Propagation
import Tetonic.Run.AttemptLimit
import Tetonic.Run.SideEffects
import Tetonic.Run.Suspension
import Tetonic.Run.Backoff
import Tetonic.Control.TeamWork
import Tetonic.Control.Usage
import Tetonic.Broker.Circuit
import Tetonic.Fabric.JobRegistry
import Tetonic.Egress.Ndjson
import Tetonic.Lib.EditDistance
import Tetonic.Txn.Levenshtein
