import FitzDestroyer.Run.Basic
import FitzDestroyer.RawProtocol
import FitzDestroyer.Pressure.Reconcile
import FitzDestroyer.Pressure.QueueVerdict
import FitzDestroyer.Pressure.StreamOffset
import FitzDestroyer.Live.Interruption
import FitzDestroyer.Scenario.Suite
import FitzDestroyer.StorageProxy.Integrity
import FitzDestroyer.StorageProxy.Latency
import FitzDestroyer.Schedule.Verdict
import FitzDestroyer.RawProtocol.Reassembly
import FitzDestroyer.RawProtocol.Tlv
import FitzDestroyer.Recovery.GlobalStream
import FitzDestroyer.Recovery.Verify
import FitzDestroyer.Durability.Outcomes
import FitzDestroyer.Durability.Verdict
import FitzDestroyer.Schedule.OutageVerdict
import FitzDestroyer.ResponseState.Verdict
import FitzDestroyer.StreamSelector.Verdict
import FitzDestroyer.Pressure.StageAccounting
import FitzDestroyer.Pressure.UnexpectedErrors
import FitzDestroyer.Lease.WaiterRaces
import FitzDestroyer.Contention.Verdict
import FitzDestroyer.Pressure.MergedPercentile
import FitzDestroyer.Pressure.ShutdownErrors
import FitzDestroyer.Pressure.ProgressWindows
import FitzDestroyer.Pressure.QueueIdentity
import FitzDestroyer.Workload.Identity
import FitzDestroyer.Live.Sizes
import FitzDestroyer.Live.Notice
import FitzDestroyer.Pressure.Signals
import FitzDestroyer.Report.Consistency
import FitzDestroyer.Report.Tables
import FitzDestroyer.Lease.Admissions
import FitzDestroyer.Schedule.MinutePair
import FitzDestroyer.Metrics.Sum
import FitzDestroyer.Queue.LifecycleRuns
import FitzDestroyer.Queue.Overload
import FitzDestroyer.Queue.Redelivery
import FitzDestroyer.Workload.Filler
import FitzDestroyer.Workload.Lanes
import FitzDestroyer.Scenario.Project
import FitzDestroyer.ResponseState.Request
import FitzDestroyer.Reliability.Reconnect
import FitzDestroyer.Queue.Leases
import FitzDestroyer.Queue.Lifecycle
import FitzDestroyer.Report.EventFile
import FitzDestroyer.Report.Summaries
import FitzDestroyer.Auth.Token
import FitzDestroyer.Family.Isolation
import FitzDestroyer.Reliability.SaturationDelta
