import Shipyard.CodeOwners.GlobSegment
import Shipyard.Evidence.Store
import Shipyard.Governance.Apply
import Shipyard.HeadApproval.Admission
import Shipyard.HeadApproval.Agreement
import Shipyard.HeadApproval.CarryLimits
import Shipyard.HeadApproval.Globs
import Shipyard.HeadApproval.MarkerLines
import Shipyard.HeadApproval.RebaseCarry
import Shipyard.HostPool.LeaseStore
import Shipyard.Landability.Coverage
import Shipyard.MergeQueue.Hold
import Shipyard.MergeQueue.Rotation
import Shipyard.MergeQueue.Settlement
import Shipyard.MergeSteward.Recency
import Shipyard.ParallelProof.Aggregate
import Shipyard.ParallelProof.Immutable
import Shipyard.PrQueue.Requeues
import Shipyard.Queue.Cancellation
import Shipyard.Queue.LegacyRequest
import Shipyard.Queue.PendingFresh
import Shipyard.Queue.Recovery
import Shipyard.Queue.RecoveryOwner
import Shipyard.Queue.Supersedence
import Shipyard.Recovery.Budget
import Shipyard.Rollup.Form
import Shipyard.Rollup.Landing
import Shipyard.Scheduler.Drain
import Shipyard.Scheduler.SelfCompetition
import Shipyard.Scheduler.VmSlots
import Shipyard.Ship.Archive
import Shipyard.Ship.LocalProof
import Shipyard.Ship.Resume
import Shipyard.Ship.Verdict
import Shipyard.Ship.WorkItemFencing
import Shipyard.Supervisor.Reboot
