import Shipyard.Queue.Clients

/-!
# The execution supervisor across restarts and reboots

The durable files of the daemon (queue, worker receipts, boot-requeue markers,
termination transactions, leases), the live worker processes, and the memory of
the running supervisor. `requeue_jobs_interrupted_by_reboot` is executed one
durable write at a time, so that the supervisor or the host may stop between
any two of them. The other phases of a tick are single steps; they run only in
a supervisor whose boot pass is over.
-/

namespace Shipyard.Supervisor

open Lib Queue

/-- Who runs a job: the boot is unknown when it could not be read at spawn. -/
structure WorkerReceipt where
  jobId : String
  bootId : Option String
deriving DecidableEq, Repr

inductive BootRequeueState where
  | intent
  | requeued
deriving DecidableEq, Repr

/-- Write-ahead record of one boot requeue, keyed by job id and dead boot. -/
structure BootRequeueMarker where
  jobId : String
  deadBootId : String
  currentBootId : String
  state : BootRequeueState
  recordedAt : Time
deriving DecidableEq, Repr

/-- A live worker process and the boot it was started under. -/
structure Worker where
  jobId : String
  boot : String
deriving DecidableEq, Repr

/-- The last durable write of the boot pass for the current job. -/
inductive PassStage where
  | marked
  | leasesReleased
  | receiptRemoved
  | requeued
deriving DecidableEq, Repr

/-- The boot pass over the running jobs it read at its start. -/
structure Pass where
  remaining : List Job
  current : Option (BootRequeueMarker × PassStage)

/-- Memory of the running supervisor; a restart loses it. -/
structure Daemon where
  bootId : Option String
  bootPassDone : Bool := false
  pass : Option Pass := none
  unspawned : List String := []

structure State where
  jobs : List Job := []
  receipts : String → Option WorkerReceipt := fun _ => none
  markers : List BootRequeueMarker := []
  terminations : List String := []
  leases : List String := []
  boot : String
  workers : List Worker := []
  daemon : Option Daemon := none
  /-- Every id that was ever submitted. -/
  known : List String := []
  /-- The jobs that boot passes have moved from running to pending, in order. -/
  moves : List String := []

/-! ## The boot pass -/

def bootRequeueReason : String := "interrupted: host reboot"

/-- The marker of a requeue that was started and not finished. -/
def intentMarker (jobId : String) (markers : List BootRequeueMarker) :
    Option BootRequeueMarker :=
  markers.find? fun marker => marker.state = .intent && marker.jobId = jobId

def jobWasRequeuedAfterAReboot (jobId : String) (markers : List BootRequeueMarker) : Bool :=
  markers.any fun marker => marker.jobId = jobId

/-- Replace the marker file of the same job and dead boot, or create it. -/
def writeMarker (marker : BootRequeueMarker) (markers : List BootRequeueMarker) :
    List BootRequeueMarker :=
  if markers.any fun old => old.jobId = marker.jobId && old.deadBootId = marker.deadBootId then
    markers.map fun old =>
      if old.jobId = marker.jobId && old.deadBootId = marker.deadBootId then marker else old
  else markers ++ [marker]

/-- The jobs and the returned jobs after a durable operation; a refused one
changes nothing. -/
def applyOp (op : QueueOp) (jobs : List Job) : List Job × List Job :=
  match perform op jobs with
  | .ok saved => (saved.stored, saved.answer)
  | .error _ => (jobs, [])

/-- Take the next running job: skip it, resume its marker, or write one. -/
def passBegin (now : Time) (currentBoot : String) (job : Job) (s : State) :
    State × Option BootRequeueMarker :=
  if job.cancelRequestedAt.isSome || job.id ∈ s.terminations then (s, none)
  else
    match intentMarker job.id s.markers with
    | some marker => (s, some marker)
    | none =>
      match (s.receipts job.id).bind WorkerReceipt.bootId with
      | none => (s, none)
      | some deadBoot =>
        if deadBoot = currentBoot then (s, none)
        else if jobWasRequeuedAfterAReboot job.id s.markers then (s, none)
        else
          let marker : BootRequeueMarker :=
            { jobId := job.id
              deadBootId := deadBoot
              currentBootId := currentBoot
              state := .intent
              recordedAt := now }
          ({ s with markers := writeMarker marker s.markers }, some marker)

/-- The next durable write for the job of a marker. `stamp` prints a time. -/
def passWrite (stamp : Time → String) (marker : BootRequeueMarker) (stage : PassStage)
    (s : State) : State × Option PassStage :=
  match stage with
  | .marked =>
    ({ s with leases := s.leases.filter (· ≠ marker.jobId) }, some .leasesReleased)
  | .leasesReleased =>
    ({ s with receipts := Function.update s.receipts marker.jobId none },
      some .receiptRemoved)
  | .receiptRemoved =>
    let reason := bootRequeueReason ++ ", requeued once at " ++ stamp marker.recordedAt
    let (jobs, moved) := applyOp (.requeueRunningAfterReboot marker.jobId reason) s.jobs
    ({ s with jobs, moves := s.moves ++ moved.map Job.id }, some .requeued)
  | .requeued =>
    ({ s with markers := writeMarker { marker with state := .requeued } s.markers }, none)

/-- One step of the boot pass of a supervisor that knows its boot. -/
def passStep (stamp : Time → String) (now : Time) (daemon : Daemon) (currentBoot : String)
    (pass : Pass) (s : State) : State :=
  match pass.current with
  | some (marker, stage) =>
    let (s, next) := passWrite stamp marker stage s
    let current := next.map fun stage => (marker, stage)
    { s with daemon := some { daemon with pass := some { pass with current } } }
  | none =>
    match pass.remaining with
    | [] => { s with daemon := some { daemon with pass := none, bootPassDone := true } }
    | job :: remaining =>
      let (s, marker) := passBegin now currentBoot job s
      let current := marker.map fun marker => (marker, PassStage.marked)
      { s with daemon := some { daemon with pass := some { remaining, current } } }

/-! ## The other steps -/

inductive Label where
  /-- A supervisor starts, and reads the host's boot id if it can. -/
  | startDaemon (bootReadable : Bool)
  /-- The supervisor stops or crashes; workers live on. -/
  | stopDaemon
  /-- The host reboots; every process ends and the boot id changes. -/
  | reboot (newBoot : String)
  | beginBootPass (enabled : Bool)
  | bootPass (now : Time)
  | startPending (now : Time) (jobIds : List String)
  | spawnWorker
  | spawnFailed (error : String) (deferUntil : Option Time)
  | retireWorker (now : Time) (jobId reason : String)
  | sweepReceipt (jobId : String)
  | beginTermination (jobId : String)
  | proveTreeDead (jobId : String)
  | finalizeDeferred (jobId : String)
  | acknowledgeCancelled (now : Time) (jobId : String)
  | workerUpdate (job : Job)
  | workerDefer (requeue : QueueDeferredRequeue)
  | workerExit (jobId : String)
  | client (op : QueueOp)

/-- The three operations that return running jobs to pending. -/
def isRequeue : QueueOp → Bool
  | .requeueDeferredRunningJobsForDrain _ => true
  | .requeueRunningAfterReboot _ _ => true
  | .finalizeDeferredDaemonWorker _ => true
  | _ => false

variable (s : State)

/-- What other processes do to the queue: they submit jobs with new ids, and
neither requeue the daemon's jobs nor write pending values over running ones. -/
def clientAllowed (op : QueueOp) : Bool :=
  !isRequeue op && writesStarted s.jobs op &&
    match submitted op with
    | some job => job.id ∉ s.known
    | none => true

def State.alive (jobId : String) : Bool :=
  s.workers.any fun worker => worker.jobId = jobId

/-- A running job whose cancellation waits for its worker to be stopped. -/
def State.cancelPending (jobId : String) : Bool :=
  (get jobId s.jobs).any fun job => job.status = .running && job.cancelRequestedAt.isSome

/-- The phases of a tick after the boot pass. -/
def State.idleDaemon : Option Daemon :=
  match s.daemon with
  | some daemon => if daemon.bootPassDone && daemon.pass.isNone then some daemon else none
  | none => none

def State.removeReceipt (jobId : String) : State :=
  { s with receipts := Function.update s.receipts jobId none }

/-- Remove the receipt and the termination transaction of a stopped worker. -/
def State.cleanupTermination (jobId : String) : State :=
  { s.removeReceipt jobId with terminations := s.terminations.filter (· ≠ jobId) }

/-- Acknowledge the cancellation of a job whose worker tree is dead. -/
def acknowledge (now : Time) (jobId : String) (s : State) : Option State :=
  match get jobId s.jobs with
  | none => none
  | some job =>
    if job.status ≠ .running ∨ job.cancelRequestedAt.isNone then none
    else
      match job.cancelWithReasonAndProof now job.cancellationReason job.cancellationProof with
      | .error _ => none
      | .ok cancelled => some { s with jobs := (applyOp (.update cancelled) s.jobs).1 }

/-- The effect of a label; `none` when it is not enabled. -/
def step (stamp : Time → String) (s : State) : Label → Option State
  | .startDaemon bootReadable =>
    match s.daemon with
    | some _ => none
    | none =>
      let bootId := if bootReadable then some s.boot else none
      some { s with daemon := some { bootId } }
  | .stopDaemon => if s.daemon.isSome then some { s with daemon := none } else none
  | .reboot newBoot =>
    if newBoot = s.boot then none
    else some { s with boot := newBoot, workers := [], daemon := none }
  | .beginBootPass enabled =>
    match s.daemon with
    | none => none
    | some daemon =>
      if daemon.bootPassDone || daemon.pass.isSome then none
      else if daemon.bootId.isNone || !enabled then
        some { s with daemon := some { daemon with bootPassDone := true } }
      else
        let running := s.jobs.filter fun job => job.status = .running
        some { s with daemon := some { daemon with pass := some ⟨running, none⟩ } }
  | .bootPass now =>
    match s.daemon with
    | none => none
    | some daemon =>
      match daemon.pass, daemon.bootId with
      | some pass, some currentBoot => some (passStep stamp now daemon currentBoot pass s)
      | _, _ => none
  | .startPending now jobIds =>
    s.idleDaemon.map fun daemon =>
      let (jobs, started) := applyOp (.startPendingJobsForDrain now jobIds) s.jobs
      let startedIds := started.map Job.id
      { s with
        jobs
        leases := s.leases ++ startedIds
        daemon := some { daemon with unspawned := daemon.unspawned ++ startedIds } }
  | .spawnWorker =>
    match s.idleDaemon with
    | none => none
    | some daemon =>
      match daemon.unspawned with
      | [] => none
      | jobId :: unspawned =>
        some { s with
          workers := s.workers ++ [⟨jobId, s.boot⟩]
          receipts := Function.update s.receipts jobId (some ⟨jobId, daemon.bootId⟩)
          daemon := some { daemon with unspawned } }
  | .spawnFailed error deferUntil =>
    match s.idleDaemon with
    | none => none
    | some daemon =>
      match daemon.unspawned with
      | [] => none
      | jobId :: unspawned =>
        let reason := "worker spawn failed before execution: " ++ error
        some { s with
          jobs := (applyOp (.requeueDeferredRunningJobsForDrain
            [⟨jobId, reason, deferUntil⟩]) s.jobs).1
          leases := s.leases.filter (· ≠ jobId)
          daemon := some { daemon with unspawned } }
  | .retireWorker now jobId reason =>
    if s.idleDaemon.isNone || s.alive jobId || s.cancelPending jobId then none
    else
      some (State.removeReceipt
        { s with jobs := (applyOp (.completeRunningUncertain now jobId reason) s.jobs).1 } jobId)
  | .sweepReceipt jobId =>
    if s.idleDaemon.isNone || s.alive jobId then none else some (s.removeReceipt jobId)
  | .beginTermination jobId =>
    if s.idleDaemon.isNone || (s.receipts jobId).isNone || !s.alive jobId ||
        jobId ∈ s.terminations then none
    else some { s with terminations := jobId :: s.terminations }
  | .proveTreeDead jobId =>
    if s.idleDaemon.isNone || jobId ∉ s.terminations then none
    else
      some { s with
        workers := s.workers.filter fun worker => worker.jobId ≠ jobId
        leases := s.leases.filter (· ≠ jobId) }
  | .finalizeDeferred jobId =>
    if s.idleDaemon.isNone || jobId ∉ s.terminations || s.alive jobId then none
    else
      let (jobs, finalized) := applyOp (.finalizeDeferredDaemonWorker jobId) s.jobs
      if finalized.isEmpty then some s
      else some (State.cleanupTermination { s with jobs } jobId)
  | .acknowledgeCancelled now jobId =>
    if s.idleDaemon.isNone || jobId ∉ s.terminations || s.alive jobId then none
    else (acknowledge now jobId s).map (State.cleanupTermination · jobId)
  | .workerUpdate job =>
    if s.alive job.id && job.status ≠ .pending then
      some { s with jobs := (applyOp (.update job) s.jobs).1 }
    else none
  | .workerDefer requeue =>
    if s.alive requeue.jobId then
      some { s with jobs := (applyOp (.requeueDeferredDaemonWorker requeue) s.jobs).1 }
    else none
  | .workerExit jobId =>
    some { s with workers := s.workers.filter fun worker => worker.jobId ≠ jobId }
  | .client op =>
    if clientAllowed s op then
      let known := (submitted op).toList.map Job.id ++ s.known
      some { s with jobs := (applyOp op s.jobs).1, known }
    else none

/-- The supervisor and its host, from an empty state directory. -/
def supervisor (stamp : Time → String) : Machine State Label where
  init s := ∃ boot, s = { boot }
  exec := step stamp

end Shipyard.Supervisor
