import Shipyard.Queue.Basic

/-!
# Drain, requeue and recovery operations of the queue

The operations that drain owners, daemon workers and the supervisor perform on
the stored rows, and the type of all durable operations with what each of them
saves and returns.
-/

namespace Shipyard.Queue

open Lib

/-! ## Recovery -/

def staleRecoveryResult (targetName : String) : TargetResult :=
  { TargetResult.new targetName "unknown" .error "unknown" with
    errorMessage := some staleRecoveryMessage }

/-- The fail-closed result of a target whose worker was lost. -/
def uncertainResult (reason targetName : String) : TargetResult :=
  { staleRecoveryResult targetName with
    errorMessage := some reason
    failureClass := some "UNCERTAIN" }

/-- Complete one job; a target without a result gets the stale recovery result. -/
def recoveredJob (now : Time) (job : Job) : Job :=
  { job with
    results := job.results.insertAllIfAbsent staleRecoveryResult job.targetNames
    status := .completed
    completedAt := some now }

def recoverRunningJobsMatching (now : Time) (selected : Job → Bool) (jobs : List Job) :
    List Job × List Job :=
  let recovers := fun job : Job => job.status = .running && selected job
  (jobs.map fun job => if recovers job then recoveredJob now job else job,
    (jobs.filter recovers).map (recoveredJob now))

def recoverStaleRunningJobsForDrain (now : Time) (jobs : List Job) : Saved (List Job) :=
  let (rows, recovered) := recoverRunningJobsMatching now (fun _ => true) jobs
  saveTrimmed rows recovered

def recoverSelectedRunningJobsForDrain (now : Time) (jobIds : List String) (jobs : List Job) :
    Saved (List Job) :=
  let (rows, recovered) := recoverRunningJobsMatching now (fun job => job.id ∈ jobIds) jobs
  saveTrimmed rows recovered

def trimTerminalJobsForDrain (jobs : List Job) : Saved (List String) :=
  { rows := jobs, stored := (trimTerminal jobs).1, answer := (trimTerminal jobs).2 }

/-! ## Cancellation and start by the drain owner -/

/-- The reason to cancel a pending job whose envelope the probe does not find. -/
def orphanReason (requestStatus : Job → Except String Bool) (job : Job) : Option String :=
  match requestStatus job with
  | .ok true => none
  | .ok false => some orphanRequestMessage
  | .error error => some (orphanRequestMessage ++ ": " ++ error)

def cancelOrphan (now : Time) (requestStatus : Job → Except String Bool) (job : Job) :
    Option Job :=
  if job.status ≠ .pending then none
  else
    match orphanReason requestStatus job with
    | none => none
    | some reason => (job.cancelWithReason now (some reason)).toOption

def cancelOrphanPendingJobsForDrain (now : Time) (requestStatus : Job → Except String Bool)
    (jobs : List Job) : Saved (List Job) :=
  saveTrimmed (jobs.map fun job => (cancelOrphan now requestStatus job).getD job)
    (jobs.filterMap (cancelOrphan now requestStatus))

def startPendingJobsForDrain (now : Time) (jobIds : List String) (jobs : List Job) :
    Saved (List Job) :=
  let (rows, started) := sweep id (fun jobId job => job.id = jobId && job.status = .pending)
    (fun _ job => job.start now) [] jobIds jobs
  save rows started

def cancelPendingJobsForDrain (now : Time) (cancellations : List QueuePendingCancellation)
    (jobs : List Job) : Saved (List Job) :=
  let (rows, cancelled) := sweep QueuePendingCancellation.jobId
    (fun cancellation job => job.id = cancellation.jobId && job.status = .pending)
    (fun cancellation job =>
      job.cancelWithReasonAndProof now (some cancellation.reason) cancellation.proof)
    [] cancellations jobs
  saveTrimmed rows cancelled

/-- `clock` stamps the cancellation; `now` and `staleAfter` decide staleness. -/
def cancelStaleRunningJobs (clock : Time) (jobIds : List String) (now staleAfter : Time)
    (reason : String) (jobs : List Job) : Saved (List Job) :=
  let (rows, cancelled) := sweep id
    (fun jobId job => job.id = jobId && job.isStaleRunning now staleAfter)
    (fun _ job => job.cancelWithReason clock (some reason)) [] jobIds jobs
  saveTrimmed rows cancelled

/-! ## Requeue -/

/-- A job with a cancellation request is returned but not requeued. -/
def requeueDeferred (requeue : QueueDeferredRequeue) (job : Job) :
    Except JobTransitionError Job :=
  if job.cancelRequestedAt.isSome then .ok job
  else job.deferForScheduler requeue.reason requeue.deferUntil

def requeueDeferredRunningJobsForDrain (requeues : List QueueDeferredRequeue)
    (jobs : List Job) : Saved (List Job) :=
  let (rows, requeued) := sweep QueueDeferredRequeue.jobId
    (fun requeue job => job.id = requeue.jobId && job.status = .running)
    requeueDeferred [] requeues jobs
  save rows requeued

/-- The edits below cannot fail; `Empty` is their error type. -/
def saveFirst (select : Job → Bool) (change : Job → Job) (jobs : List Job) :
    Saved (Option Job) :=
  match modifyFirst (ε := Empty) select (fun job => .ok (change job)) jobs with
  | .ok (some (rows, job)) => save rows (some job)
  | .ok none => save jobs none

def deferDaemonWorker (requeue : QueueDeferredRequeue) (job : Job) : Job :=
  if job.cancelRequestedAt.isNone then
    { job with
      schedulerDeferReason := some requeue.reason
      schedulerDeferCount := saturatingSucc job.schedulerDeferCount
      schedulerDeferUntil := requeue.deferUntil }
  else job

def requeueDeferredDaemonWorker (requeue : QueueDeferredRequeue) (jobs : List Job) :
    Saved (Option Job) :=
  saveFirst (fun job => job.id = requeue.jobId && job.status = .running)
    (deferDaemonWorker requeue) jobs

def requeuedAfterReboot (reason : String) (job : Job) : Job :=
  { job with
    schedulerDeferReason := some reason
    schedulerDeferCount := saturatingSucc job.schedulerDeferCount
    schedulerDeferUntil := none
    status := .pending }

def requeueRunningAfterReboot (jobId reason : String) (jobs : List Job) : Saved (Option Job) :=
  saveFirst
    (fun job => job.id = jobId && job.status = .running && job.cancelRequestedAt.isNone)
    (requeuedAfterReboot reason) jobs

def finalizeDeferredDaemonWorker (jobId : String) (jobs : List Job) : Saved (Option Job) :=
  saveFirst
    (fun job => job.id = jobId && job.status = .running && job.cancelRequestedAt.isNone &&
      job.schedulerDeferReason.isSome)
    (fun job => { job with status := .pending }) jobs

/-! ## Uncertain completion and audited cancellation -/

def withUncertainResults (reason : String) (job : Job) : Job :=
  { job with results := job.results.insertAll (uncertainResult reason) job.targetNames }

def completedUncertain (now : Time) (reason : String) (job : Job) : Job :=
  { withUncertainResults reason job with status := .completed, completedAt := some now }

/-- A job with a cancellation request is returned as it is; the error case of
the edit carries it out. -/
def completeRunningUncertain (now : Time) (jobId reason : String) (jobs : List Job) :
    Saved (Option Job) :=
  match modifyFirst (fun job => job.id = jobId && job.status = .running)
      (fun job =>
        if job.cancelRequestedAt.isSome then .error job
        else .ok (completedUncertain now reason job)) jobs with
  | .ok (some (rows, completed)) => saveTrimmed rows (some completed)
  | .ok none => save jobs none
  | .error job => save jobs (some job)

/-- The audited row must be the expected snapshot of a running job with a
cancellation request. -/
def cancelAudited (now : Time) (expected : Job) (reason : String) (proof : CancellationProof)
    (job : Job) : Except QueueError Job :=
  if job ≠ expected then
    .error (.stateConflict ("receiptless orphan " ++ expected.id ++ " changed after audit"))
  else if job.status ≠ .running ∨ job.cancelRequestedAt.isNone then
    .error (.stateConflict
      ("receiptless orphan " ++ expected.id ++ " is not a cancel-requested running job"))
  else orConflict (job.cancelWithReasonAndProof now (some reason) (some proof))

def finalizeAuditedReceiptlessCancel (now : Time) (expectedJobs : List Job) (expected : Job)
    (reason : String) (proof : CancellationProof) (jobs : List Job) :
    Except QueueError (Saved (Option Job)) :=
  if jobs ≠ expectedJobs then
    .error (.stateConflict "queue changed after receiptless orphan audit")
  else
    match modifyFirst (fun job => job.id = expected.id)
        (cancelAudited now expected reason proof) jobs with
    | .ok (some (rows, cancelled)) => .ok (save rows (some cancelled))
    | .ok none => .ok (save jobs none)
    | .error error => .error error

def reclassifyCompletedUncertain (expected : Job) (reason : String) (jobs : List Job) :
    Saved (Option Job) :=
  match modifyFirst (fun job => job.id = expected.id && job = expected)
      (fun job =>
        if job.status ≠ .completed then .error ()
        else .ok (withUncertainResults reason job)) jobs with
  | .ok (some (rows, completed)) => saveTrimmed rows (some completed)
  | .ok none => save jobs none
  | .error () => save jobs none

/-! ## All durable operations -/

/-- The durable operations with everything they take from their callers. -/
inductive QueueOp where
  | enqueue (store : Option QueueRequestStore) (now : Time) (job : Job)
  | enqueueRecoveryIfUnowned (store : Option QueueRequestStore) (job : Job)
      (ownershipCutoff : Time)
  | update (job : Job)
  | requestCancel (now : Time) (jobId : String) (reason : Option String)
      (proof : Option CancellationProof)
  | recoverStaleRunningJobsForDrain (now : Time)
  | recoverSelectedRunningJobsForDrain (now : Time) (jobIds : List String)
  | trimTerminalJobsForDrain
  | cancelOrphanPendingJobsForDrain (now : Time) (requestStatus : Job → Except String Bool)
  | startPendingJobsForDrain (now : Time) (jobIds : List String)
  | cancelPendingJobsForDrain (now : Time) (cancellations : List QueuePendingCancellation)
  | cancelStaleRunningJobs (clock : Time) (jobIds : List String) (now staleAfter : Time)
      (reason : String)
  | requeueDeferredRunningJobsForDrain (requeues : List QueueDeferredRequeue)
  | requeueDeferredDaemonWorker (requeue : QueueDeferredRequeue)
  | requeueRunningAfterReboot (jobId reason : String)
  | finalizeDeferredDaemonWorker (jobId : String)
  | completeRunningUncertain (now : Time) (jobId reason : String)
  | finalizeAuditedReceiptlessCancel (now : Time) (expectedJobs : List Job) (expected : Job)
      (reason : String) (proof : CancellationProof)
  | reclassifyCompletedUncertain (expected : Job) (reason : String)

/-- Forget everything of an answer but the job snapshots it returns. -/
def Saved.returning {α : Type} (saved : Saved α) (jobs : α → List Job) : Saved (List Job) :=
  { rows := saved.rows, stored := saved.stored, answer := jobs saved.answer }

/-- Perform one durable operation; the answer is the list of returned jobs. -/
def perform (op : QueueOp) (jobs : List Job) : Except QueueError (Saved (List Job)) :=
  match op with
  | .enqueue store now job => .ok ((enqueue store now job jobs).returning fun job => [job])
  | .enqueueRecoveryIfUnowned store job cutoff =>
    .ok ((enqueueRecoveryIfUnowned store job cutoff jobs).returning fun _ => [])
  | .update job => (update job jobs).map (Saved.returning · fun _ => [])
  | .requestCancel now jobId reason proof =>
    (requestCancelWithProof now jobId reason proof jobs).map (Saved.returning · Option.toList)
  | .recoverStaleRunningJobsForDrain now => .ok (recoverStaleRunningJobsForDrain now jobs)
  | .recoverSelectedRunningJobsForDrain now jobIds =>
    .ok (recoverSelectedRunningJobsForDrain now jobIds jobs)
  | .trimTerminalJobsForDrain => .ok ((trimTerminalJobsForDrain jobs).returning fun _ => [])
  | .cancelOrphanPendingJobsForDrain now requestStatus =>
    .ok (cancelOrphanPendingJobsForDrain now requestStatus jobs)
  | .startPendingJobsForDrain now jobIds => .ok (startPendingJobsForDrain now jobIds jobs)
  | .cancelPendingJobsForDrain now cancellations =>
    .ok (cancelPendingJobsForDrain now cancellations jobs)
  | .cancelStaleRunningJobs clock jobIds now staleAfter reason =>
    .ok (cancelStaleRunningJobs clock jobIds now staleAfter reason jobs)
  | .requeueDeferredRunningJobsForDrain requeues =>
    .ok (requeueDeferredRunningJobsForDrain requeues jobs)
  | .requeueDeferredDaemonWorker requeue =>
    .ok ((requeueDeferredDaemonWorker requeue jobs).returning Option.toList)
  | .requeueRunningAfterReboot jobId reason =>
    .ok ((requeueRunningAfterReboot jobId reason jobs).returning Option.toList)
  | .finalizeDeferredDaemonWorker jobId =>
    .ok ((finalizeDeferredDaemonWorker jobId jobs).returning Option.toList)
  | .completeRunningUncertain now jobId reason =>
    .ok ((completeRunningUncertain now jobId reason jobs).returning Option.toList)
  | .finalizeAuditedReceiptlessCancel now expectedJobs expected reason proof =>
    (finalizeAuditedReceiptlessCancel now expectedJobs expected reason proof jobs).map
      (Saved.returning · Option.toList)
  | .reclassifyCompletedUncertain expected reason =>
    .ok ((reclassifyCompletedUncertain expected reason jobs).returning Option.toList)

end Shipyard.Queue
