import Mathlib.Data.List.Dedup
import Shipyard.Lib.Rows
import Shipyard.Request

/-!
# The durable job queue

The locked operations of `queue.rs`. An operation reads all rows, edits them,
and saves them in one replacement of the queue file; most operations end by
trimming old terminal rows. An operation that fails saves nothing. What is kept
besides the saved rows is the list the operation held just before trimming.
-/

namespace Shipyard.Queue

open Lib

/-- Number of terminal jobs that trimming keeps. -/
def keepCompleted : Nat := 25

def staleRecoveryMessage : String := "Process died mid-validation; job recovered on startup"

def orphanRequestMessage : String := "Queued request envelope missing or unreadable"

def supersededMessage : String :=
  "Superseded by a newer queued job for the same branch, targets, and mode."

/-- The one queue error that does not come from the file system. -/
inductive QueueError where
  | stateConflict (reason : String)
deriving DecidableEq, Repr

/-- A drain-owned request to cancel one pending job. -/
structure QueuePendingCancellation where
  jobId : String
  reason : String
  proof : Option CancellationProof := none
deriving DecidableEq, Repr

/-- A request to return one deferred running job to pending. -/
structure QueueDeferredRequeue where
  jobId : String
  reason : String
  deferUntil : Option Time := none
deriving DecidableEq, Repr

inductive RecoveryEnqueue where
  | inserted
  | existing
  | ownedBy (owner : String)
deriving DecidableEq, Repr

/-! ## Trimming -/

def completedSortTime (job : Job) : Time := job.completedAt.getD job.createdAt

/-- Newest first; jobs of one time keep their order. -/
def sortRecentCompleted (jobs : List Job) : List Job :=
  jobs.insertionSort fun left right => completedSortTime right ≤ completedSortTime left

/-- Keep every job that is not terminal and the newest terminal jobs. Returns
the kept rows and the ids that are gone. -/
def trimTerminal (jobs : List Job) : List Job × List String :=
  let terminal := jobs.filter fun job => isTerminalJob job.status
  let completed := (sortRecentCompleted terminal).take keepCompleted
  let retained := jobs.filter (fun job => !isTerminalJob job.status) ++ completed
  let removed := (terminal.map Job.id).filter fun id => id ∉ completed.map Job.id
  (retained, removed.dedup.insertionSort (· ≤ ·))

/-- What a locked operation leaves: its rows before trimming, the saved rows,
and its answer. -/
structure Saved (α : Type) where
  rows : List Job
  stored : List Job
  answer : α

def save {α : Type} (rows : List Job) (answer : α) : Saved α := ⟨rows, rows, answer⟩

def saveTrimmed {α : Type} (rows : List Job) (answer : α) : Saved α :=
  ⟨rows, (trimTerminal rows).1, answer⟩

/-! ## Submission -/

def sameWorkloadScope (left right : Job) : Bool :=
  match left.workloadScope, right.workloadScope with
  | some left, some right => left = right
  | none, none => true
  | some _, none => false
  | none, some _ => false

/-- The envelope describes this job; priority is not part of the identity. -/
def recoveryEnvelopeMatchesJob (envelope : QueuedExecutionEnvelope) (job : Job) : Bool :=
  let requestTargets := match envelope.request with
    | .run request => request.targets
    | .ship request => request.targets
  envelope.jobId = job.id && envelope.resourcePlan.targets = job.targetNames &&
    requestTargets = job.targetNames &&
    match envelope.kind, envelope.request with
    | .run, .run request =>
      (job.kind = none || job.kind = some .run) && request.sha = job.sha &&
        request.branch = job.branch && request.mode = job.mode
    | .ship, .ship request =>
      (job.kind = none || job.kind = some .ship) && request.sha = job.sha &&
        request.branch = job.branch && request.mode = job.mode
    | _, _ => false

/-- Fill in the missing workload scope of one row from its envelope. -/
def backfillWorkloadScope (store : Option QueueRequestStore) (job : Job) : Job :=
  match store with
  | none => job
  | some store =>
    if job.workloadScope.isSome then job
    else
      match store.load job.id with
      | .ok (some envelope) =>
        if recoveryEnvelopeMatchesJob envelope job then
          { job with workloadScope := some (envelope.workloadScope store) }
        else job
      | _ => job

def backfillPendingWorkloadScopes (store : Option QueueRequestStore) (jobs : List Job) :
    List Job :=
  jobs.map fun job => if job.status = .pending then backfillWorkloadScope store job else job

def backfillRecoveryOwnerScopes (store : Option QueueRequestStore) (jobs : List Job) :
    List Job :=
  jobs.map (backfillWorkloadScope store)

/-- A pending row that the submitted job makes obsolete is cancelled. -/
def cancelSuperseded (now : Time) (job queued : Job) : Job :=
  if sameWorkloadScope queued job && queued.branch = job.branch && queued.status = .pending &&
      queued.targetNames = job.targetNames && queued.mode = job.mode then
    match queued.cancelWithReason now (some supersededMessage) with
    | .ok cancelled => cancelled
    | .error _ => queued
  else queued

def cancelSupersededPending (now : Time) (job : Job) (jobs : List Job) : List Job :=
  jobs.map (cancelSuperseded now job)

def enqueue (store : Option QueueRequestStore) (now : Time) (job : Job) (jobs : List Job) :
    Saved Job :=
  save (cancelSupersededPending now job (backfillPendingWorkloadScopes store jobs) ++ [job]) job

/-- A job that may still own the workload of a recovery job. -/
def ownsRecovery (job : Job) (ownershipCutoff : Time) (queued : Job) : Bool :=
  (queued.status = .pending || queued.status = .running || ownershipCutoff < queued.createdAt) &&
    (sameWorkloadScope queued job || queued.workloadScope.isNone)

def enqueueRecoveryIfUnowned (store : Option QueueRequestStore) (job : Job)
    (ownershipCutoff : Time) (jobs : List Job) : Saved RecoveryEnqueue :=
  let rows := backfillRecoveryOwnerScopes store jobs
  if rows.any fun queued => queued.id = job.id then save rows .existing
  else
    match rows.find? (ownsRecovery job ownershipCutoff) with
    | some owner => save rows (.ownedBy owner.id)
    | none => save (rows ++ [job]) .inserted

/-! ## Update, cancellation and reading -/

/-- `Queue::update` on the stored row: a stale writer may not overwrite a newer
cancellation request or a terminal status. -/
def replaceQueued (job queued : Job) : Except QueueError Job :=
  if queued.status = .running ∧ queued.cancelRequestedAt.isSome ∧
      (job.cancelRequestedAt ≠ queued.cancelRequestedAt ∨
        job.cancellationReason ≠ queued.cancellationReason ∨
        job.cancellationProof ≠ queued.cancellationProof) then
    .error (.stateConflict ("job " ++ job.id ++ " has a newer cancellation request"))
  else if isTerminalJob queued.status ∧ queued.status ≠ job.status then
    .error (.stateConflict
      ("job " ++ job.id ++ " is already terminal as " ++ queued.status.debug))
  else .ok job

def update (job : Job) (jobs : List Job) : Except QueueError (Saved Unit) :=
  match modifyFirst (fun queued => queued.id = job.id) (replaceQueued job) jobs with
  | .ok (some (rows, _)) => .ok (saveTrimmed rows ())
  | .ok none =>
    .error (.stateConflict ("job " ++ job.id ++ " is not present in the durable queue"))
  | .error error => .error error

/-- A refused job transition is a state conflict with its message. -/
def orConflict (transition : Except JobTransitionError Job) : Except QueueError Job :=
  match transition with
  | .ok job => .ok job
  | .error error => .error (.stateConflict error.message)

def requestCancelWithProof (now : Time) (jobId : String) (reason : Option String)
    (proof : Option CancellationProof) (jobs : List Job) :
    Except QueueError (Saved (Option Job)) :=
  match modifyFirst (fun job => job.id = jobId)
      (fun job => orConflict (job.requestCancelWithReasonAndProof now reason proof)) jobs with
  | .ok (some (rows, requested)) => .ok (saveTrimmed rows (some requested))
  | .ok none => .ok (save jobs none)
  | .error error => .error error

/-- Look up a job by id. -/
def get (jobId : String) (jobs : List Job) : Option Job := jobs.find? fun job => job.id = jobId

/-- Higher priority first, then older first. -/
def pendingBefore (left right : Job) : Prop :=
  right.priority.value < left.priority.value ∨
    (right.priority.value = left.priority.value ∧ left.createdAt ≤ right.createdAt)

instance : DecidableRel pendingBefore := fun _ _ => inferInstanceAs (Decidable (_ ∨ _))

def getPending (jobs : List Job) : List Job :=
  (jobs.filter fun job => job.status = .pending).insertionSort pendingBefore

end Shipyard.Queue
