import Shipyard.Lib.SortedMap

/-!
# Jobs and target results

The domain types of `job.rs`: a validation job over one or more targets, its
lifecycle status, and the transition methods. Each method returns a changed
copy, or the reason why the job's status forbids it. The clock is an explicit
argument.
-/

namespace Shipyard

open Lib

/-- An instant, and a duration: a count of the clock's smallest unit. -/
abbrev Time := Int

/-- The largest value of the counters that the source keeps in 32 bits. -/
def u32Max : Nat := 2 ^ 32 - 1

/-- `u32::saturating_add(1)`. -/
def saturatingSucc (n : Nat) : Nat := min (n + 1) u32Max

inductive Priority where
  | low
  | normal
  | high
deriving DecidableEq, Repr

/-- Numeric sort value of a priority. -/
def Priority.value : Priority → Int
  | .low => 10
  | .normal => 50
  | .high => 100

inductive ValidationMode where
  | full
  | smoke
deriving DecidableEq, Repr

inductive JobKind where
  | run
  | ship
deriving DecidableEq, Repr

inductive JobStatus where
  | pending
  | running
  | completed
  | cancelled
deriving DecidableEq, Repr

/-- The `Debug` text of a job status, as error messages print it. -/
def JobStatus.debug : JobStatus → String
  | .pending => "Pending"
  | .running => "Running"
  | .completed => "Completed"
  | .cancelled => "Cancelled"

inductive CancellationCause where
  | alreadyMerged
deriving DecidableEq, Repr

/-- Authenticated identity bound to a typed cancellation cause. -/
structure CancellationProof where
  cause : CancellationCause
  repository : String
  pullRequest : Nat
  headSha : String
deriving DecidableEq, Repr

inductive TargetStatus where
  | pending
  | running
  | pass
  | fail
  | error
  | unreachable
  | cancelled
deriving DecidableEq, Repr

def TargetStatus.isTerminal : TargetStatus → Bool
  | .pass | .fail | .error | .unreachable | .cancelled => true
  | .pending | .running => false

/-- Outcome of validating one target. -/
structure TargetResult where
  targetName : String
  platform : String
  status : TargetStatus
  backend : String
  startedAt : Option Time := none
  completedAt : Option Time := none
  phase : Option String := none
  lastHeartbeatAt : Option Time := none
  primaryBackend : Option String := none
  provider : Option String := none
  errorMessage : Option String := none
  failureClass : Option String := none
  cloudRunId : Option Nat := none
  schedulerDeferReason : Option String := none
deriving DecidableEq

/-- A result with its required fields. -/
def TargetResult.new (targetName platform : String) (status : TargetStatus)
    (backend : String) : TargetResult :=
  { targetName, platform, status, backend }

variable (result : TargetResult)

def TargetResult.passed : Bool := result.status = .pass

def TargetResult.isTerminal : Bool := result.status.isTerminal

/-- A validation job across one or more targets. -/
structure Job where
  id : String
  sha : String
  branch : String
  mode : ValidationMode
  kind : Option JobKind := none
  workloadScope : Option String := none
  targetNames : List String
  priority : Priority
  status : JobStatus
  createdAt : Time
  startedAt : Option Time := none
  completedAt : Option Time := none
  cancellationReason : Option String := none
  cancellationProof : Option CancellationProof := none
  cancelRequestedAt : Option Time := none
  schedulerDeferReason : Option String := none
  schedulerDeferCount : Nat := 0
  schedulerDeferUntil : Option Time := none
  resourceClaims : List String := []
  results : SortedMap String TargetResult := .empty
deriving DecidableEq

/-- Why a transition is refused. -/
inductive JobTransitionError where
  | invalidStart (status : JobStatus)
  | invalidComplete (status : JobStatus)
  | invalidCancel (status : JobStatus)
  | conflictingCancellationProof
  | invalidDefer (status : JobStatus)
deriving DecidableEq, Repr

/-- The message of a refused transition. -/
def JobTransitionError.message : JobTransitionError → String
  | .invalidStart status => "cannot start job in state " ++ status.debug
  | .invalidComplete status => "cannot complete job in state " ++ status.debug
  | .invalidCancel status => "cannot cancel job in state " ++ status.debug
  | .conflictingCancellationProof => "cancellation proof contradicts existing authority"
  | .invalidDefer status => "cannot defer job in state " ++ status.debug

/-- The two statuses a job cannot leave. -/
def isTerminalJob : JobStatus → Bool
  | .completed | .cancelled => true
  | .pending | .running => false

namespace Job

/-- A new pending job. The identifier is a digest of the other arguments. -/
def create (id sha branch : String) (targetNames : List String) (mode : ValidationMode)
    (priority : Priority) (now : Time) : Job :=
  { id, sha, branch, mode, targetNames, priority, status := .pending, createdAt := now }

/-- Pending to running. -/
def start (now : Time) (job : Job) : Except JobTransitionError Job :=
  if job.status ≠ .pending then .error (.invalidStart job.status)
  else
    .ok { job with
      status := .running
      startedAt := some now
      schedulerDeferReason := none
      schedulerDeferUntil := none }

/-- Running to completed. -/
def complete (now : Time) (job : Job) : Except JobTransitionError Job :=
  if job.status ≠ .running then .error (.invalidComplete job.status)
  else .ok { job with status := .completed, completedAt := some now }

/-- Cancel a job that is not terminal. The given proof replaces the stored one. -/
def cancelWithReasonAndProof (now : Time) (reason : Option String)
    (proof : Option CancellationProof) (job : Job) : Except JobTransitionError Job :=
  if isTerminalJob job.status then .error (.invalidCancel job.status)
  else
    .ok { job with
      status := .cancelled
      completedAt := some now
      cancellationReason := reason
      cancellationProof := proof
      cancelRequestedAt := job.cancelRequestedAt.or (some now) }

def cancelWithReason (now : Time) (reason : Option String) (job : Job) :
    Except JobTransitionError Job :=
  job.cancelWithReasonAndProof now reason none

/-- The stored proof and the offered one are both present and differ. -/
def proofConflict (existing offered : Option CancellationProof) : Bool :=
  match existing, offered with
  | some existing, some offered => existing ≠ offered
  | _, _ => false

/-- Ask for cancellation. A pending job is cancelled at once; a running job
stays running and records the first request's time, reason and proof. -/
def requestCancelWithReasonAndProof (now : Time) (reason : Option String)
    (proof : Option CancellationProof) (job : Job) : Except JobTransitionError Job :=
  if job.status = .pending then job.cancelWithReasonAndProof now reason proof
  else if job.status ≠ .running then .error (.invalidCancel job.status)
  else if proofConflict job.cancellationProof proof then .error .conflictingCancellationProof
  else
    .ok { job with
      cancellationReason :=
        if job.cancellationProof.isNone && proof.isSome then reason.or job.cancellationReason
        else job.cancellationReason.or reason
      cancellationProof := proof.or job.cancellationProof
      cancelRequestedAt := job.cancelRequestedAt.or (some now) }

def withPriority (priority : Priority) (job : Job) : Job := { job with priority }

def withResult (result : TargetResult) (job : Job) : Job :=
  { job with results := job.results.insert result.targetName result }

/-- Running back to pending after a transient scheduler deferral. Results that
are not terminal are dropped so that their targets run again. -/
def deferForScheduler (reason : String) (deferUntil : Option Time) (job : Job) :
    Except JobTransitionError Job :=
  if job.status ≠ .running then .error (.invalidDefer job.status)
  else
    .ok { job with
      status := .pending
      startedAt := none
      completedAt := none
      schedulerDeferReason := some reason
      schedulerDeferCount := saturatingSucc job.schedulerDeferCount
      schedulerDeferUntil := deferUntil
      results := job.results.retain fun _ result => result.isTerminal }

/-- The newest of the target heartbeats and the start time. -/
def lastLivenessAt (job : Job) : Option Time :=
  ((job.results.values.filterMap TargetResult.lastHeartbeatAt) ++ job.startedAt.toList).max?

/-- A running job whose freshest sign of life is at least `staleAfter` old. -/
def isStaleRunning (now staleAfter : Time) (job : Job) : Bool :=
  if job.status ≠ .running ∨ staleAfter ≤ 0 then false
  else
    match job.lastLivenessAt with
    | some anchor => staleAfter ≤ now - anchor
    | none => false

/-! ## What a successful transition returns -/

variable {job next : Job} {now : Time} {reason : Option String}
  {proof : Option CancellationProof}

theorem guarded_eq_ok {refused : Prop} [Decidable refused] {error : JobTransitionError} :
    (if refused then Except.error error else Except.ok job) = .ok next ↔
      ¬refused ∧ next = job := by
  split
  next hrefused => simp [hrefused]
  next hrefused => simp [hrefused, eq_comm]

theorem start_eq_ok : job.start now = .ok next ↔ job.status = .pending ∧
    next = { job with
      status := .running
      startedAt := some now
      schedulerDeferReason := none
      schedulerDeferUntil := none } := by
  rw [start, guarded_eq_ok, not_not]

theorem complete_eq_ok : job.complete now = .ok next ↔ job.status = .running ∧
    next = { job with status := .completed, completedAt := some now } := by
  rw [complete, guarded_eq_ok, not_not]

theorem cancelWithReasonAndProof_eq_ok :
    job.cancelWithReasonAndProof now reason proof = .ok next ↔
      isTerminalJob job.status = false ∧
        next = { job with
          status := .cancelled
          completedAt := some now
          cancellationReason := reason
          cancellationProof := proof
          cancelRequestedAt := job.cancelRequestedAt.or (some now) } := by
  rw [cancelWithReasonAndProof, guarded_eq_ok, Bool.not_eq_true]

theorem deferForScheduler_eq_ok {reason : String} {deferUntil : Option Time} :
    job.deferForScheduler reason deferUntil = .ok next ↔ job.status = .running ∧
      next = { job with
        status := .pending
        startedAt := none
        completedAt := none
        schedulerDeferReason := some reason
        schedulerDeferCount := saturatingSucc job.schedulerDeferCount
        schedulerDeferUntil := deferUntil
        results := job.results.retain fun _ result => result.isTerminal } := by
  rw [deferForScheduler, guarded_eq_ok, not_not]

/-- A granted request cancels a pending job, or marks a running one without
touching a time or a proof that is already recorded. -/
theorem requestCancel_eq_ok
    (hrequest : job.requestCancelWithReasonAndProof now reason proof = .ok next) :
    (job.status = .pending ∧ job.cancelWithReasonAndProof now reason proof = .ok next) ∨
      (job.status = .running ∧ proofConflict job.cancellationProof proof = false ∧
        ∃ reason', next = { job with
          cancellationReason := reason'
          cancellationProof := proof.or job.cancellationProof
          cancelRequestedAt := job.cancelRequestedAt.or (some now) }) := by
  unfold requestCancelWithReasonAndProof at hrequest
  split at hrequest
  next hpending => exact .inl ⟨hpending, hrequest⟩
  · split at hrequest
    · cases hrequest
    next hrunning =>
      split at hrequest
      · cases hrequest
      next hconflict =>
        have hnext := (Except.ok.inj hrequest).symm
        exact .inr ⟨not_not.mp hrunning, Bool.eq_false_iff.mpr hconflict, _, hnext⟩

/-- A proof that does not conflict leaves a recorded proof as it is. -/
theorem or_of_not_proofConflict {existing offered : Option CancellationProof}
    {recorded : CancellationProof} (hconflict : proofConflict existing offered = false)
    (hexisting : existing = some recorded) : offered.or existing = some recorded := by
  subst hexisting
  cases offered with
  | none => rfl
  | some offered =>
    simp only [proofConflict, ne_eq, decide_not, Bool.not_eq_false', decide_eq_true_eq]
      at hconflict
    rw [hconflict, Option.some_or]

end Job

end Shipyard
