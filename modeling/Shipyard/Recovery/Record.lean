import Shipyard.Lib.Checks
import Mathlib.Data.String.Basic

/-!
# Recovery requests, receipts and their checks

The durable data of `recovery_worker.rs`: a request names one exact head of one
pull request, and a receipt records what became of it. The checks are those of
`recovery_worker/validation.rs`; times are nanoseconds.
-/

namespace Shipyard.Recovery

open Lib

inductive RecoveryStatus where
  | pending
  | running
  | triaged
  | escalated
  | superseded
  | failed
deriving DecidableEq, Repr

def RecoveryStatus.isTerminal : RecoveryStatus → Bool
  | .triaged | .escalated | .superseded | .failed => true
  | .pending | .running => false

inductive RecoveryVerdict where
  | boundedRepair
  | escalate
  | noChange
deriving DecidableEq, Repr

inductive RecoveryFailureFact where
  | mergeState (state : String)
  | requiredCheck (context : String) (appId : Option Nat) (conclusion : String)
      (runId : Option Nat)
deriving DecidableEq, Repr

structure RecoveryRequiredCheck where
  context : String
  appId : Option Nat
deriving DecidableEq, Repr

/-- What the head index is keyed by. -/
structure HeadKey where
  repo : String
  pr : Nat
  headSha : String
deriving DecidableEq, Repr

structure RecoveryRequest where
  id : String
  repo : String
  pr : Nat
  baseRef : String
  headSha : String
  mergeQueue : Bool
  optOutLabel : String
  failureFingerprint : String
  failureSummary : String
  requiredChecks : List RecoveryRequiredCheck
  failureFacts : List RecoveryFailureFact
  policySignature : String
  configSignature : String
  createdAt : Int
deriving DecidableEq, Repr

def RecoveryRequest.head (request : RecoveryRequest) : HeadKey :=
  ⟨request.repo, request.pr, request.headSha⟩

structure RecoveryOutput where
  verdict : RecoveryVerdict
  evidence : List String
  candidatePaths : List String
  focusedTests : List String
deriving DecidableEq, Repr

structure RecoveryReceipt where
  requestId : String
  status : RecoveryStatus
  attempt : Nat
  maxAttempts : Nat
  configSignature : String
  workerGeneration : Option String := none
  startedAt : Option Int := none
  completedAt : Option Int := none
  deferredAt : Option Int := none
  updatedAt : Int
  supersededBy : Option String := none
  detail : Option String := none
  output : Option RecoveryOutput := none
deriving DecidableEq, Repr

structure RecoveryRecord where
  request : RecoveryRequest
  receipt : RecoveryReceipt
deriving DecidableEq, Repr

inductive RecoveryError where
  | invalidRequest (message : String)
  | invalidOutput (message : String)
  | identityCollision (id : String)
  | configDrift (expected observed : String)
  | invalidTransition (id : String) (status : RecoveryStatus) (requested : String)
  | attemptsExhausted (id : String) (maxAttempts : Nat)
  | notFound (id : String)
  | claimExists (id : String)
deriving DecidableEq, Repr

/-- The policy of one store. The rules for the text of a request's fields and for
its identifier, a hash of the identity fields, are a parameter. -/
structure RecoveryStore where
  validateRequest : RecoveryRequest → Except RecoveryError Unit
  maxAttempts : Nat := 1
  positive : 0 < maxAttempts := by decide

def RecoveryOutput.validate (output : RecoveryOutput) : Except RecoveryError Unit :=
  if !output.evidence.isEmpty || !output.candidatePaths.isEmpty
      || !output.focusedTests.isEmpty then
    .error (.invalidOutput
      "phase-1 classification cannot return evidence, candidate_paths, or focused_tests")
  else
    match output.verdict with
    | .boundedRepair =>
      .error (.invalidOutput
        "phase-1 classification has no repair authority; bounded_repair is forbidden")
    | .escalate => .ok ()
    | .noChange =>
      .error (.invalidOutput ("phase-1 routing has no diagnostic evidence; " ++
        "no_change is forbidden and every result must escalate"))

def validatePendingReceipt (receipt : RecoveryReceipt) : Except RecoveryError Unit :=
  if receipt.attempt ≠ 0 || receipt.workerGeneration.isSome || receipt.startedAt.isSome
      || receipt.completedAt.isSome || receipt.output.isSome
      || receipt.deferredAt.isSome != receipt.detail.isSome
      || receipt.deferredAt.any (· ≠ receipt.updatedAt) then
    .error (.invalidRequest "pending receipt contains worker or terminal state")
  else .ok ()

/-- The part of the receipt's check that depends on its status. -/
def validateStatus (receipt : RecoveryReceipt) : Except RecoveryError Unit :=
  match receipt.status with
  | .pending => validatePendingReceipt receipt
  | .running =>
    if receipt.attempt = 0 || receipt.workerGeneration.isNone || receipt.startedAt.isNone
        || receipt.completedAt.isSome || receipt.deferredAt.isSome
        || receipt.output.isSome then
      .error (.invalidRequest "running receipt lacks exact worker state")
    else .ok ()
  | .triaged | .escalated =>
    if receipt.completedAt.isNone || receipt.deferredAt.isSome || receipt.output.isNone then
      .error (.invalidRequest "completed recovery receipt lacks structured output")
    else .ok ()
  | .superseded =>
    if receipt.completedAt.isNone || receipt.deferredAt.isSome || receipt.detail.isNone
        || receipt.output.isSome then
      .error (.invalidRequest "superseded receipt lacks successor or detail")
    else .ok ()
  | .failed =>
    if receipt.completedAt.isNone || receipt.deferredAt.isSome || receipt.detail.isNone
        || receipt.output.isSome then
      .error (.invalidRequest "failed receipt lacks terminal detail")
    else .ok ()

def RecoveryStore.validateRecord (store : RecoveryStore) (record : RecoveryRecord) :
    Except RecoveryError Unit := do
  store.validateRequest record.request
  if record.receipt.requestId ≠ record.request.id then
    throw (.identityCollision record.request.id)
  else if record.receipt.configSignature ≠ record.request.configSignature then
    throw (.configDrift record.request.configSignature record.receipt.configSignature)
  else if record.receipt.maxAttempts = 0
      ∨ record.receipt.maxAttempts < record.receipt.attempt then
    throw (.invalidRequest "receipt attempt budget is invalid")
  else
    (record.receipt.output.map (·.validate)).getD (.ok ())
    validateStatus record.receipt

def sameRecoveryIdentity (left right : RecoveryRequest) : Bool :=
  left.repo = right.repo && left.pr = right.pr && left.baseRef = right.baseRef
    && left.headSha = right.headSha && left.mergeQueue = right.mergeQueue
    && left.optOutLabel = right.optOutLabel
    && left.failureFingerprint = right.failureFingerprint
    && left.failureSummary = right.failureSummary
    && left.requiredChecks = right.requiredChecks && left.failureFacts = right.failureFacts
    && left.policySignature = right.policySignature

def ensureConfig (record : RecoveryRecord) (observed : String) : Except RecoveryError Unit :=
  if record.request.configSignature = observed ∧ record.receipt.configSignature = observed then
    .ok ()
  else .error (.configDrift record.request.configSignature observed)

/-! ## What the checks give -/

theorem sameRecoveryIdentity_head {left right : RecoveryRequest}
    (hsame : sameRecoveryIdentity left right = true) : left.head = right.head := by
  simp only [sameRecoveryIdentity, Bool.and_eq_true, decide_eq_true_eq] at hsame
  simp only [RecoveryRequest.head, HeadKey.mk.injEq]
  tauto

/-- In every stored receipt, pending means that no attempt was made, and
running that one was. -/
structure RecoveryReceipt.Sound (receipt : RecoveryReceipt) : Prop where
  pending : receipt.status = .pending → receipt.attempt = 0
  running : receipt.status = .running → 0 < receipt.attempt

theorem sound_of_validateStatus {receipt : RecoveryReceipt}
    (hvalid : validateStatus receipt = .ok ()) : receipt.Sound := by
  constructor <;> intro hstatus <;> rw [validateStatus, hstatus] at hvalid
  · simp only [validatePendingReceipt] at hvalid
    split at hvalid
    · cases hvalid
    next hnot =>
      simp only [Bool.or_eq_true, decide_eq_true_eq, not_or] at hnot
      tauto
  · dsimp only at hvalid
    split at hvalid
    · cases hvalid
    next hnot =>
      simp only [Bool.or_eq_true, decide_eq_true_eq, not_or] at hnot
      exact Nat.pos_of_ne_zero (by tauto)

theorem RecoveryStore.validateRecord_sound {store : RecoveryStore} {record : RecoveryRecord}
    (hvalid : store.validateRecord record = .ok ()) : record.receipt.Sound := by
  apply sound_of_validateStatus
  unfold validateRecord at hvalid
  obtain ⟨_, _, hvalid⟩ := Except.bind_eq_ok.mp hvalid
  split_ifs at hvalid
  obtain ⟨_, _, hvalid⟩ := Except.bind_eq_ok.mp hvalid
  exact hvalid

end Shipyard.Recovery
