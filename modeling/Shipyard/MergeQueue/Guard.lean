import Shipyard.Lib.Machine
import Shipyard.MergeQueue.Audit

/-!
# Mutation guards over the rotated audit

Processes acquire a guard for a pull request, record approval evidence, finish
or drop the guard, resolve or supersede uncertain mutations, and die at any
point. The control lock has one holder at a time; its append to the audit runs
one file operation at a time. The whole history of appended records is kept
beside the retained files.
-/

namespace Shipyard.MergeQueue

open Lib

/-- The fields of a mutation guard that its audit records carry. -/
structure MutationGuard where
  correlationId : String
  key : PullRequestKey
  head : String
  action : String
  approvalCommentId : Option Nat := none
deriving DecidableEq

/-- The holder of the control lock. -/
inductive Holder where
  /-- The checks have passed; the started record is not yet written. -/
  | acquiring (guard : MutationGuard)
  /-- The guard is granted. -/
  | guarding (guard : MutationGuard)
  /-- The guard is finished or dropped, and writes its last record. -/
  | closing (guard : MutationGuard)
  /-- A resolution or supersession of an uncertain mutation. -/
  | resolving
deriving DecidableEq

def Holder.guard? : Holder → Option MutationGuard
  | .acquiring guard => some guard
  | .guarding guard => some guard
  | .closing guard => some guard
  | .resolving => none

/-- Who holds the control lock once its append is complete. -/
def Holder.afterWrite : Holder → Option Holder
  | .acquiring guard => some (.guarding guard)
  | .guarding guard => some (.guarding guard)
  | .closing _ => none
  | .resolving => none

/-- Who holds the control lock once its append has failed: a guard whose last
record could not be written is dropped, which writes again. -/
def Holder.afterFailure : Holder → Option Holder
  | .acquiring _ => none
  | .guarding guard => some (.guarding guard)
  | .closing guard => some (.guarding guard)
  | .resolving => none

structure ControlState where
  log : AuditLog := {}
  /-- The remaining file operations of the append in progress. -/
  writing : List (LogOp AuditRecord) := []
  holder : Option Holder := none
  /-- The hold file exists. -/
  held : Bool := false
  /-- Every record that was ever appended. -/
  history : List AuditRecord := []
deriving DecidableEq

/-! ## The records -/

def startedRecord (now : Time) (guard : MutationGuard) : AuditRecord where
  timestamp := now
  correlationId := guard.correlationId
  phase := .started
  action := guard.action
  repo := guard.key.repo
  base := guard.key.base
  pr := guard.key.pr
  head := guard.head
  approvalCommentId := some none

def evidenceRecord (now : Time) (guard : MutationGuard) : AuditRecord where
  timestamp := now
  correlationId := guard.correlationId
  phase := .intentEvidence
  action := guard.action
  repo := guard.key.repo
  base := guard.key.base
  pr := guard.key.pr
  head := guard.head
  approvalCommentId := some guard.approvalCommentId

def finishedRecord (now : Time) (guard : MutationGuard) (outcome : String) : AuditRecord where
  timestamp := now
  correlationId := guard.correlationId
  phase := .finished
  action := guard.action
  outcome := some outcome
  repo := guard.key.repo
  base := guard.key.base
  pr := guard.key.pr
  head := guard.head
  approvalCommentId := some guard.approvalCommentId

/-- What `Drop` writes for a guard that was not finished. -/
def droppedRecord (now : Time) (guard : MutationGuard) : AuditRecord :=
  { finishedRecord now guard "uncertain" with approvalCommentId := none }

/-- A resolution; the steward's resolver copies the identity of the entry. -/
def resolvedRecord (now : Time) (entry : AuditRecord) (accepted byResolver : Bool) :
    AuditRecord where
  timestamp := now
  correlationId := entry.correlationId
  phase := .finished
  outcome := some (if accepted then "resolved_accepted" else "resolved_rejected")
  action := if byResolver then entry.action else none
  repo := if byResolver then entry.repo else none
  base := if byResolver then entry.base else none
  pr := if byResolver then entry.pr else none
  head := if byResolver then entry.head else none

def supersededRecord (now : Time) (correlationId : String) : AuditRecord where
  timestamp := now
  correlationId
  phase := .finished
  outcome := some "superseded"

/-! ## The steps -/

inductive ControlLabel where
  | acquire (policy : LogRetentionPolicy) (now : Time) (guard : MutationGuard)
  | recordApproval (policy : LogRetentionPolicy) (now : Time) (commentId : Option Nat)
  | finish (policy : LogRetentionPolicy) (now : Time) (outcome : String)
  | drop (policy : LogRetentionPolicy) (now : Time)
  | resolve (policy : LogRetentionPolicy) (now : Time) (correlationId : String)
      (accepted byResolver : Bool)
  | supersede (policy : LogRetentionPolicy) (now : Time) (correlationId : String)
  | setHold (held : Bool)
  /-- The append in progress performs its next file operation. -/
  | fileOp
  /-- The append in progress reports an error. -/
  | writeFails
  /-- The holder of the control lock dies, and its locks are released. -/
  | die

/-- The unresolved entry of a correlation id. -/
def ControlState.uncertain? (s : ControlState) (correlationId : String) : Option AuditRecord :=
  (uncertainMutations s.log).find? fun entry => entry.correlationId = correlationId

/-- The guard that is granted and not writing. -/
def ControlState.idleGuard (s : ControlState) : Option MutationGuard :=
  match s.holder, s.writing with
  | some (.guarding guard), [] => some guard
  | _, _ => none

variable (lineBytes : AuditRecord → Nat)

/-- Take the control lock in the given role, and begin to append a record. -/
def ControlState.write (s : ControlState) (policy : LogRetentionPolicy) (holder : Holder)
    (record : AuditRecord) : ControlState :=
  { s with holder := some holder, writing := appendAudit lineBytes policy record s.log }

def controlStep (s : ControlState) : ControlLabel → Option ControlState
  | .acquire policy now guard =>
    if s.holder.isSome || s.held then none
    else if (uncertainMutations s.log).any fun entry => entry.isFor guard.key then none
    else some (s.write lineBytes policy (.acquiring guard) (startedRecord now guard))
  | .recordApproval policy now commentId =>
    s.idleGuard.map fun guard =>
      let guard := { guard with approvalCommentId := commentId }
      s.write lineBytes policy (.guarding guard) (evidenceRecord now guard)
  | .finish policy now outcome =>
    s.idleGuard.map fun guard =>
      s.write lineBytes policy (.closing guard) (finishedRecord now guard outcome)
  | .drop policy now =>
    s.idleGuard.map fun guard =>
      s.write lineBytes policy (.closing guard) (droppedRecord now guard)
  | .resolve policy now correlationId accepted byResolver =>
    if s.holder.isSome then none
    else (s.uncertain? correlationId).map fun entry =>
      s.write lineBytes policy .resolving (resolvedRecord now entry accepted byResolver)
  | .supersede policy now correlationId =>
    if s.holder.isSome || (s.uncertain? correlationId).isNone || s.held then none
    else some (s.write lineBytes policy .resolving (supersededRecord now correlationId))
  | .setHold held => if s.holder.isSome then none else some { s with held }
  | .fileOp =>
    match s.writing with
    | [] => none
    | op :: rest =>
      some { s with
        log := s.log.run op
        history := s.history ++ op.appended
        writing := rest
        holder := if rest.isEmpty then s.holder.bind Holder.afterWrite else s.holder }
  | .writeFails =>
    if s.writing.isEmpty then none
    else some { s with writing := [], holder := s.holder.bind Holder.afterFailure }
  | .die => some { s with writing := [], holder := none }

/-- The control directory from its creation. -/
def control : Machine ControlState ControlLabel where
  init s := s = {}
  exec := controlStep lineBytes

end Shipyard.MergeQueue
