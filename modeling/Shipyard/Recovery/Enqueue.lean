import Shipyard.Recovery.Store

/-!
# Enqueueing a recovery request

`recovery_worker/enqueue.rs`: a request is created, found again, or brought
back while its head has no attempt. At most one record of a head should own
the head's attempt. The operations of the store then run as a process that
can stop between any two writes.
-/

namespace Shipyard.Recovery

open Lib Lib.Disk

inductive EnqueueOutcome where
  | created
  | existing
  | headAlreadyTracked (existingId : String)
deriving DecidableEq, Repr

variable (store : RecoveryStore)

/-- The owner of the request's head. An index that was never written is
repaired when exactly one active record has the head. -/
def RecoveryStore.sameHeadRecords (request : RecoveryRequest) : Program (List RecoveryRecord) := do
  match ← Prog.read (store.loadHeadOwner · request) with
  | some owner => pure [owner]
  | none =>
    let active ← Prog.read store.loadActive
    match active.filter (·.request.head = request.head) with
    | [owner] =>
      Prog.write [.headOwner owner.request.head owner.request.id]
      pure [owner]
    | records => pure records

/-- Whether the record counts among the siblings of the excluded id. -/
def isSibling (excludedId : Option String) (record : RecoveryRecord) : Bool :=
  excludedId.all (record.request.id ≠ ·)

def RecoveryStore.spentHeadOutcome (records : List RecoveryRecord) (excludedId : Option String)
    (now : Int) : Program (Option EnqueueOutcome) :=
  match records.find? fun record => isSibling excludedId record && 0 < record.receipt.attempt with
  | none => pure none
  | some spent =>
    if spent.receipt.status = .running then do
      store.save (spent.supersededAs none
        ("same-head target, evidence, or steward policy changed after claim; " ++
          "attempt budget remains spent") now)
      pure (some (.headAlreadyTracked spent.request.id))
    else pure (some (.headAlreadyTracked spent.request.id))

def singlePendingSibling (records : List RecoveryRecord) (excludedId : Option String)
    (request : RecoveryRequest) : Except RecoveryError (Option RecoveryRecord) :=
  match records.filter fun record =>
    isSibling excludedId record && record.receipt.status = .pending with
  | [] => .ok none
  | [record] => .ok (some record)
  | _ =>
    .error (.invalidRequest ("multiple pending recovery records exist for " ++
      s!"{request.repo}/#{request.pr} at {request.headSha}"))

def RecoveryStore.supersedePendingSibling (records : List RecoveryRecord)
    (excludedId : Option String) (request : RecoveryRequest) (detail : String) (now : Int) :
    Program Unit := do
  match ← check (singlePendingSibling records excludedId request) with
  | some sibling => store.save (sibling.supersededAs (some request.id) detail now)
  | none => pure ()

def RecoveryStore.reactivateUnattempted (existing : RecoveryRecord) (request : RecoveryRequest)
    (now : Int) : Program Unit :=
  store.save
    { request := request
      receipt := { existing.receipt with
        status := .pending
        configSignature := request.configSignature
        maxAttempts := store.maxAttempts
        workerGeneration := none
        startedAt := none
        completedAt := none
        deferredAt := none
        updatedAt := now
        supersededBy := none
        detail := none
        output := none } }

def RecoveryStore.persistNewPending (request : RecoveryRequest) (now : Int) : Program Unit :=
  store.save
    { request := request
      receipt :=
        { requestId := request.id
          status := .pending
          attempt := 0
          maxAttempts := store.maxAttempts
          configSignature := request.configSignature
          updatedAt := now } }

/-- The answer for an existing record that is left as it is. -/
def leaveExisting (existing : RecoveryRecord) (request : RecoveryRequest) :
    Except RecoveryError EnqueueOutcome :=
  if existing.request.configSignature ≠ request.configSignature then
    .error (.configDrift existing.request.configSignature request.configSignature)
  else .ok .existing

def RecoveryStore.enqueueExisting (existing : RecoveryRecord) (request : RecoveryRequest)
    (now : Int) : Program EnqueueOutcome :=
  if sameRecoveryIdentity existing.request request = false then
    Prog.fail (.identityCollision request.id)
  else if 0 < existing.receipt.attempt then
    check (leaveExisting existing request)
  else
    match existing.receipt.status with
    | .pending =>
      if existing.request.configSignature = request.configSignature then pure .existing
      else do
        store.reactivateUnattempted existing request now
        pure .created
    | .superseded => do
      let sameHead ← store.sameHeadRecords request
      match ← store.spentHeadOutcome sameHead (some request.id) now with
      | some outcome => pure outcome
      | none =>
        store.supersedePendingSibling sameHead (some request.id) request
          "same-head deterministic evidence returned to an earlier unattempted identity" now
        store.reactivateUnattempted existing request now
        pure .created
    | _ => check (leaveExisting existing request)

def RecoveryStore.enqueue (request : RecoveryRequest) (now : Int) : Program EnqueueOutcome := do
  check (store.validateRequest request)
  match ← Prog.read (store.load · request.id) with
  | some existing => store.enqueueExisting existing request now
  | none =>
    let sameHead ← store.sameHeadRecords request
    match ← store.spentHeadOutcome sameHead none now with
    | some outcome => pure outcome
    | none =>
      store.supersedePendingSibling sameHead none request
        "same-head deterministic evidence or steward policy changed before claim" now
      store.persistNewPending request now
      pure .created

/-! ## The operations as a process -/

inductive Operation where
  | enqueue (request : RecoveryRequest) (now : Int)
  | begin (id configSignature workerGeneration : String) (now : Int)
  | complete (id configSignature : String) (output : RecoveryOutput) (now : Int)
  | fail (id configSignature detail : String) (now : Int)
  | supersede (id : String) (successor : Option String) (detail : String) (now : Int)
  | supersedeActiveTarget (repo : String) (pr : Nat) (headSha detail : String) (now : Int)
  | reconcileStaleRunning (cutoff : Int) (detail : String) (now : Int)
  | reconcileOrphanedRunning (detail : String) (now : Int)
  | deferPending (id configSignature detail : String) (now : Int)
deriving DecidableEq, Repr

/-- The operation without its result. -/
def RecoveryStore.perform : Operation → Program Unit
  | .enqueue request now => do let _ ← store.enqueue request now
  | .begin id config generation now => do let _ ← store.begin id config generation now
  | .complete id config output now => do let _ ← store.complete id config output now
  | .fail id config detail now => do let _ ← store.fail id config detail now
  | .supersede id successor detail now => do let _ ← store.supersede id successor detail now
  | .supersedeActiveTarget repo pr headSha detail now => do
    let _ ← store.supersedeActiveTarget repo pr headSha detail now
  | .reconcileStaleRunning cutoff detail now => do
    let _ ← store.reconcileStaleRunning cutoff detail now
  | .reconcileOrphanedRunning detail now => do
    let _ ← store.reconcileOrphanedRunning detail now
  | .deferPending id config detail now => do let _ ← store.deferPending id config detail now

abbrev StoreState : Type := recoveryDisk.Process

abbrev StoreLabel : Type := ProcessLabel Operation

/-- Runs of a store that starts empty: operations follow each other, and the
process can stop before any of their writes. -/
def storeMachine : Machine StoreState StoreLabel :=
  processMachine (D := recoveryDisk) (· = RecoveryFiles.empty) store.perform

end Shipyard.Recovery
