import Shipyard.Recovery.Record
import Shipyard.Lib.CrashProgram
import Shipyard.Lib.SortedMap

/-!
# The recovery store

The operations of `RecoveryStore` on its files: active records, archived
records, claims and the head index. Each operation holds the store lock, so a
program is never interleaved with another, but the process can stop between
any two of its writes. Every write replaces or removes one file atomically.
-/

namespace Shipyard.Recovery

open Lib Lib.Disk

structure DurableRecoveryClaim where
  requestId : String
  configSignature : String
  workerGeneration : String
  attempt : Nat
  startedAt : Int
deriving DecidableEq, Repr

/-- The files of a store. `claimed` is not a file: it lists the heads of the
claims that were ever made, the latest last. -/
structure RecoveryFiles where
  active : SortedMap String RecoveryRecord
  archived : String → Option RecoveryRecord
  claim : String → Option DurableRecoveryClaim
  headOwner : HeadKey → Option String
  claimed : List HeadKey

def RecoveryFiles.empty : RecoveryFiles := ⟨.empty, fun _ => none, fun _ => none, fun _ => none, []⟩

inductive FileWrite where
  | record (record : RecoveryRecord)
  | headOwner (head : HeadKey) (requestId : String)
  | removeActive (id : String)
  | removeArchived (id : String)
  | claim (head : HeadKey) (claim : DurableRecoveryClaim)
  | removeClaim (id : String)
deriving DecidableEq, Repr

variable (store : RecoveryStore) (record : RecoveryRecord) (files : RecoveryFiles)

/-- A terminal record is written to the archive, any other to the active records. -/
def RecoveryFiles.apply : FileWrite → RecoveryFiles
  | .record record =>
    if record.receipt.status.isTerminal then
      { files with archived := Function.update files.archived record.request.id (some record) }
    else { files with active := files.active.insert record.request.id record }
  | .headOwner head requestId =>
    { files with headOwner := Function.update files.headOwner head (some requestId) }
  | .removeActive id => { files with active := files.active.erase id }
  | .removeArchived id => { files with archived := Function.update files.archived id none }
  | .claim head claim =>
    { files with claim := Function.update files.claim claim.requestId (some claim),
                 claimed := files.claimed ++ [head] }
  | .removeClaim id => { files with claim := Function.update files.claim id none }

def recoveryDisk : Disk where
  State := RecoveryFiles
  Write := FileWrite
  apply := RecoveryFiles.apply

abbrev Program (α : Type) : Type := recoveryDisk.Prog RecoveryError α

/-- A check that reads no file. -/
def check {α : Type} (result : Except RecoveryError α) : Program α := Prog.read fun _ => result

/-! ## Loading -/

def validateClaim (claim : DurableRecoveryClaim) (record : RecoveryRecord) :
    Except RecoveryError Unit :=
  if claim.requestId ≠ record.request.id then .error (.identityCollision claim.requestId)
  else if claim.configSignature ≠ record.request.configSignature then
    .error (.configDrift record.request.configSignature claim.configSignature)
  else if claim.attempt = 0 ∨ record.receipt.maxAttempts < claim.attempt then
    .error (.invalidRequest (s!"durable claim attempt {claim.attempt} exceeds request " ++
      s!"budget {record.receipt.maxAttempts}"))
  else .ok ()

/-- A pending record as its claim file leaves it. -/
def RecoveryRecord.claimedBy (claim : DurableRecoveryClaim) : RecoveryRecord :=
  { record with
    receipt := { record.receipt with
      status := .running
      attempt := claim.attempt
      workerGeneration := some claim.workerGeneration
      startedAt := some claim.startedAt
      deferredAt := none
      updatedAt := claim.startedAt
      detail := none } }

def applyClaimIfPresent (files : RecoveryFiles) (record : RecoveryRecord) :
    Except RecoveryError RecoveryRecord :=
  if record.receipt.status ≠ .pending then .ok record
  else
    match files.claim record.request.id with
    | none => .ok record
    | some claim => do
      validateClaim claim record
      .ok (record.claimedBy claim)

/-- The stored copy of a record: an archived copy wins over an active one. -/
def RecoveryFiles.stored (id : String) : Option RecoveryRecord :=
  (files.archived id).or (files.active.get? id)

def RecoveryStore.loadRecord (files : RecoveryFiles) (id : String) :
    Except RecoveryError (Option RecoveryRecord) :=
  match files.stored id with
  | none => .ok none
  | some record => do
    store.validateRecord record
    if record.request.id ≠ id then .error (.identityCollision id) else .ok (some record)

def RecoveryStore.load (files : RecoveryFiles) (id : String) :
    Except RecoveryError (Option RecoveryRecord) := do
  match ← store.loadRecord files id with
  | none => .ok none
  | some record =>
    let record ← applyClaimIfPresent files record
    store.validateRecord record
    .ok (some record)

def RecoveryStore.loadExisting (files : RecoveryFiles) (id : String) :
    Except RecoveryError RecoveryRecord := do
  match ← store.load files id with
  | none => .error (.notFound id)
  | some record => .ok record

/-- The records of all active ids, in the order of their ids. -/
def RecoveryStore.loadActive (files : RecoveryFiles) : Except RecoveryError (List RecoveryRecord) :=
  files.active.keys.mapM (store.loadExisting files)

def RecoveryStore.loadHeadOwner (files : RecoveryFiles) (request : RecoveryRequest) :
    Except RecoveryError (Option RecoveryRecord) :=
  match files.headOwner request.head with
  | none => .ok none
  | some owner => do
    let record ← store.loadExisting files owner
    if record.request.head ≠ request.head then .error (.identityCollision owner)
    else .ok (some record)

/-! ## Saving -/

def maxActiveRecords : Nat := 1024

/-- The writes of one save. The head index is written before the old copy and
the claim are removed. -/
def saveWrites : List FileWrite :=
  [.record record, .headOwner record.request.head record.request.id] ++
    if record.receipt.status.isTerminal then
      [.removeActive record.request.id, .removeClaim record.request.id]
    else [.removeArchived record.request.id]

/-- What is checked before the first write of a save. -/
def RecoveryStore.checkSave (record : RecoveryRecord) (files : RecoveryFiles) :
    Except RecoveryError Unit := do
  store.validateRecord record
  if !record.receipt.status.isTerminal && (files.active.get? record.request.id).isNone
      && maxActiveRecords ≤ files.active.keys.length then
    .error (.invalidRequest
      s!"recovery active-record limit of {maxActiveRecords} is exhausted")
  else .ok ()

def RecoveryStore.save (record : RecoveryRecord) : Program Unit := do
  Prog.read (store.checkSave record)
  Prog.write (saveWrites record)

def claimFromRunningRecord : Except RecoveryError DurableRecoveryClaim :=
  if record.receipt.status ≠ .running ∨ record.receipt.attempt = 0 then
    .error (.invalidRequest "durable claim requires an attempt-consuming running record")
  else
    match record.receipt.workerGeneration with
    | none => .error (.invalidRequest "running claim omitted worker")
    | some workerGeneration =>
      match record.receipt.startedAt with
      | none => .error (.invalidRequest "running claim omitted start time")
      | some startedAt =>
        .ok ⟨record.request.id, record.request.configSignature, workerGeneration,
          record.receipt.attempt, startedAt⟩

/-- A claim file is created, never replaced. -/
def persistClaim : Program Unit := do
  let claim ← check (claimFromRunningRecord record)
  Prog.read fun files =>
    if (files.claim record.request.id).isSome then .error (.claimExists record.request.id)
    else .ok ()
  Prog.write [.claim record.request.head claim]

/-! ## Transitions of one record -/

/-- The receipt of a record that was superseded. -/
def RecoveryRecord.supersededAs (successor : Option String) (detail : String) (now : Int) :
    RecoveryRecord :=
  { record with
    receipt := { record.receipt with
      status := .superseded
      supersededBy := successor
      detail := some detail
      completedAt := some now
      deferredAt := none
      updatedAt := now } }

/-- The receipt of a running record whose attempt failed. -/
def RecoveryRecord.failedWith (detail : String) (now : Int) : RecoveryRecord :=
  { record with
    receipt := { record.receipt with
      status := .failed
      detail := some detail
      completedAt := some now
      deferredAt := none
      updatedAt := now } }

/-- Replace one record; the check of the new record is that of the save. -/
def RecoveryStore.update (id : String)
    (mutate : RecoveryRecord → Except RecoveryError RecoveryRecord) : Program RecoveryRecord := do
  let record ← Prog.read (store.loadExisting · id)
  let record ← check (mutate record)
  store.save record
  pure record

def claimAttempt (workerGeneration : String) (now : Int) : RecoveryRecord :=
  { record with
    receipt := { record.receipt with
      status := .running
      attempt := record.receipt.attempt + 1
      workerGeneration := some workerGeneration
      startedAt := some now
      deferredAt := none
      updatedAt := now
      detail := none } }

def RecoveryStore.begin (id configSignature workerGeneration : String) (now : Int) :
    Program RecoveryRecord := do
  let record ← Prog.read (store.loadExisting · id)
  check (ensureConfig record configSignature)
  if record.receipt.status = .pending then
    if record.receipt.maxAttempts ≤ record.receipt.attempt then
      Prog.fail (.attemptsExhausted id record.receipt.maxAttempts)
    else
      let record := claimAttempt record workerGeneration now
      check (store.validateRecord record)
      persistClaim record
      store.save record
      pure record
  else if record.receipt.status = .running
      ∧ record.receipt.workerGeneration = some workerGeneration then
    store.save record
    pure record
  else if record.receipt.maxAttempts ≤ record.receipt.attempt then
    Prog.fail (.attemptsExhausted id record.receipt.maxAttempts)
  else Prog.fail (.invalidTransition id record.receipt.status "running")

def RecoveryStore.complete (id configSignature : String) (output : RecoveryOutput) (now : Int) :
    Program RecoveryRecord := do
  check output.validate
  store.update id fun record => do
    output.validate
    ensureConfig record configSignature
    if record.receipt.status ≠ .running then
      .error (.invalidTransition id record.receipt.status "triaged or escalated")
    else
      .ok { record with
        receipt := { record.receipt with
          status := if output.verdict = .escalate then .escalated else .triaged
          output := some output
          completedAt := some now
          deferredAt := none
          updatedAt := now } }

def RecoveryStore.fail (id configSignature detail : String) (now : Int) : Program RecoveryRecord :=
  store.update id fun record => do
    ensureConfig record configSignature
    if record.receipt.status ≠ .running then
      .error (.invalidTransition id record.receipt.status "failed")
    else .ok (record.failedWith detail now)

/-- Superseding a superseded record changes nothing in it, but saves it again. -/
def supersedeRecord (id : String) (successor : Option String) (detail : String) (now : Int)
    (record : RecoveryRecord) : Except RecoveryError RecoveryRecord :=
  if record.receipt.status = .superseded then
    if successor.isSome ∧ record.receipt.supersededBy ≠ successor then
      .error (.invalidRequest
        s!"recovery request {id} already has a different superseding identity")
    else .ok record
  else if record.receipt.status ≠ .pending ∧ record.receipt.status ≠ .running then
    .error (.invalidTransition id record.receipt.status "superseded")
  else .ok (record.supersededAs successor detail now)

def RecoveryStore.supersede (store : RecoveryStore) (id : String) (successor : Option String)
    (detail : String) (now : Int) : Program RecoveryRecord :=
  if successor = some id then
    Prog.fail (.invalidRequest "a recovery request cannot supersede itself")
  else store.update id (supersedeRecord id successor detail now)

def RecoveryStore.deferPending (id expectedConfigSignature : String) (detail : String) (now : Int) :
    Program Bool := do
  let record ← Prog.read (store.loadExisting · id)
  if record.receipt.status ≠ .pending
      ∨ record.request.configSignature ≠ expectedConfigSignature
      ∨ record.receipt.configSignature ≠ expectedConfigSignature then
    pure false
  else
    let others ← Prog.read store.loadActive
    let deferrals := (others.filter (·.receipt.status = .pending)).filterMap (·.receipt.deferredAt)
    let deferredAt := (deferrals.max?).elim now fun latest => max (latest + 1) now
    store.save { record with
      receipt := { record.receipt with
        deferredAt := some deferredAt
        updatedAt := deferredAt
        detail := some detail } }
    pure true

/-! ## Sweeps over the active records -/

/-- Supersede those of the given records that are pending or running for the head. -/
def RecoveryStore.supersedeEach (store : RecoveryStore) (head : HeadKey) (detail : String)
    (now : Int) : List String → Program (List String)
  | [] => pure []
  | id :: rest => do
    let record ← Prog.read (store.loadExisting · id)
    if record.request.head = head
        ∧ (record.receipt.status = .pending ∨ record.receipt.status = .running) then
      store.save (record.supersededAs none detail now)
      let superseded ← store.supersedeEach head detail now rest
      pure (id :: superseded)
    else store.supersedeEach head detail now rest

def RecoveryStore.supersedeActiveTarget (repo : String) (pr : Nat) (headSha detail : String)
    (now : Int) : Program (List String) := do
  let ids ← Prog.read fun files => .ok files.active.keys
  store.supersedeEach ⟨repo.map Char.toLower, pr, headSha.map Char.toLower⟩ detail now ids

/-- Save each record as failed; they were all loaded before the first save. -/
def RecoveryStore.failEach (store : RecoveryStore) (detail : String) (now : Int) :
    List RecoveryRecord → Program (List RecoveryRecord)
  | [] => pure []
  | record :: rest => do
    store.save (record.failedWith detail now)
    let failed ← store.failEach detail now rest
    pure (record.failedWith detail now :: failed)

def RecoveryStore.reconcileRunningWhere (detail : String) (now : Int)
    (predicate : RecoveryRecord → Bool) : Program (List RecoveryRecord) := do
  let records ← Prog.read store.loadActive
  store.failEach detail now
    (records.filter fun record => record.receipt.status = .running && predicate record)

def RecoveryStore.reconcileStaleRunning (cutoff : Int) (detail : String) (now : Int) :
    Program (List RecoveryRecord) :=
  store.reconcileRunningWhere detail now fun record => record.receipt.startedAt.any (· < cutoff)

def RecoveryStore.reconcileOrphanedRunning (detail : String) (now : Int) :
    Program (List RecoveryRecord) :=
  store.reconcileRunningWhere detail now fun _ => true

end Shipyard.Recovery
