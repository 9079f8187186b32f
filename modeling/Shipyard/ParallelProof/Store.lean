import Shipyard.Lib.Calls
import Shipyard.ParallelProof.Records

/-!
# The immutable record store

Records are published as files that are never replaced. A writer takes the lock of the
record's path, writes a temporary file, links it to the path unless something stands
there, and syncs the directory. Readers take no lock.

Every file operation of a call is one action here, so the operations of any number of
calls interleave. An operation may fail, and the process of a call may stop before any of
them. Power may fail too: then all calls stop, and what was not synced may be lost.

The random name of a temporary file is unused, so a temporary file is named by the call
that makes it. Nothing but the calls touches the store.
-/

namespace Shipyard.ParallelProof

open Lib

inductive RecordKind where
  | manifest
  | inventory
  | plan
  | assignment
  | disposition
  | receipt
deriving DecidableEq, Repr

def RecordKind.directory : RecordKind → String
  | .manifest => "manifests"
  | .inventory => "inventories"
  | .plan => "plans"
  | .assignment => "assignments"
  | .disposition => "dispositions"
  | .receipt => "receipts"

structure StoredEnvelope (ν : Type) where
  schemaVersion : Nat
  kind : RecordKind
  logicalKey : String
  payloadSha256 : Sha256Digest
  payload : ν
deriving DecidableEq

/-- A store of records of the types `ρ`, over a JSON library and a hash function. What
was written as JSON is read back as it was. -/
structure ParallelProofStore (ρ : RecordKind → Type) where
  root : String
  Value : Type
  toValue : {kind : RecordKind} → ρ kind → Value
  fromValue : (kind : RecordKind) → Value → Except String (ρ kind)
  writeValue : Value → List UInt8
  writeEnvelope : StoredEnvelope Value → List UInt8
  readEnvelope : List UInt8 → Except String (StoredEnvelope Value)
  sha256 : List UInt8 → Sha256Digest
  fromValue_toValue : ∀ {kind} (record : ρ kind), fromValue kind (toValue record) = .ok record
  readEnvelope_writeEnvelope : ∀ envelope, readEnvelope (writeEnvelope envelope) = .ok envelope

inductive StoreWriteOutcome where
  | created
  | alreadyPresent
deriving DecidableEq, Repr

inductive CrashPoint where
  | none
  | afterTempSync
  | afterPublish
deriving DecidableEq, Repr

inductive StoreError where
  | refused (error : ParallelProofError)
  | crashInjected (point : String)
  | io
deriving DecidableEq, Repr

/-- The arguments of `put`. -/
structure Put (ρ : RecordKind → Type) where
  kind : RecordKind
  logicalKey : String
  value : ρ kind
  crash : CrashPoint

/-- The arguments of `load`. -/
structure Load where
  kind : RecordKind
  logicalKey : String
deriving DecidableEq

/-! ## Records and their bytes -/

structure RecordPath where
  kind : RecordKind
  stem : Sha256Digest
deriving DecidableEq

def bigEndian64 (value : Nat) : List UInt8 :=
  (List.range 8).map fun byte => UInt8.ofNat (value / 256 ^ (7 - byte))

namespace ParallelProofStore

variable {ρ : RecordKind → Type} (store : ParallelProofStore ρ)

def storeFileStem (kind : RecordKind) (logicalKey : String) : Sha256Digest :=
  store.sha256 ("shipyard.parallel-proof.store-key.v1".toUTF8.toList ++
    kind.directory.toUTF8.toList ++ logicalKey.toUTF8.toList)

def path (kind : RecordKind) (logicalKey : String) : RecordPath :=
  ⟨kind, store.storeFileStem kind logicalKey⟩

def directoryText (kind : RecordKind) : String := store.root ++ "/" ++ kind.directory

def fileText (path : RecordPath) (extension : String) : String :=
  store.directoryText path.kind ++ "/" ++ path.stem.value ++ extension

def canonicalDigest (domain : String) (value : store.Value) : Sha256Digest :=
  store.sha256 (bigEndian64 domain.utf8ByteSize ++ domain.toUTF8.toList ++
    bigEndian64 (store.writeValue value).length ++ store.writeValue value)

def payloadDigest (payload : store.Value) : Sha256Digest :=
  store.canonicalDigest "shipyard.parallel-proof.store-payload.v1" payload

/-- The checks of `put` before its first file operation, and the bytes it publishes. -/
def recordBytes (kind : RecordKind) (logicalKey : String) (value : ρ kind) :
    Checked (List UInt8) := do
  validateIdentifier "record key" logicalKey
  let payload := store.toValue value
  let payloadBytes := store.writeValue payload
  require (payloadBytes.length ≤ maxPayloadBytes)
    (.limitExceeded "durable payload bytes" maxPayloadBytes payloadBytes.length)
  let bytes := store.writeEnvelope
    { schemaVersion := parallelProofSchemaVersion
      kind := kind
      logicalKey := logicalKey
      payloadSha256 := store.payloadDigest payload
      payload := payload }
  require (bytes.length ≤ maxRecordBytes)
    (.limitExceeded "durable record bytes" maxRecordBytes bytes.length)
  pure bytes

/-- What `load` makes of the bytes it read. -/
def recordOf (kind : RecordKind) (logicalKey : String) (bytes : List UInt8) :
    Checked (ρ kind) :=
  match store.readEnvelope bytes with
  | .error message => .error (.corruptRecord message)
  | .ok envelope => do
    require (envelope.schemaVersion = parallelProofSchemaVersion ∧ envelope.kind = kind ∧
      envelope.logicalKey = logicalKey) (.corruptRecord "envelope identity mismatch")
    require (store.payloadDigest envelope.payload = envelope.payloadSha256)
      (.corruptRecord "payload digest mismatch")
    (store.fromValue kind envelope.payload).mapError .corruptRecord

end ParallelProofStore

/-! ## The disk -/

/-- What stands at a path: nothing, what the store makes there, or anything else. -/
inductive Entry (β : Type) where
  | absent
  | proper (content : β)
  | foreign
deriving DecidableEq

def Entry.map {β γ : Type} (f : β → γ) : Entry β → Entry γ
  | .absent => .absent
  | .proper content => .proper (f content)
  | .foreign => .foreign

/-- A published file, and whether its data and its name were synced. -/
structure StoredFile where
  bytes : List UInt8
  dataSynced : Bool
  nameSynced : Bool
deriving DecidableEq

structure Temporary where
  content : List UInt8
  synced : Bool
deriving DecidableEq

abbrev CallId := Nat

/-- The store's root directory, and who holds each lock. A directory of the root carries
whether its name was synced. -/
structure StoreDisk where
  directories : RecordKind → Entry Bool
  files : RecordPath → Entry StoredFile
  lockFiles : RecordPath → Entry Unit
  owners : RecordPath → Option CallId
  temporaries : CallId → Option Temporary

namespace StoreDisk

variable (disk : StoreDisk)

def empty : StoreDisk where
  directories _ := .absent
  files _ := .absent
  lockFiles _ := .absent
  owners _ := none
  temporaries _ := none

def syncRoot : StoreDisk :=
  { disk with directories := fun kind => (disk.directories kind).map fun _ => true }

def createDirectory (kind : RecordKind) : StoreDisk :=
  { disk with directories := Function.update disk.directories kind (.proper false) }

def syncDirectory (kind : RecordKind) : StoreDisk :=
  { disk with
    files := fun path =>
      if path.kind = kind then
        (disk.files path).map fun file => { file with nameSynced := true }
      else disk.files path }

def createLockFile (path : RecordPath) : StoreDisk :=
  { disk with lockFiles := Function.update disk.lockFiles path (.proper ()) }

def setOwner (path : RecordPath) (owner : Option CallId) : StoreDisk :=
  { disk with owners := Function.update disk.owners path owner }

def setTemporary (id : CallId) (temporary : Option Temporary) : StoreDisk :=
  { disk with temporaries := Function.update disk.temporaries id temporary }

def publish (path : RecordPath) (temporary : Temporary) : StoreDisk :=
  { disk with
    files := Function.update disk.files path
      (.proper ⟨temporary.content, temporary.synced, false⟩) }

end StoreDisk

def readBounded : Entry StoredFile → Except StoreError (List UInt8)
  | .proper file => do
    require (file.bytes.length ≤ maxRecordBytes)
      (.refused (.limitExceeded "durable record bytes" maxRecordBytes (maxRecordBytes + 1)))
    pure file.bytes
  | .absent => .error .io
  | .foreign => .error .io

/-! ## Calls -/

/-- The next file operation of a `put`. -/
inductive PutStage where
  | statDirectory
  | createDirectory
  | recheckDirectory
  | syncRoot
  | statDestination
  | statLock
  | openLock
  | lockExclusive
  | probe
  | readExisting
  | syncPresent
  | createTemporary
  | writeTemporary
  | persist
  | readRaced
  | syncRaced
  | syncCreated
  | unlock (result : Except StoreError StoreWriteOutcome)

/-- The operation is made with the lock held. -/
def PutStage.holdsLock : PutStage → Bool
  | .statDirectory => false
  | .createDirectory => false
  | .recheckDirectory => false
  | .syncRoot => false
  | .statDestination => false
  | .statLock => false
  | .openLock => false
  | .lockExclusive => false
  | _ => true

/-- The next file operation of a `load`. -/
inductive LoadStage where
  | stat
  | probe
  | read
deriving DecidableEq

inductive Call (ρ : RecordKind → Type) where
  | unstarted
  | putting (put : Put ρ) (bytes : List UInt8) (stage : PutStage)
  | wrote (put : Put ρ) (result : Except StoreError StoreWriteOutcome)
  | loading (load : Load) (stage : LoadStage)
  | loaded (load : Load) (result : Except StoreError (ρ load.kind))
  | stopped

/-- What a call does next: it is made, its next operation succeeds or fails, or its
process stops. `written` is how many bytes a write takes. -/
inductive Action (ρ : RecordKind → Type) where
  | put (put : Put ρ)
  | load (load : Load)
  | step (written : Nat)
  | fail
  | crash

namespace ParallelProofStore

variable {ρ : RecordKind → Type} (store : ParallelProofStore ρ)

def notADirectory (kind : RecordKind) : StoreError :=
  .refused (.corruptRecord (store.directoryText kind ++ " is not a real directory"))

def notAFile (path : RecordPath) (extension : String) : StoreError :=
  .refused (.corruptRecord (store.fileText path extension ++ " is not a regular file"))

/-- Leaving the locked part drops the temporary file. -/
def leave (id : CallId) (put : Put ρ) (bytes : List UInt8) (disk : StoreDisk)
    (result : Except StoreError StoreWriteOutcome) : StoreDisk × Call ρ :=
  (disk.setTemporary id none, .putting put bytes (.unlock result))

/-- The record that stands at the path is retained if it is the same, and is a conflict
otherwise. -/
def compareExisting (id : CallId) (put : Put ρ) (bytes : List UInt8) (disk : StoreDisk)
    (same : PutStage) : StoreDisk × Call ρ :=
  match readBounded (disk.files (store.path put.kind put.logicalKey)) with
  | .error error => leave id put bytes disk (.error error)
  | .ok existing =>
    if existing = bytes then (disk, .putting put bytes same)
    else leave id put bytes disk (.error (.refused (.immutableConflict put.logicalKey)))

/-- One operation of `put` that the system carries out; `none` while it has to wait. -/
def putStep (id : CallId) (put : Put ρ) (bytes : List UInt8) (disk : StoreDisk)
    (written : Nat) (stage : PutStage) : Option (StoreDisk × Call ρ) :=
  let path := store.path put.kind put.logicalKey
  let goto (disk : StoreDisk) (stage : PutStage) := some (disk, Call.putting put bytes stage)
  let refuse (error : StoreError) := some (disk, Call.wrote put (.error error))
  let leave (disk : StoreDisk) (result : Except StoreError StoreWriteOutcome) :=
    some (leave id put bytes disk result)
  match stage with
  | .statDirectory =>
    match disk.directories put.kind with
    | .proper _ => goto disk .syncRoot
    | .foreign => refuse (store.notADirectory put.kind)
    | .absent => goto disk .createDirectory
  | .createDirectory =>
    match disk.directories put.kind with
    | .absent => goto (disk.createDirectory put.kind) .syncRoot
    | _ => goto disk .recheckDirectory
  | .recheckDirectory =>
    match disk.directories put.kind with
    | .proper _ => goto disk .syncRoot
    | .foreign => refuse (store.notADirectory put.kind)
    | .absent => refuse .io
  | .syncRoot => goto disk.syncRoot .statDestination
  | .statDestination =>
    match disk.files path with
    | .foreign => refuse (store.notAFile path ".json")
    | _ => goto disk .statLock
  | .statLock =>
    match disk.lockFiles path with
    | .foreign => refuse (store.notAFile path ".lock")
    | _ => goto disk .openLock
  | .openLock =>
    match disk.lockFiles path with
    | .absent => goto (disk.createLockFile path) .lockExclusive
    | .proper () => goto disk .lockExclusive
    | .foreign => refuse .io
  | .lockExclusive =>
    match disk.owners path with
    | some _ => none
    | none => goto (disk.setOwner path (some id)) .probe
  | .probe =>
    match disk.files path with
    | .absent => goto disk .createTemporary
    | _ => goto disk .readExisting
  | .readExisting => store.compareExisting id put bytes disk .syncPresent
  | .syncPresent => leave (disk.syncDirectory put.kind) (.ok .alreadyPresent)
  | .createTemporary => goto (disk.setTemporary id (some ⟨[], false⟩)) .writeTemporary
  | .writeTemporary =>
    match disk.temporaries id with
    | none => leave disk (.error .io)
    | some temporary =>
      let rest := bytes.drop temporary.content.length
      if rest = [] then
        if put.crash = .afterTempSync then
          leave disk (.error (.crashInjected "after_temp_sync"))
        else goto (disk.setTemporary id (some { temporary with synced := true })) .persist
      else if 0 < written then
        goto (disk.setTemporary id
          (some ⟨temporary.content ++ rest.take written, false⟩)) .writeTemporary
      else none
  | .persist =>
    match disk.temporaries id, disk.files path with
    | none, _ => leave disk (.error .io)
    | some temporary, .absent =>
      if put.crash = .afterPublish then
        leave (disk.publish path temporary) (.error (.crashInjected "after_publish"))
      else goto ((disk.publish path temporary).setTemporary id none) .syncCreated
    | some _, _ => goto disk .readRaced
  | .readRaced => store.compareExisting id put bytes disk .syncRaced
  | .syncRaced => leave (disk.syncDirectory put.kind) (.ok .alreadyPresent)
  | .syncCreated => leave (disk.syncDirectory put.kind) (.ok .created)
  | .unlock result => some (disk.setOwner path none, .wrote put result)

/-- The next operation of `put` fails. -/
def putFail (id : CallId) (put : Put ρ) (bytes : List UInt8) (disk : StoreDisk) :
    PutStage → StoreDisk × Call ρ
  -- closing the lock file releases the lock that could not be released
  | .unlock _ =>
    (disk.setOwner (store.path put.kind put.logicalKey) none, .wrote put (.error .io))
  | stage =>
    if stage.holdsLock then leave id put bytes disk (.error .io)
    else (disk, .wrote put (.error .io))

/-- The process of a `put` stops: the system releases its lock, the temporary file stays. -/
def putCrash (put : Put ρ) (disk : StoreDisk) (stage : PutStage) : StoreDisk :=
  if stage.holdsLock then disk.setOwner (store.path put.kind put.logicalKey) none else disk

/-- One operation of `load`. -/
def loadStep (load : Load) (disk : StoreDisk) : LoadStage → Call ρ
  | .stat =>
    match disk.files (store.path load.kind load.logicalKey) with
    | .foreign =>
      .loaded load (.error
        (store.notAFile (store.path load.kind load.logicalKey) ".json"))
    | _ => .loading load .probe
  | .probe =>
    match disk.files (store.path load.kind load.logicalKey) with
    | .absent => .loaded load (.error (.refused (.missingRecord load.logicalKey)))
    | _ => .loading load .read
  | .read =>
    .loaded load (do
      let bytes ← readBounded (disk.files (store.path load.kind load.logicalKey))
      (store.recordOf load.kind load.logicalKey bytes).mapError .refused)

def act (id : CallId) (call : Call ρ) (disk : StoreDisk) (action : Action ρ) :
    Option (StoreDisk × Call ρ) :=
  match call, action with
  | .unstarted, .put put =>
    match store.recordBytes put.kind put.logicalKey put.value with
    | .error error => some (disk, .wrote put (.error (.refused error)))
    | .ok bytes => some (disk, .putting put bytes .statDirectory)
  | .unstarted, .load load =>
    match validateIdentifier "record key" load.logicalKey with
    | .error error => some (disk, .loaded load (.error (.refused error)))
    | .ok () => some (disk, .loading load .stat)
  | .putting put bytes stage, .step written => store.putStep id put bytes disk written stage
  | .putting put bytes stage, .fail => some (store.putFail id put bytes disk stage)
  | .putting put _ stage, .crash => some (store.putCrash put disk stage, .stopped)
  | .loading load stage, .step _ => some (disk, store.loadStep load disk stage)
  | .loading load _, .fail => some (disk, .loaded load (.error .io))
  | .loading _ _, .crash => some (disk, .stopped)
  | _, _ => none

end ParallelProofStore

/-! ## Power loss -/

/-- Which unsynced entries a loss of power leaves, what it makes of unsynced data, and
what it leaves of the temporary files. -/
structure PowerLoss where
  keepsDirectory : RecordKind → Bool
  keepsFile : RecordPath → Bool
  keepsLockFile : RecordPath → Bool
  scrambled : RecordPath → List UInt8
  temporaries : CallId → Option Temporary

def StoreDisk.losePower (disk : StoreDisk) (loss : PowerLoss) : StoreDisk :=
  let directory (kind : RecordKind) : Entry Bool :=
    match disk.directories kind with
    | .proper synced => if synced || loss.keepsDirectory kind then .proper true else .absent
    | other => other
  { directories := directory
    files := fun path =>
      match directory path.kind, disk.files path with
      -- a lost directory takes its files with it
      | .absent, _ => .absent
      | _, .proper file =>
        if file.nameSynced || loss.keepsFile path then
          .proper ⟨if file.dataSynced then file.bytes else loss.scrambled path, true, true⟩
        else .absent
      | _, other => other
    lockFiles := fun path =>
      match disk.lockFiles path with
      | .proper () => if loss.keepsLockFile path then .proper () else .absent
      | other => other
    owners := fun _ => none
    temporaries := loss.temporaries }

/-- A call that was under way when power was lost. -/
def Call.losePower {ρ : RecordKind → Type} : Call ρ → Call ρ
  | .putting _ _ _ => .stopped
  | .loading _ _ => .stopped
  | call => call

/-! ## The machine -/

/-- Nothing foreign stands in the store, and every file has its data synced and stands in
a directory whose name is synced. -/
structure StoreDisk.Sound (disk : StoreDisk) : Prop where
  directories : ∀ kind, disk.directories kind ≠ .foreign
  files : ∀ path, disk.files path ≠ .foreign
  lockFiles : ∀ path, disk.lockFiles path ≠ .foreign
  file : ∀ path file, disk.files path = .proper file →
    file.dataSynced = true ∧ disk.directories path.kind = .proper true

abbrev StoreState (ρ : RecordKind → Type) := Calls.State CallId StoreDisk (Call ρ)

abbrev StoreLabel (ρ : RecordKind → Type) := Calls.Label CallId (Action ρ) PowerLoss

namespace ParallelProofStore

variable {ρ : RecordKind → Type} (store : ParallelProofStore ρ)

def calls : Calls CallId StoreDisk (Call ρ) (Action ρ) PowerLoss where
  act := store.act
  strike loss disk := disk.losePower loss
  struck := Call.losePower

/-- A run starts with any sound disk, on which no call was made yet. -/
def machine : Machine (StoreState ρ) (StoreLabel ρ) :=
  store.calls.machine fun s =>
    s.shared.Sound ∧ (∀ path, s.shared.owners path = none) ∧ ∀ id, s.calls id = .unstarted

end ParallelProofStore

end Shipyard.ParallelProof
