import Shipyard.Lib.Checks
import Shipyard.Ship.WorkItem

/-!
# The records of a parallel proof

One build is proved by many shards: an inventory of tests, a plan that puts each of them
into one shard, a manifest that binds both to a source and an artifact, and for every
attempt of a shard an assignment, a terminal disposition and a receipt. Every record is
bound to the others by digests, and the last three carry a keyed tag of the controller.

The libraries that write JSON and hash are a `Codec`: any encoding of the records and any
two hash functions.
-/

namespace Shipyard.ParallelProof

open Lib

def parallelProofSchemaVersion : Nat := 1
def maxTests : Nat := 100000
def maxShards : Nat := 4096
def maxIdentifierBytes : Nat := 512
def maxCapabilities : Nat := 256
def maxAttemptsPerShard : Nat := 32
def maxAttemptRecords : Nat := 16384
def maxRecordBytes : Nat := 16 * 1024 * 1024
def maxRelations : Nat := 1000000
def maxPayloadBytes : Nat := maxRecordBytes - 4096

/-- Exactly 64 lowercase hexadecimal characters. -/
def isHexDigest (value : String) : Bool :=
  value.toList.length = 64 && value.toList.all fun c => c.isDigit || ('a' ≤ c && c ≤ 'f')

structure Sha256Digest where
  value : String
  wellFormed : isHexDigest value = true
deriving DecidableEq, Repr

/-- A digest for examples. -/
def Sha256Digest.zero : Sha256Digest where
  value := "0000000000000000000000000000000000000000000000000000000000000000"
  wellFormed := by decide +kernel

inductive ParallelProofError where
  | unsupportedSchemaVersion (version : Nat)
  | invalidDigest
  | invalidField (field : String)
  | limitExceeded (field : String) (max found : Nat)
  | nonCanonical (field : String)
  | unknownTest (test : String)
  | invalidPartition (reason : String)
  | topologyViolation (reason : String)
  | bindingMismatch (field : String)
  | authenticationFailed
  | invalidAttemptSequence (reason : String)
  | immutableConflict (key : String)
  | missingRecord (key : String)
  | corruptRecord (reason : String)
deriving DecidableEq, Repr

abbrev Checked (α : Type) := Except ParallelProofError α

/-! ## Inventory and plan -/

inductive ResourceLockScope where
  | host
  | fleet
deriving DecidableEq, Repr

structure ResourceLock where
  name : String
  scope : ResourceLockScope
deriving DecidableEq, Repr

structure TestCase where
  id : String
  dependencies : List String
  fixtureSetup : List String
  fixtureRequired : List String
  fixtureCleanup : List String
  runSerial : Bool
  resourceLocks : List ResourceLock
  requiredCapabilities : List String
deriving DecidableEq, Repr

structure TestInventory where
  schemaVersion : Nat
  tests : List TestCase
deriving DecidableEq, Repr

inductive ShardExecutionMode where
  | parallel
  | fleetExclusive
deriving DecidableEq, Repr

structure TestShard where
  id : Nat
  executionMode : ShardExecutionMode
  testIds : List String
deriving DecidableEq, Repr

structure ShardPlan where
  schemaVersion : Nat
  inventoryDigest : Sha256Digest
  totalTests : Nat
  shards : List TestShard
deriving DecidableEq, Repr

def ShardPlan.shard (plan : ShardPlan) (shardId : Nat) : Option TestShard :=
  plan.shards[shardId]?

/-! ## Manifest -/

inductive ProofSubject where
  | pullRequest (number : Nat)
  | mergeGroup (id : String)
deriving DecidableEq, Repr

structure SourceIdentity where
  repositoryId : Nat
  repository : String
  subject : ProofSubject
  headSha : String
  treeSha : String
deriving DecidableEq, Repr

structure BuildIdentity where
  contractSha256 : Sha256Digest
  toolchainSha256 : Sha256Digest
  targetTriple : String
  profile : String
deriving DecidableEq, Repr

structure ArtifactIdentity where
  sourceTreeSha : String
  buildContractSha256 : Sha256Digest
  payloadSha256 : Sha256Digest
  layoutSha256 : Sha256Digest
  sizeBytes : Nat
deriving DecidableEq, Repr

inductive ArtifactTrustClass where
  | trustedController
  | untrustedContributor
deriving DecidableEq, Repr

inductive ExecutionBoundary where
  | trustedHost
  | disposableGuest
deriving DecidableEq, Repr

structure TrustIdentity where
  producerIdentitySha256 : Sha256Digest
  imageSha256 : Sha256Digest
  policySha256 : Sha256Digest
  artifactClass : ArtifactTrustClass
  executionBoundary : ExecutionBoundary
  networkEnabled : Bool
  writableHostMounts : Bool
deriving DecidableEq, Repr

structure ParallelProofManifest where
  schemaVersion : Nat
  shadowOnly : Bool
  source : SourceIdentity
  build : BuildIdentity
  artifact : ArtifactIdentity
  trust : TrustIdentity
  inventoryDigest : Sha256Digest
  planDigest : Sha256Digest
deriving DecidableEq, Repr

structure ParallelProofContext where
  manifest : ParallelProofManifest
  inventory : TestInventory
  plan : ShardPlan
deriving DecidableEq, Repr

/-! ## Attempts -/

/-- `validate_identifier` accepts the text. -/
def isIdentifier (value : String) : Bool :=
  Ship.isPlainField value && decide (value.utf8ByteSize ≤ maxIdentifierBytes)

structure AuthenticatedWorker where
  hostId : String
  identitySha256 : Sha256Digest
  capabilities : List String
  sessionGeneration : Nat
deriving DecidableEq, Repr

structure ControllerKey where
  id : String
  secret : List UInt8
  idValid : isIdentifier id = true
  secretLength : 32 ≤ secret.length ∧ secret.length ≤ 64
deriving DecidableEq, Repr

structure AssignmentClaims where
  schemaVersion : Nat
  manifestDigest : Sha256Digest
  inventoryDigest : Sha256Digest
  planDigest : Sha256Digest
  artifactSha256 : Sha256Digest
  shardId : Nat
  shardDigest : Sha256Digest
  attempt : Nat
  fence : Nat
  hostId : String
  workerIdentitySha256 : Sha256Digest
  capabilities : List String
  sessionGeneration : Nat
  executionMode : ShardExecutionMode
  executionBoundary : ExecutionBoundary
deriving DecidableEq, Repr

structure ControllerAssignment where
  claims : AssignmentClaims
  controllerKeyId : String
  authentication : Sha256Digest
deriving DecidableEq, Repr

inductive TestOutcomeStatus where
  | passed
  | failed
  | notRun
deriving DecidableEq, Repr

structure TestOutcome where
  testId : String
  status : TestOutcomeStatus
  durationMs : Nat
deriving DecidableEq, Repr

structure WorkerReport where
  schemaVersion : Nat
  assignmentDigest : Sha256Digest
  observedArtifactSha256 : Sha256Digest
  observedBuildContractSha256 : Sha256Digest
  observedHeadSha : String
  observedTreeSha : String
  outcomes : List TestOutcome
  logSha256 : Sha256Digest
deriving DecidableEq, Repr

structure ControllerExecutionObservation where
  startedAtMs : Nat
  completedAtMs : Nat
  artifactVerified : Bool
  executionBoundary : ExecutionBoundary
  guestTeardownConfirmed : Bool
deriving DecidableEq, Repr

inductive AttemptDispositionKind where
  | fencedBeforeStart
  | executed (startedAtMs completedAtMs : Nat) (executionBoundary : ExecutionBoundary)
      (guestTeardownConfirmed : Bool)
deriving DecidableEq, Repr

/-- A disposition without its authentication. -/
structure UnsignedDisposition where
  schemaVersion : Nat
  manifestDigest : Sha256Digest
  assignmentDigest : Sha256Digest
  shardId : Nat
  attempt : Nat
  fence : Nat
  kind : AttemptDispositionKind
  controllerKeyId : String
deriving DecidableEq, Repr

structure AttemptDisposition extends UnsignedDisposition where
  authentication : Sha256Digest
deriving DecidableEq, Repr

inductive ShardReceiptStatus where
  | passed
  | failed
deriving DecidableEq, Repr

/-- A receipt without its acceptance authentication. -/
structure UnsignedReceipt where
  schemaVersion : Nat
  manifestDigest : Sha256Digest
  inventoryDigest : Sha256Digest
  planDigest : Sha256Digest
  assignmentDigest : Sha256Digest
  dispositionDigest : Sha256Digest
  artifactSha256 : Sha256Digest
  shardId : Nat
  attempt : Nat
  fence : Nat
  hostId : String
  workerIdentitySha256 : Sha256Digest
  sessionGeneration : Nat
  executionMode : ShardExecutionMode
  executionBoundary : ExecutionBoundary
  outcomes : List TestOutcome
  outcomesDigest : Sha256Digest
  logSha256 : Sha256Digest
  startedAtMs : Nat
  completedAtMs : Nat
  status : ShardReceiptStatus
  artifactVerified : Bool
  guestTeardownConfirmed : Bool
  controllerKeyId : String
deriving DecidableEq, Repr

structure ShardReceipt extends UnsignedReceipt where
  acceptanceAuthentication : Sha256Digest
deriving DecidableEq, Repr

inductive ShadowProofStatus where
  | passed
  | incomplete (missingShards : List Nat)
  | failed (failedShards : List Nat)
  | incompleteAndFailed (missingShards failedShards : List Nat)
deriving DecidableEq, Repr

structure ShadowAggregate where
  schemaVersion : Nat
  manifestDigest : Sha256Digest
  inventoryDigest : Sha256Digest
  planDigest : Sha256Digest
  activeAssignmentDigests : List Sha256Digest
  attemptDispositionDigests : List Sha256Digest
  receiptDigests : List Sha256Digest
  status : ShadowProofStatus
deriving DecidableEq, Repr

/-! ## Encoding -/

/-- What is written as JSON on its own. -/
inductive Record where
  | inventory (inventory : TestInventory)
  | memberships (assignments : List (List String))
  | plan (plan : ShardPlan)
  | shard (shard : TestShard)
  | manifest (manifest : ParallelProofManifest)
  | claims (claims : AssignmentClaims)
  | assignment (assignment : ControllerAssignment)
  | outcomes (outcomes : List TestOutcome)
  | report (report : WorkerReport)
  | unsignedDisposition (disposition : UnsignedDisposition)
  | disposition (disposition : AttemptDisposition)
  | unsignedReceipt (receipt : UnsignedReceipt)
  | receipt (receipt : ShardReceipt)

structure Codec where
  encode : Record → List UInt8
  sha256 : (domain : String) → (message : List UInt8) → Sha256Digest
  hmacSha256 : (secret : List UInt8) → (domain : String) → (message : List UInt8) → Sha256Digest

namespace Codec

variable (codec : Codec)

def canonicalDigest (domain : String) (value : Record) : Sha256Digest :=
  codec.sha256 domain (codec.encode value)

def assignmentAuthentication (key : ControllerKey) (claims : AssignmentClaims) : Sha256Digest :=
  codec.hmacSha256 key.secret "shipyard.parallel-proof.assignment-auth.v1"
    (codec.encode (.claims claims))

def dispositionAuthentication (key : ControllerKey) (disposition : UnsignedDisposition) :
    Sha256Digest :=
  codec.hmacSha256 key.secret "shipyard.parallel-proof.disposition-auth.v1"
    (codec.encode (.unsignedDisposition disposition))

def receiptAuthentication (key : ControllerKey) (receipt : UnsignedReceipt) : Sha256Digest :=
  codec.hmacSha256 key.secret "shipyard.parallel-proof.receipt-auth.v1"
    (codec.encode (.unsignedReceipt receipt))

end Codec

/-- How a JSON array is written, given how its elements are: `[`, commas and `]`. -/
def encodeArray (elements : List (List UInt8)) : List UInt8 :=
  91 :: List.intercalate [44] elements ++ [93]

/-! ## Checks shared by the records -/

def validateVersion (version : Nat) : Checked Unit :=
  require (version = parallelProofSchemaVersion) (.unsupportedSchemaVersion version)

def validateIdentifier (field value : String) : Checked Unit :=
  require (isIdentifier value = true) (.invalidField field)

def ensureCount (field : String) (found minimum maximum : Nat) : Checked Unit := do
  require (minimum ≤ found) (.invalidField field)
  require (found ≤ maximum) (.limitExceeded field maximum found)

def ensureBound (field : String) (bytes : List UInt8) : Checked Unit :=
  require (bytes.length ≤ maxPayloadBytes)
    (.limitExceeded field maxPayloadBytes (maxPayloadBytes + 1))

def ensureSerializedBound (codec : Codec) (field : String) (value : Record) : Checked Unit :=
  ensureBound field (codec.encode value)

def strictlySorted : List String → Bool
  | first :: second :: rest => decide (first < second) && strictlySorted (second :: rest)
  | _ => true

def rejectAdjacentDuplicates {α : Type} [DecidableEq α] (field : String) : List α → Checked Unit
  | first :: second :: rest =>
    if first = second then .error (.nonCanonical field)
    else rejectAdjacentDuplicates field (second :: rest)
  | _ => .ok ()

def validateSortedIdentifiers (field : String) (values : List String) : Checked Unit := do
  require (values.length ≤ maxRelations) (.limitExceeded field maxRelations values.length)
  values.forM (validateIdentifier field)
  require (strictlySorted values = true) (.nonCanonical field)

end Shipyard.ParallelProof
