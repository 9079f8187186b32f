import Shipyard.ParallelProof.Manifest

/-!
# Assignments, dispositions and receipts

The controller mints an assignment for an attempt of a shard, closes the attempt with a
disposition, and turns a worker's report into a receipt. When it aggregates a proof it
checks all of them again. The two sets of conditions are written separately: what the
producer of a receipt accepts is what its consumer verifies.
-/

namespace Shipyard.ParallelProof

open Lib

/-! ## Assignments -/

def AuthenticatedWorker.validate (worker : AuthenticatedWorker) : Checked Unit := do
  validateIdentifier "host id" worker.hostId
  ensureCount "worker capabilities" worker.capabilities.length 0 maxCapabilities
  validateSortedIdentifiers "worker capabilities" worker.capabilities
  require (worker.sessionGeneration ≠ 0) (.invalidField "session generation")

namespace ControllerAssignment

variable (codec : Codec) (key : ControllerKey) (assignment : ControllerAssignment)

def digest : Sha256Digest :=
  codec.canonicalDigest "shipyard.parallel-proof.assignment.v1" (.assignment assignment)

def verify : Checked Unit := do
  validateVersion assignment.claims.schemaVersion
  require (assignment.controllerKeyId = key.id) .authenticationFailed
  validateIdentifier "host id" assignment.claims.hostId
  ensureCount "assignment capabilities" assignment.claims.capabilities.length 0 maxCapabilities
  validateSortedIdentifiers "assignment capabilities" assignment.claims.capabilities
  require (assignment.claims.attempt ≠ 0 ∧ assignment.claims.fence ≠ 0 ∧
    assignment.claims.sessionGeneration ≠ 0) (.invalidField "assignment counters")
  ensureCount "assignment attempt" assignment.claims.attempt 1 maxAttemptsPerShard
  ensureSerializedBound codec "assignment bytes" (.assignment assignment)
  require (codec.assignmentAuthentication key assignment.claims = assignment.authentication)
    .authenticationFailed

end ControllerAssignment

variable (codec : Codec)

/-- Mints an assignment of a shard to a worker. -/
def ControllerAssignment.mint (key : ControllerKey) (proof : ParallelProofContext)
    (shardId attempt fence : Nat) (worker : AuthenticatedWorker) :
    Checked ControllerAssignment := do
  proof.validate codec
  worker.validate
  match proof.plan.shard shardId with
  | none => .error (.invalidField "shard id")
  | some shard => do
    require (attempt ≠ 0 ∧ fence ≠ 0) (.invalidField "attempt or fence")
    require (∀ capability ∈ requiredCapabilities proof.inventory shard,
      capability ∈ worker.capabilities) (.bindingMismatch "worker capabilities")
    let manifestDigest ← proof.manifest.digest codec proof.inventory proof.plan
    let inventoryDigest ← proof.inventory.digest codec
    let planDigest ← proof.plan.digest codec proof.inventory
    let claims : AssignmentClaims := {
      schemaVersion := parallelProofSchemaVersion
      manifestDigest, inventoryDigest, planDigest
      artifactSha256 := proof.manifest.artifact.payloadSha256
      shardId
      shardDigest := ValidatedProofBindings.shardDigest codec shard
      attempt, fence
      hostId := worker.hostId
      workerIdentitySha256 := worker.identitySha256
      capabilities := worker.capabilities
      sessionGeneration := worker.sessionGeneration
      executionMode := shard.executionMode
      executionBoundary := proof.manifest.trust.executionBoundary }
    let assignment : ControllerAssignment := {
      claims
      controllerKeyId := key.id
      authentication := codec.assignmentAuthentication key claims }
    assignment.verify codec key
    pure assignment

def validateAssignmentBindingCached (manifest : ParallelProofManifest)
    (bindings : ValidatedProofBindings) (assignment : ControllerAssignment) : Checked Unit :=
  let claims := assignment.claims
  match bindings.shard claims.shardId with
  | none => .error (.invalidField "shard id")
  | some shard => do
    require (claims.manifestDigest = bindings.manifestDigest ∧
      claims.inventoryDigest = bindings.inventoryDigest ∧
      claims.planDigest = bindings.planDigest ∧
      claims.artifactSha256 = manifest.artifact.payloadSha256 ∧
      claims.shardDigest = shard.digest ∧
      claims.executionMode = shard.executionMode ∧
      claims.executionBoundary = manifest.trust.executionBoundary)
      (.bindingMismatch "assignment claims")
    require (∀ capability ∈ shard.requiredCapabilities, capability ∈ claims.capabilities)
      (.bindingMismatch "assignment capabilities")

def validateAssignmentBinding (proof : ParallelProofContext) (assignment : ControllerAssignment) :
    Checked Unit := do
  proof.validate codec
  validateAssignmentBindingCached proof.manifest (.fromValidated codec proof) assignment

/-! ## Dispositions -/

namespace AttemptDisposition

variable (codec : Codec) (key : ControllerKey)

/-- What the interval and the boundary of an executed attempt must satisfy. -/
def validateKind (assignment : ControllerAssignment) : AttemptDispositionKind → Checked Unit
  | .fencedBeforeStart => .ok ()
  | .executed startedAtMs completedAtMs executionBoundary guestTeardownConfirmed =>
    require (startedAtMs < completedAtMs ∧
      executionBoundary = assignment.claims.executionBoundary ∧
      (executionBoundary = .disposableGuest → guestTeardownConfirmed = true))
      (.invalidField "attempt execution disposition")

def verify (assignment : ControllerAssignment) (disposition : AttemptDisposition) :
    Checked Unit := do
  validateVersion disposition.schemaVersion
  assignment.verify codec key
  require (disposition.controllerKeyId = key.id ∧
    disposition.manifestDigest = assignment.claims.manifestDigest ∧
    disposition.assignmentDigest = assignment.digest codec ∧
    disposition.shardId = assignment.claims.shardId ∧
    disposition.attempt = assignment.claims.attempt ∧
    disposition.fence = assignment.claims.fence) (.bindingMismatch "attempt disposition")
  validateKind assignment disposition.kind
  ensureSerializedBound codec "attempt disposition bytes" (.disposition disposition)
  require (codec.dispositionAuthentication key disposition.toUnsignedDisposition =
    disposition.authentication) .authenticationFailed

def mint (assignment : ControllerAssignment) (kind : AttemptDispositionKind) :
    Checked AttemptDisposition := do
  let unsigned : UnsignedDisposition := {
    schemaVersion := parallelProofSchemaVersion
    manifestDigest := assignment.claims.manifestDigest
    assignmentDigest := assignment.digest codec
    shardId := assignment.claims.shardId
    attempt := assignment.claims.attempt
    fence := assignment.claims.fence
    kind
    controllerKeyId := key.id }
  let disposition : AttemptDisposition := {
    toUnsignedDisposition := unsigned
    authentication := codec.dispositionAuthentication key unsigned }
  verify codec key assignment disposition
  pure disposition

def fencedBeforeStart (assignment : ControllerAssignment) : Checked AttemptDisposition := do
  assignment.verify codec key
  mint codec key assignment .fencedBeforeStart

def digest (disposition : AttemptDisposition) : Sha256Digest :=
  codec.canonicalDigest "shipyard.parallel-proof.attempt-disposition.v1" (.disposition disposition)

end AttemptDisposition

def validateControllerObservation (assignment : ControllerAssignment)
    (observation : ControllerExecutionObservation) : Checked Unit := do
  require (observation.executionBoundary = assignment.claims.executionBoundary)
    (.bindingMismatch "execution boundary")
  require (observation.startedAtMs < observation.completedAtMs)
    (.invalidField "controller interval")

def AttemptDisposition.executed (key : ControllerKey) (assignment : ControllerAssignment)
    (observation : ControllerExecutionObservation) : Checked AttemptDisposition := do
  assignment.verify codec key
  validateControllerObservation assignment observation
  require (observation.executionBoundary = .disposableGuest →
    observation.guestTeardownConfirmed = true) (.invalidField "guest teardown")
  mint codec key assignment (.executed observation.startedAtMs observation.completedAtMs
    observation.executionBoundary observation.guestTeardownConfirmed)

/-! ## Receipts -/

def allPassed (outcomes : List TestOutcome) : Bool :=
  outcomes.all fun outcome => outcome.status = .passed

def receiptStatus (passed : Bool) : ShardReceiptStatus := if passed then .passed else .failed

def outcomesDigest (outcomes : List TestOutcome) : Sha256Digest :=
  codec.canonicalDigest "shipyard.parallel-proof.outcomes.v1" (.outcomes outcomes)

namespace ShardReceipt

variable (codec : Codec) (key : ControllerKey) (receipt : ShardReceipt)

def validateStructural : Checked Unit := do
  validateVersion receipt.schemaVersion
  validateIdentifier "host id" receipt.hostId
  require (receipt.attempt ≠ 0 ∧ receipt.fence ≠ 0 ∧ receipt.sessionGeneration ≠ 0)
    (.invalidField "receipt counters")
  require (receipt.startedAtMs < receipt.completedAtMs) (.invalidField "receipt interval")
  ensureCount "receipt outcomes" receipt.outcomes.length 1 maxTests
  require (strictlySorted (receipt.outcomes.map TestOutcome.testId) = true)
    (.nonCanonical "receipt outcomes")
  receipt.outcomes.forM fun outcome => validateIdentifier "outcome test id" outcome.testId
  require (receipt.outcomesDigest = ParallelProof.outcomesDigest codec receipt.outcomes)
    (.bindingMismatch "outcomes digest")
  require (receipt.status = receiptStatus (receipt.artifactVerified &&
    allPassed receipt.outcomes &&
    (receipt.executionBoundary ≠ .disposableGuest || receipt.guestTeardownConfirmed)))
    (.bindingMismatch "receipt status")
  ensureSerializedBound codec "receipt bytes" (.receipt receipt)

def digest : Checked Sha256Digest := do
  receipt.validateStructural codec
  pure (codec.canonicalDigest "shipyard.parallel-proof.receipt.v1" (.receipt receipt))

def verify : Checked Unit := do
  receipt.validateStructural codec
  require (receipt.controllerKeyId = key.id) .authenticationFailed
  require (codec.receiptAuthentication key receipt.toUnsignedReceipt =
    receipt.acceptanceAuthentication) .authenticationFailed

end ShardReceipt

/-! ## Accepting a report -/

def validateWorkerReportBinding (manifest : ParallelProofManifest)
    (assignment : ControllerAssignment) (report : WorkerReport) : Checked Unit := do
  validateVersion report.schemaVersion
  ensureSerializedBound codec "worker report bytes" (.report report)
  require (report.assignmentDigest = assignment.digest codec)
    (.bindingMismatch "assignment digest")
  require (report.observedArtifactSha256 = manifest.artifact.payloadSha256)
    (.bindingMismatch "observed artifact")
  require (report.observedBuildContractSha256 = manifest.build.contractSha256)
    (.bindingMismatch "observed build contract")
  require (report.observedHeadSha = manifest.source.headSha) (.bindingMismatch "observed head")
  require (report.observedTreeSha = manifest.source.treeSha) (.bindingMismatch "observed tree")

def validateReportOutcomes (shard : TestShard) (outcomes : List TestOutcome) : Checked Unit := do
  ensureCount "worker outcomes" outcomes.length 1 maxTests
  require (strictlySorted (outcomes.map TestOutcome.testId) = true)
    (.nonCanonical "worker outcomes")
  outcomes.forM fun outcome => validateIdentifier "outcome test id" outcome.testId
  require (outcomes.map TestOutcome.testId = shard.testIds) (.bindingMismatch "executed test set")

def observationBoundaryPassed (manifest : ParallelProofManifest)
    (observation : ControllerExecutionObservation) : Bool :=
  match manifest.trust.artifactClass with
  | .trustedController => observation.executionBoundary = manifest.trust.executionBoundary
  | .untrustedContributor =>
    observation.executionBoundary = .disposableGuest && observation.guestTeardownConfirmed

/-- The worker is the one of the assignment. -/
def isAssigned (worker : AuthenticatedWorker) (claims : AssignmentClaims) : Prop :=
  worker.hostId = claims.hostId ∧ worker.identitySha256 = claims.workerIdentitySha256 ∧
    worker.capabilities = claims.capabilities ∧
    worker.sessionGeneration = claims.sessionGeneration

instance (worker : AuthenticatedWorker) (claims : AssignmentClaims) :
    Decidable (isAssigned worker claims) :=
  inferInstanceAs (Decidable (_ ∧ _ ∧ _ ∧ _))

/-- The receipt of an accepted report. -/
def issueReceipt (key : ControllerKey) (manifest : ParallelProofManifest)
    (assignment : ControllerAssignment) (observation : ControllerExecutionObservation)
    (report : WorkerReport) (disposition : AttemptDisposition) : ShardReceipt :=
  let claims := assignment.claims
  let unsigned : UnsignedReceipt := {
    schemaVersion := parallelProofSchemaVersion
    manifestDigest := claims.manifestDigest
    inventoryDigest := claims.inventoryDigest
    planDigest := claims.planDigest
    assignmentDigest := assignment.digest codec
    dispositionDigest := disposition.digest codec
    artifactSha256 := claims.artifactSha256
    shardId := claims.shardId
    attempt := claims.attempt
    fence := claims.fence
    hostId := claims.hostId
    workerIdentitySha256 := claims.workerIdentitySha256
    sessionGeneration := claims.sessionGeneration
    executionMode := claims.executionMode
    executionBoundary := observation.executionBoundary
    outcomes := report.outcomes
    outcomesDigest := outcomesDigest codec report.outcomes
    logSha256 := report.logSha256
    startedAtMs := observation.startedAtMs
    completedAtMs := observation.completedAtMs
    status := receiptStatus (observation.artifactVerified &&
      observationBoundaryPassed manifest observation && allPassed report.outcomes)
    artifactVerified := observation.artifactVerified
    guestTeardownConfirmed := observation.guestTeardownConfirmed
    controllerKeyId := key.id }
  { toUnsignedReceipt := unsigned
    acceptanceAuthentication := codec.receiptAuthentication key unsigned }

def acceptWorkerReport (key : ControllerKey) (proof : ParallelProofContext)
    (assignment : ControllerAssignment) (worker : AuthenticatedWorker)
    (observation : ControllerExecutionObservation) (report : WorkerReport) :
    Checked ShardReceipt := do
  proof.validate codec
  assignment.verify codec key
  worker.validate
  validateAssignmentBinding codec proof assignment
  require (isAssigned worker assignment.claims) .authenticationFailed
  match proof.plan.shard assignment.claims.shardId with
  | none => .error (.invalidField "shard id")
  | some shard => do
    validateWorkerReportBinding codec proof.manifest assignment report
    validateControllerObservation assignment observation
    validateReportOutcomes shard report.outcomes
    let disposition ← AttemptDisposition.executed codec key assignment observation
    let receipt :=
      issueReceipt codec key proof.manifest assignment observation report disposition
    receipt.validateStructural codec
    pure receipt

/-! ## Indexing receipts -/

/-- A shard and one of its attempts, in the order of the maps. -/
abbrev AttemptKey := Lex (Nat × Nat)

def ControllerAssignment.attemptKey (assignment : ControllerAssignment) : AttemptKey :=
  toLex (assignment.claims.shardId, assignment.claims.attempt)

def AttemptDisposition.attemptKey (disposition : AttemptDisposition) : AttemptKey :=
  toLex (disposition.shardId, disposition.attempt)

def ShardReceipt.attemptKey (receipt : ShardReceipt) : AttemptKey :=
  toLex (receipt.shardId, receipt.attempt)

def attemptText (attemptKey : AttemptKey) : String :=
  toString (ofLex attemptKey).1 ++ ":" ++ toString (ofLex attemptKey).2

def validateReceiptBinding (manifest : ParallelProofManifest) (plan : ShardPlan)
    (assignment : ControllerAssignment) (receipt : ShardReceipt) : Checked Unit :=
  let claims := assignment.claims
  match plan.shard claims.shardId with
  | none => .error (.invalidField "shard id")
  | some shard =>
    require (receipt.manifestDigest = claims.manifestDigest ∧
      receipt.inventoryDigest = claims.inventoryDigest ∧
      receipt.planDigest = claims.planDigest ∧
      receipt.assignmentDigest = assignment.digest codec ∧
      receipt.artifactSha256 = manifest.artifact.payloadSha256 ∧
      receipt.shardId = claims.shardId ∧
      receipt.attempt = claims.attempt ∧
      receipt.fence = claims.fence ∧
      receipt.hostId = claims.hostId ∧
      receipt.workerIdentitySha256 = claims.workerIdentitySha256 ∧
      receipt.sessionGeneration = claims.sessionGeneration ∧
      receipt.executionMode = claims.executionMode ∧
      receipt.executionBoundary = claims.executionBoundary ∧
      receipt.outcomes.map TestOutcome.testId = shard.testIds)
      (.bindingMismatch "receipt claims")

def validateReceiptDisposition (disposition : AttemptDisposition) (receipt : ShardReceipt) :
    Checked Unit :=
  match disposition.kind with
  | .fencedBeforeStart => .error (.bindingMismatch "receipt for unstarted attempt")
  | .executed startedAtMs completedAtMs executionBoundary guestTeardownConfirmed =>
    require (receipt.dispositionDigest = disposition.digest codec ∧
      receipt.startedAtMs = startedAtMs ∧
      receipt.completedAtMs = completedAtMs ∧
      receipt.executionBoundary = executionBoundary ∧
      receipt.guestTeardownConfirmed = guestTeardownConfirmed)
      (.bindingMismatch "receipt disposition")

section Indexing

variable (codec : Codec) (key : ControllerKey) (proof : ParallelProofContext)
  (assignments : SortedMap AttemptKey ControllerAssignment)
  (dispositions : SortedMap AttemptKey AttemptDisposition)

def checkReceipt (receipt : ShardReceipt) : Checked Unit := do
  receipt.verify codec key
  match assignments.get? receipt.attemptKey with
  | none =>
    .error (.immutableConflict ("unauthorized receipt " ++ attemptText receipt.attemptKey))
  | some assignment => do
    validateReceiptBinding codec proof.manifest proof.plan assignment receipt
    match dispositions.get? receipt.attemptKey with
    | none =>
      .error (.missingRecord ("attempt disposition " ++ attemptText receipt.attemptKey))
    | some disposition => validateReceiptDisposition codec disposition receipt

def receiptIndexing : Indexing ShardReceipt AttemptKey ShardReceipt ParallelProofError where
  check := checkReceipt codec key proof assignments dispositions
  conflict receipt := .immutableConflict ("receipt " ++ attemptText receipt.attemptKey)
  key := ShardReceipt.attemptKey
  value := id

def indexReceipts (receipts : List ShardReceipt) : Checked (SortedMap AttemptKey ShardReceipt) :=
  (receiptIndexing codec key proof assignments dispositions).run receipts SortedMap.empty

def checkDisposition (disposition : AttemptDisposition) : Checked Unit :=
  match assignments.get? disposition.attemptKey with
  | none =>
    .error (.immutableConflict
      ("unauthorized disposition " ++ attemptText disposition.attemptKey))
  | some assignment => disposition.verify codec key assignment

def dispositionIndexing :
    Indexing AttemptDisposition AttemptKey AttemptDisposition ParallelProofError where
  check := checkDisposition codec key assignments
  conflict disposition :=
    .immutableConflict ("attempt disposition " ++ attemptText disposition.attemptKey)
  key := AttemptDisposition.attemptKey
  value := id

def indexDispositions (dispositions : List AttemptDisposition) :
    Checked (SortedMap AttemptKey AttemptDisposition) :=
  (dispositionIndexing codec key assignments).run dispositions SortedMap.empty

end Indexing

end Shipyard.ParallelProof
