import Shipyard.ParallelProof.Attempts

/-!
# What is accepted is verified

A receipt that `accept_worker_report` returns passes every check of its consumer: its own
verification under the same key, and the binding to the assignment and to the disposition
that the controller mints for the same observation.
-/

namespace Shipyard.ParallelProof

open Lib Lib.Except

theorem receiptStatus_eq_passed {passed : Bool} :
    receiptStatus passed = .passed ↔ passed = true := by
  cases passed <;> simp [receiptStatus]

theorem allPassed_eq_true {outcomes : List TestOutcome} :
    allPassed outcomes = true ↔ ∀ outcome ∈ outcomes, outcome.status = .passed := by
  simp [allPassed]

section Acceptance

variable {codec : Codec} {key : ControllerKey} {proof : ParallelProofContext}
  {assignment : ControllerAssignment} {worker : AuthenticatedWorker}
  {observation : ControllerExecutionObservation} {report : WorkerReport} {receipt : ShardReceipt}
  {disposition : AttemptDisposition}

/-- What an accepted report went through. -/
structure Accepted (codec : Codec) (key : ControllerKey) (proof : ParallelProofContext)
    (assignment : ControllerAssignment) (observation : ControllerExecutionObservation)
    (report : WorkerReport) (shard : TestShard) (disposition : AttemptDisposition) : Prop where
  context : proof.validate codec = .ok ()
  binding : validateAssignmentBindingCached proof.manifest (.fromValidated codec proof)
    assignment = .ok ()
  ofShard : proof.plan.shard assignment.claims.shardId = some shard
  observed : observation.executionBoundary = assignment.claims.executionBoundary
  tests : report.outcomes.map TestOutcome.testId = shard.testIds
  executed : AttemptDisposition.executed codec key assignment observation = .ok disposition
  structural : (issueReceipt codec key proof.manifest assignment observation report
    disposition).validateStructural codec = .ok ()

theorem acceptWorkerReport_spec
    (haccept : acceptWorkerReport codec key proof assignment worker observation report =
      .ok receipt) :
    ∃ shard disposition,
      Accepted codec key proof assignment observation report shard disposition ∧
        receipt = issueReceipt codec key proof.manifest assignment observation report
          disposition := by
  unfold acceptWorkerReport validateAssignmentBinding at haccept
  simp only [bind_eq_ok, exists_unit, require_eq_ok] at haccept
  obtain ⟨hcontext, _, _, ⟨_, hbinding⟩, _, haccept⟩ := haccept
  cases hshard : proof.plan.shard assignment.claims.shardId with
  | none => simp [hshard] at haccept
  | some shard =>
    simp only [hshard, bind_eq_ok, exists_unit, pure_eq_ok] at haccept
    obtain ⟨_, hobservation, houtcomes, disposition, hexecuted, hstructural, rfl⟩ := haccept
    rw [validateControllerObservation, check_eq_ok, require_eq_ok] at hobservation
    unfold validateReportOutcomes at houtcomes
    simp only [bind_eq_ok, exists_unit, require_eq_ok] at houtcomes
    exact ⟨shard, disposition, ⟨hcontext, hbinding, hshard, hobservation.1, houtcomes.2.2.2,
      hexecuted, hstructural⟩, rfl⟩

theorem validateAssignmentBindingCached_spec {manifest : ParallelProofManifest}
    {bindings : ValidatedProofBindings}
    (hbinding : validateAssignmentBindingCached manifest bindings assignment = .ok ()) :
    assignment.claims.artifactSha256 = manifest.artifact.payloadSha256 := by
  unfold validateAssignmentBindingCached at hbinding
  cases hshard : bindings.shard assignment.claims.shardId with
  | none => simp [hshard] at hbinding
  | some shard =>
    simp only [hshard, check_eq_ok, require_eq_ok] at hbinding
    exact hbinding.1.2.2.2.1

section Issued

variable {shard : TestShard}
  (haccepted : Accepted codec key proof assignment observation report shard disposition)

include haccepted

theorem Accepted.verify : (issueReceipt codec key proof.manifest assignment observation report
    disposition).verify codec key = .ok () := by
  rw [ShardReceipt.verify, check_eq_ok, check_eq_ok, require_eq_ok, require_eq_ok]
  exact ⟨haccepted.structural, rfl, rfl⟩

theorem Accepted.receiptBinding :
    validateReceiptBinding codec proof.manifest proof.plan assignment
      (issueReceipt codec key proof.manifest assignment observation report disposition) =
        .ok () := by
  have hartifact := validateAssignmentBindingCached_spec haccepted.binding
  rw [validateReceiptBinding, haccepted.ofShard]
  exact require_eq_ok.mpr ⟨rfl, rfl, rfl, rfl, hartifact, rfl, rfl, rfl, rfl, rfl, rfl, rfl,
    haccepted.observed, haccepted.tests⟩

theorem Accepted.receiptDisposition :
    validateReceiptDisposition codec disposition
      (issueReceipt codec key proof.manifest assignment observation report disposition) =
        .ok () := by
  have hexecuted := haccepted.executed
  unfold AttemptDisposition.executed AttemptDisposition.mint at hexecuted
  simp only [bind_eq_ok, exists_unit, require_eq_ok, pure_eq_ok] at hexecuted
  obtain ⟨_, _, _, _, rfl⟩ := hexecuted
  exact require_eq_ok.mpr ⟨rfl, rfl, rfl, rfl, rfl⟩

end Issued

/-- A returned receipt passes its verification under the same key, is indexed with the
assignment and the executed disposition of the same observation, and passed exactly if
every outcome passed, the artifact was verified and the boundary check succeeded. -/
theorem accepted_receipt_is_verified
    (haccept : acceptWorkerReport codec key proof assignment worker observation report =
      .ok receipt) :
    receipt.verify codec key = .ok () ∧
      (∃ disposition,
        AttemptDisposition.executed codec key assignment observation = .ok disposition ∧
        ∀ assignments dispositions,
          assignments.get? assignment.attemptKey = some assignment →
          dispositions.get? assignment.attemptKey = some disposition →
          indexReceipts codec key proof assignments dispositions [receipt] =
            .ok (SortedMap.empty.insert assignment.attemptKey receipt)) ∧
      (receipt.status = .passed ↔
        (∀ outcome ∈ report.outcomes, outcome.status = .passed) ∧
          observation.artifactVerified = true ∧
          observationBoundaryPassed proof.manifest observation = true) := by
  obtain ⟨shard, disposition, haccepted, rfl⟩ := acceptWorkerReport_spec haccept
  refine ⟨haccepted.verify, ⟨disposition, haccepted.executed,
    fun assignments dispositions hassignment hdisposition => ?_⟩, ?_⟩
  · have hcheck : checkReceipt codec key proof assignments dispositions
        (issueReceipt codec key proof.manifest assignment observation report disposition) =
          .ok () := by
      have hkey : (issueReceipt codec key proof.manifest assignment observation report
          disposition).attemptKey = assignment.attemptKey := rfl
      simp only [checkReceipt, hkey, haccepted.verify, hassignment, hdisposition,
        haccepted.receiptBinding, haccepted.receiptDisposition]
      rfl
    rw [indexReceipts, Indexing.run, List.foldlM_cons, bind_eq_ok]
    exact ⟨_, Indexing.step_eq_ok.mpr ⟨hcheck, by simp, rfl⟩, rfl⟩
  · change receiptStatus (_ && _ && allPassed report.outcomes) = .passed ↔ _
    rw [receiptStatus_eq_passed, Bool.and_eq_true, Bool.and_eq_true, allPassed_eq_true, and_comm]

end Acceptance

/-! ## A proof of one test -/

/-- A codec that hashes everything to zero. -/
def zeroCodec : Codec where
  encode _ := []
  sha256 _ _ := .zero
  hmacSha256 _ _ _ := .zero

def sampleKey : ControllerKey where
  id := "controller-1"
  secret := List.replicate 32 7
  idValid := by decide +kernel
  secretLength := by decide

def sampleInventory : TestInventory where
  schemaVersion := parallelProofSchemaVersion
  tests := [{
    id := "unit", dependencies := [], fixtureSetup := [], fixtureRequired := [],
    fixtureCleanup := [], runSerial := false, resourceLocks := [], requiredCapabilities := [] }]

def samplePlan : ShardPlan where
  schemaVersion := parallelProofSchemaVersion
  inventoryDigest := .zero
  totalTests := 1
  shards := [⟨0, .parallel, ["unit"]⟩]

def sampleProof : ParallelProofContext where
  manifest := {
    schemaVersion := parallelProofSchemaVersion
    shadowOnly := true
    source := {
      repositoryId := 1, repository := "owner/name", subject := .pullRequest 7
      headSha := "0000000000000000000000000000000000000000"
      treeSha := "1111111111111111111111111111111111111111" }
    build := ⟨.zero, .zero, "aarch64-apple-darwin", "release"⟩
    artifact := ⟨"1111111111111111111111111111111111111111", .zero, .zero, .zero, 1⟩
    trust := ⟨.zero, .zero, .zero, .untrustedContributor, .disposableGuest, false, false⟩
    inventoryDigest := .zero
    planDigest := .zero }
  inventory := sampleInventory
  plan := samplePlan

def sampleWorker : AuthenticatedWorker := ⟨"mac-1", .zero, [], 1⟩

def sampleAssignment : ControllerAssignment where
  claims := {
    schemaVersion := parallelProofSchemaVersion
    manifestDigest := .zero, inventoryDigest := .zero, planDigest := .zero
    artifactSha256 := .zero
    shardId := 0
    shardDigest := .zero
    attempt := 1
    fence := 1
    hostId := "mac-1"
    workerIdentitySha256 := .zero
    capabilities := []
    sessionGeneration := 1
    executionMode := .parallel
    executionBoundary := .disposableGuest }
  controllerKeyId := "controller-1"
  authentication := .zero

def sampleObservation : ControllerExecutionObservation where
  startedAtMs := 10
  completedAtMs := 20
  artifactVerified := true
  executionBoundary := .disposableGuest
  guestTeardownConfirmed := true

def sampleReport : WorkerReport where
  schemaVersion := parallelProofSchemaVersion
  assignmentDigest := .zero
  observedArtifactSha256 := .zero
  observedBuildContractSha256 := .zero
  observedHeadSha := "0000000000000000000000000000000000000000"
  observedTreeSha := "1111111111111111111111111111111111111111"
  outcomes := [⟨"unit", .passed, 5⟩]
  logSha256 := .zero

example : ControllerAssignment.mint zeroCodec sampleKey sampleProof 0 1 1 sampleWorker =
    .ok sampleAssignment := by decide +kernel

def sampleDisposition : AttemptDisposition where
  schemaVersion := parallelProofSchemaVersion
  manifestDigest := .zero
  assignmentDigest := .zero
  shardId := 0
  attempt := 1
  fence := 1
  kind := .executed 10 20 .disposableGuest true
  controllerKeyId := "controller-1"
  authentication := .zero

def sampleReceipt : ShardReceipt :=
  issueReceipt zeroCodec sampleKey sampleProof.manifest sampleAssignment sampleObservation
    sampleReport sampleDisposition

theorem accepted_receipt_is_verified_for_sampleReport :
    acceptWorkerReport zeroCodec sampleKey sampleProof sampleAssignment sampleWorker
        sampleObservation sampleReport = .ok sampleReceipt ∧
      sampleReceipt.verify zeroCodec sampleKey = .ok () := by
  have haccept : acceptWorkerReport zeroCodec sampleKey sampleProof sampleAssignment sampleWorker
      sampleObservation sampleReport = .ok sampleReceipt := by decide +kernel
  exact ⟨haccept, (accepted_receipt_is_verified haccept).1⟩

end Shipyard.ParallelProof
