import Shipyard.ParallelProof.Plan

/-!
# The manifest of a proof

The manifest binds a source, a build, an artifact and a trust policy to an inventory and a
plan by their digests. Every operation on attempts starts from a validated context.
-/

namespace Shipyard.ParallelProof

open Lib

def isLowerHex (c : Char) : Bool := c.isDigit || ('a' ≤ c && c ≤ 'f')

def validateGitSha (field value : String) : Checked Unit :=
  require ((value.toList.length = 40 ∨ value.toList.length = 64) ∧
    value.toList.all isLowerHex = true) (.invalidField field)

def validRepositoryComponent (component : List Char) : Bool :=
  !component.isEmpty && component.any Char.isAlphanum &&
    component.all fun c => c.isLower || c.isDigit || ['-', '_', '.'].contains c

/-- The slug has exactly two components. -/
def validRepository (repository : String) : Bool :=
  match repository.toList.splitOn '/' with
  | [owner, name] => validRepositoryComponent owner && validRepositoryComponent name
  | _ => false

def validateSubject : ProofSubject → Checked Unit
  | .pullRequest number => require (0 < number) (.invalidField "pull request number")
  | .mergeGroup id => validateIdentifier "merge group id" id

def validateSource (source : SourceIdentity) : Checked Unit := do
  require (source.repositoryId ≠ 0) (.invalidField "repository id")
  validateIdentifier "repository" source.repository
  require (validRepository source.repository = true) (.invalidField "repository")
  validateSubject source.subject
  validateGitSha "head sha" source.headSha
  validateGitSha "tree sha" source.treeSha
  require (source.headSha.toList.length = source.treeSha.toList.length)
    (.invalidField "git object format")

def validateBuild (build : BuildIdentity) : Checked Unit := do
  validateIdentifier "target triple" build.targetTriple
  validateIdentifier "build profile" build.profile

def validateArtifact (artifact : ArtifactIdentity) : Checked Unit := do
  validateGitSha "artifact source tree" artifact.sourceTreeSha
  require (artifact.sizeBytes ≠ 0) (.invalidField "artifact size")

def validateTrust (trust : TrustIdentity) : Checked Unit :=
  require (¬ (trust.artifactClass = .untrustedContributor ∧
    (trust.executionBoundary ≠ .disposableGuest ∨ trust.networkEnabled = true ∨
      trust.writableHostMounts = true))) (.invalidField "untrusted artifact boundary")

namespace ParallelProofManifest

variable (codec : Codec) (manifest : ParallelProofManifest) (inventory : TestInventory)
  (plan : ShardPlan)

def validate : Checked Unit := do
  validateVersion manifest.schemaVersion
  require (manifest.shadowOnly = true) (.invalidField "shadow_only")
  validateSource manifest.source
  validateBuild manifest.build
  validateArtifact manifest.artifact
  validateTrust manifest.trust
  require (manifest.artifact.sourceTreeSha = manifest.source.treeSha)
    (.bindingMismatch "artifact source tree")
  require (manifest.artifact.buildContractSha256 = manifest.build.contractSha256)
    (.bindingMismatch "artifact build contract")
  let inventoryDigest ← inventory.digest codec
  require (manifest.inventoryDigest = inventoryDigest) (.bindingMismatch "manifest inventory")
  let planDigest ← plan.digest codec inventory
  require (manifest.planDigest = planDigest) (.bindingMismatch "manifest plan")

def digest : Checked Sha256Digest := do
  manifest.validate codec inventory plan
  pure (codec.canonicalDigest "shipyard.parallel-proof.manifest.v1" (.manifest manifest))

end ParallelProofManifest

def ParallelProofContext.validate (codec : Codec) (proof : ParallelProofContext) : Checked Unit :=
  proof.manifest.validate codec proof.inventory proof.plan

/-! ## Bindings -/

/-- The capabilities that the tests of a shard ask for. -/
def requiredCapabilities (inventory : TestInventory) (shard : TestShard) : List String :=
  let lookup := inventoryLookup inventory
  shard.testIds.flatMap fun id => (lookup.get? id).elim [] TestCase.requiredCapabilities

structure ValidatedShardBinding where
  digest : Sha256Digest
  requiredCapabilities : List String
  executionMode : ShardExecutionMode

structure ValidatedProofBindings where
  manifestDigest : Sha256Digest
  inventoryDigest : Sha256Digest
  planDigest : Sha256Digest
  shards : List ValidatedShardBinding

namespace ValidatedProofBindings

def shardDigest (codec : Codec) (shard : TestShard) : Sha256Digest :=
  codec.canonicalDigest "shipyard.parallel-proof.shard.v1" (.shard shard)

def fromValidated (codec : Codec) (proof : ParallelProofContext) : ValidatedProofBindings where
  manifestDigest :=
    codec.canonicalDigest "shipyard.parallel-proof.manifest.v1" (.manifest proof.manifest)
  inventoryDigest :=
    codec.canonicalDigest "shipyard.parallel-proof.inventory.v1" (.inventory proof.inventory)
  planDigest := codec.canonicalDigest "shipyard.parallel-proof.plan.v1" (.plan proof.plan)
  shards := proof.plan.shards.map fun shard => {
    digest := shardDigest codec shard
    requiredCapabilities := requiredCapabilities proof.inventory shard
    executionMode := shard.executionMode }

def shard (bindings : ValidatedProofBindings) (shardId : Nat) : Option ValidatedShardBinding :=
  bindings.shards[shardId]?

end ValidatedProofBindings

/-! ## What a validated context is -/

section Context

variable {codec : Codec} {proof : ParallelProofContext}

/-- The plan of a validated context partitions its inventory. -/
theorem ParallelProofContext.validate_spec (hvalid : proof.validate codec = .ok ()) :
    Partitions proof.plan proof.inventory := by
  unfold ParallelProofContext.validate ParallelProofManifest.validate ShardPlan.digest at hvalid
  simp only [Except.bind_eq_ok, exists_unit] at hvalid
  obtain ⟨_, _, _, _, _, _, _, _, _, _, _, _, ⟨hplan, _⟩, _⟩ := hvalid
  exact (ShardPlan.validateAgainst_spec hplan).2

end Context

end Shipyard.ParallelProof
