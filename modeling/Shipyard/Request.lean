import Shipyard.Job

/-!
# Queued execution requests

The durable request envelope that a submitter writes beside its queue row
(`queue_request.rs`), reduced to the fields that the queue and the scheduler
read. The store is the function its `load` computes.
-/

namespace Shipyard

inductive QueuedExecutionKind where
  | run
  | ship
deriving DecidableEq, Repr

/-- Which executor class a request was submitted to. -/
inductive QueuedExecutionOwner where
  | legacyUnspecified
  | foreground
  | daemon
deriving DecidableEq, Repr

/-- Slots of a host pool that one logical target needs. -/
structure HostPoolDemand where
  poolName : String
  requires : List String := []
  slots : Nat := 1
  capabilityKey : String := ""
deriving DecidableEq, Repr

structure VmSlotDemand where
  key : String
  slots : Nat := 1
deriving DecidableEq, Repr

/-- The scheduler's view of what a job occupies while it runs. -/
structure JobResourcePlan where
  targets : List String
  exclusiveClaims : List String := []
  cloudTargets : List String := []
  hostPools : List HostPoolDemand := []
  vmSlots : List VmSlotDemand := []
deriving DecidableEq, Repr

structure QueuedRunRequest where
  branch : String
  sha : String
  mode : ValidationMode
  targets : List String
deriving DecidableEq, Repr

structure QueuedShipRequest where
  pr : Nat
  repo : String
  branch : String
  sha : String
  mode : ValidationMode
  advisoryTargets : List String := []
  targets : List String
deriving DecidableEq, Repr

inductive QueuedExecutionRequest where
  | run (request : QueuedRunRequest)
  | ship (request : QueuedShipRequest)
deriving DecidableEq, Repr

/-- A durable request envelope. `configSignature` is the one field of the
captured provenance that ownership decisions read. -/
structure QueuedExecutionEnvelope where
  jobId : String
  kind : QueuedExecutionKind
  cwd : String
  executionOwner : QueuedExecutionOwner := .legacyUnspecified
  configSignature : Option String := none
  resourcePlan : JobResourcePlan
  request : QueuedExecutionRequest
deriving DecidableEq, Repr

/-- What `QueueRequestStore::load` answers, with the file system's path
canonicalisation. -/
structure QueueRequestStore where
  load : String → Except String (Option QueuedExecutionEnvelope)
  canonicalize : String → String

/-- The characters `str::trim` removes. -/
def isWhitespace (c : Char) : Bool :=
  (0x9 ≤ c.toNat && c.toNat ≤ 0xD) || (0x2000 ≤ c.toNat && c.toNat ≤ 0x200A) ||
    c.toNat ∈ [0x20, 0x85, 0xA0, 0x1680, 0x2028, 0x2029, 0x202F, 0x205F, 0x3000]

/-- Canonical repository slug: trimmed, in lower case. -/
def canonicalRepository (repository : String) : String :=
  let trimmed := (repository.toList.dropWhile isWhitespace).reverse.dropWhile isWhitespace
  String.ofList (trimmed.reverse.map Char.toLower)

namespace QueuedExecutionEnvelope

def isDaemonOwned (envelope : QueuedExecutionEnvelope) : Bool :=
  envelope.executionOwner = .daemon

def isDaemonAdmissible (envelope : QueuedExecutionEnvelope) : Bool :=
  (envelope.executionOwner = .daemon || envelope.executionOwner = .legacyUnspecified) &&
    envelope.configSignature.isSome

def isForegroundOwned (envelope : QueuedExecutionEnvelope) : Bool :=
  envelope.executionOwner = .foreground ||
    (envelope.executionOwner = .legacyUnspecified && envelope.configSignature.isNone)

/-- The stable supersedence identity of a request. -/
def workloadScope (store : QueueRequestStore) (envelope : QueuedExecutionEnvelope) : String :=
  match envelope.request with
  | .run _ => "run:" ++ store.canonicalize envelope.cwd
  | .ship request =>
    "ship:" ++ canonicalRepository request.repo ++ ":pr-" ++ toString request.pr

end QueuedExecutionEnvelope

end Shipyard
