import Shipyard.Request
import Shipyard.Ship.Reviewer

/-!
# Work items of external agents

An agent registers a work item, claims it for the length of a lease and saves
checkpoints while its claim is the latest one. Every write names the version it
expects and advances it; every claim takes a new owner epoch. Counters are `u64`
values whose additions saturate. Each call runs under the lock of its key.
-/

namespace Shipyard.Ship

open Lib

/-- `u64::saturating_add(1)`. -/
def saturatingSucc (n : Nat) : Nat := min (n + 1) u64Max

structure WorkItemKey where
  repository : String
  base : String
  workKind : String
  externalId : String
deriving DecidableEq, Repr

structure WorkItemOwner where
  host : String
  session : String
  epoch : Nat
  expiresAt : Time
  capabilityVersion : String
deriving DecidableEq, Repr

structure WorkItemCheckpoint where
  generation : Nat
  headOrInputDigest : String
  completedSteps : List String
  nextAction : String
  blockers : List String
  remoteReceipt : Option String
deriving DecidableEq, Repr

/-- The lifecycle states the operations write. -/
inductive WorkItemPhase where
  | planned
  | claimed
  | checkpointed
deriving DecidableEq, Repr

structure WorkItem where
  schemaVersion : Nat
  key : WorkItemKey
  generation : Nat
  stateVersion : Nat
  state : WorkItemPhase
  protocolVersion : String
  capabilityVersion : String
  idempotencyKey : String
  owner : Option WorkItemOwner
  checkpoint : Option WorkItemCheckpoint
  createdAt : Time
  updatedAt : Time
deriving DecidableEq, Repr

def workItemSchemaVersion : Nat := 1

/-! ## Keys -/

/-- `char::is_control`. -/
def isControl (c : Char) : Bool := c.toNat < 0x20 || (0x7F ≤ c.toNat && c.toNat ≤ 0x9F)

def isSlugChar (more : List Char) (c : Char) : Bool := c.isLower || c.isDigit || more.contains c

def isValidRepositorySlug (value : String) : Bool :=
  let canonical := (canonicalRepository value).toList
  match canonical.dropWhile (· ≠ '/') with
  | [] => false
  | _ :: repository =>
    let owner := canonical.takeWhile (· ≠ '/')
    !repository.contains '/' && !owner.isEmpty && !repository.isEmpty &&
      owner.all (isSlugChar ['-']) && repository.all (isSlugChar ['-', '_', '.'])

/-- A field that `str::trim` leaves as it is, without control characters. -/
def isPlainField (value : String) : Bool :=
  !value.toList.isEmpty && !value.toList.any isControl &&
    !value.toList.head?.any isWhitespace && !value.toList.getLast?.any isWhitespace

variable (key : WorkItemKey) (item : WorkItem)

def validateWorkItemKey : Except String Unit :=
  if !isValidRepositorySlug key.repository ∨
      key.repository ≠ canonicalRepository key.repository then
    .error "work item repository must be a canonical owner/repository slug"
  else if [key.base, key.workKind, key.externalId].any fun value => !isPlainField value then
    .error "work item key fields must be non-empty and whitespace-free"
  else .ok ()

def validateWorkItemSchema (item : WorkItem) : Except String Unit :=
  if item.schemaVersion ≠ workItemSchemaVersion then
    .error ("unsupported work-item schema " ++ toString item.schemaVersion)
  else validateWorkItemKey item.key

/-! ## Operations -/

/-- The file of one key after a call, and what the call returns. -/
abbrev WorkItemResult := Option WorkItem × Except String WorkItem

/-- `get_unlocked_work_item`. -/
def getUnlockedWorkItem (stored : Option WorkItem) : Except String (Option WorkItem) :=
  match stored with
  | none => .ok none
  | some item =>
    match validateWorkItemSchema item with
    | .ok () => .ok (some item)
    | .error error => .error error

def registerWorkItem (protocolVersion capabilityVersion idempotencyKey : String) (now : Time)
    (stored : Option WorkItem) : WorkItemResult :=
  match validateWorkItemKey key with
  | .error error => (stored, .error error)
  | .ok () =>
    match getUnlockedWorkItem stored with
    | .error error => (stored, .error error)
    | .ok (some existing) =>
      if existing.key ≠ key ∨ existing.protocolVersion ≠ protocolVersion ∨
          existing.capabilityVersion ≠ capabilityVersion ∨
          existing.idempotencyKey ≠ idempotencyKey then
        (stored, .error "work item identity or protocol mismatch")
      else (stored, .ok existing)
    | .ok none =>
      let item : WorkItem :=
        { schemaVersion := workItemSchemaVersion
          key
          generation := 1
          stateVersion := 1
          state := .planned
          protocolVersion
          capabilityVersion
          idempotencyKey
          owner := none
          checkpoint := none
          createdAt := now
          updatedAt := now }
      (some item, .ok item)

/-- The epoch of the next owner. -/
def WorkItem.nextEpoch : Nat :=
  match item.owner with
  | some current => saturatingSucc current.epoch
  | none => item.generation

/-- The item as a new owner holds it. -/
def WorkItem.claimedBy (owner : WorkItemOwner) (now : Time) : WorkItem :=
  { item with
    owner := some { owner with epoch := item.nextEpoch }
    state := .claimed
    stateVersion := saturatingSucc item.stateVersion
    updatedAt := now }

def claimWorkItem (owner : WorkItemOwner) (expectedStateVersion : Nat) (now : Time)
    (stored : Option WorkItem) : WorkItemResult :=
  match validateWorkItemKey key with
  | .error error => (stored, .error error)
  | .ok () =>
    match getUnlockedWorkItem stored with
    | .error error => (stored, .error error)
    | .ok none => (stored, .error "work item is not registered")
    | .ok (some item) =>
      if item.key ≠ key then (stored, .error "work item identity mismatch")
      else if item.stateVersion ≠ expectedStateVersion then
        (stored, .error "work item state version conflict")
      else if owner.capabilityVersion ≠ item.capabilityVersion then
        (stored, .error "work item owner capability mismatch")
      else if item.owner.any fun current => now < current.expiresAt then
        (stored, .error "work item is already claimed")
      else (some (item.claimedBy owner now), .ok (item.claimedBy owner now))

def WorkItem.checkpointedWith (checkpoint : WorkItemCheckpoint) (now : Time) : WorkItem :=
  { item with
    checkpoint := some checkpoint
    state := .checkpointed
    stateVersion := saturatingSucc item.stateVersion
    updatedAt := now }

def checkpointWorkItem (epoch : Nat) (checkpoint : WorkItemCheckpoint) (expectedStateVersion : Nat)
    (now : Time) (stored : Option WorkItem) : WorkItemResult :=
  match validateWorkItemKey key with
  | .error error => (stored, .error error)
  | .ok () =>
    match getUnlockedWorkItem stored with
    | .error error => (stored, .error error)
    | .ok none => (stored, .error "work item is not registered")
    | .ok (some item) =>
      if item.key ≠ key ∨ item.owner.all (fun owner => owner.epoch ≠ epoch) then
        (stored, .error "stale or missing work-item owner epoch")
      else if item.stateVersion ≠ expectedStateVersion then
        (stored, .error "work item state version conflict")
      else if item.owner.any fun owner => owner.expiresAt ≤ now then
        (stored, .error "work item owner lease has expired")
      else if checkpoint.generation ≠ item.generation then
        (stored, .error "checkpoint generation is stale")
      else
        (some (item.checkpointedWith checkpoint now),
          .ok (item.checkpointedWith checkpoint now))

/-! ## Calls and runs -/

inductive WorkCall where
  | register (protocolVersion capabilityVersion idempotencyKey : String) (now : Time)
  | claim (owner : WorkItemOwner) (expectedStateVersion : Nat) (now : Time)
  | checkpoint (epoch : Nat) (checkpoint : WorkItemCheckpoint) (expectedStateVersion : Nat)
      (now : Time)
deriving DecidableEq, Repr

namespace WorkCall

def now : WorkCall → Time
  | .register _ _ _ now => now
  | .claim _ _ now => now
  | .checkpoint _ _ _ now => now

/-- The version a claim or checkpoint expects. -/
def expected? : WorkCall → Option Nat
  | .register .. => none
  | .claim _ expected _ => some expected
  | .checkpoint _ _ expected _ => some expected

def isClaim : WorkCall → Bool
  | .claim .. => true
  | _ => false

def perform (key : WorkItemKey) (stored : Option WorkItem) : WorkCall → WorkItemResult
  | .register protocolVersion capabilityVersion idempotencyKey now =>
    registerWorkItem key protocolVersion capabilityVersion idempotencyKey now stored
  | .claim owner expected now => claimWorkItem key owner expected now stored
  | .checkpoint epoch saved expected now =>
    checkpointWorkItem key epoch saved expected now stored

end WorkCall

/-- A call that succeeded, and the item it returned. -/
structure Success where
  call : WorkCall
  item : WorkItem
deriving DecidableEq, Repr

/-- The file of the key, the latest clock reading and the successful calls so far. -/
structure WorkState where
  stored : Option WorkItem
  clock : Time
  successes : List Success
deriving DecidableEq, Repr

namespace WorkState

/-- After a call that succeeded. -/
def record (s : WorkState) (stored : Option WorkItem) (call : WorkCall) (item : WorkItem) :
    WorkState :=
  { stored, clock := call.now, successes := s.successes ++ [⟨call, item⟩] }

/-- Clock readings do not go back. -/
def exec (key : WorkItemKey) (s : WorkState) (call : WorkCall) : Option WorkState :=
  if call.now < s.clock then none
  else
    match call.perform key s.stored with
    | (stored, .ok item) => some (s.record stored call item)
    | (stored, .error _) => some { s with stored, clock := call.now }

/-- The versions that the successful claims and checkpoints expected. -/
def expectedVersions (s : WorkState) : List Nat := s.successes.filterMap fun success =>
  success.call.expected?

/-- The owners that the successful claims installed. -/
def claimedOwners (s : WorkState) : List WorkItemOwner := s.successes.filterMap fun success =>
  if success.call.isClaim then success.item.owner else none

end WorkState

/-- The calls on one key that is not registered yet. -/
def workMachine : Machine WorkState WorkCall where
  init s := s.stored = none ∧ s.successes = []
  exec := WorkState.exec key

/-! ## What a call does -/

section Perform

variable {key : WorkItemKey} {stored stored' : Option WorkItem} {item : WorkItem}

theorem eq_of_getUnlockedWorkItem {read : Option WorkItem}
    (hread : getUnlockedWorkItem stored = .ok read) : read = stored := by
  unfold getUnlockedWorkItem at hread
  split at hread
  · exact (Except.ok.inj hread).symm
  · split at hread
    · exact (Except.ok.inj hread).symm
    · cases hread

/-- A successful claim replaces no live owner and expects the stored version. -/
structure ClaimedFrom (owner : WorkItemOwner) (expected : Nat) (now : Time) (before : WorkItem) :
    Prop where
  version : before.stateVersion = expected
  expired : ∀ current, before.owner = some current → current.expiresAt ≤ now

/-- A successful checkpoint is made by the live owner at the stored version. -/
structure CheckpointedFrom (epoch : Nat) (checkpoint : WorkItemCheckpoint) (expected : Nat)
    (now : Time) (before : WorkItem) : Prop where
  version : before.stateVersion = expected
  owned : ∃ owner, before.owner = some owner ∧ owner.epoch = epoch ∧ now < owner.expiresAt
  generation : checkpoint.generation = before.generation

/-- What a successful call finds and leaves. -/
def Performed (stored : Option WorkItem) (call : WorkCall) (item : WorkItem) : Prop :=
  match call with
  | .register .. => stored = some item ∨
      stored = none ∧ item.owner = none ∧ item.stateVersion = 1 ∧ item.generation = 1
  | .claim owner expected now =>
    ∃ before, stored = some before ∧ ClaimedFrom owner expected now before ∧
      item = before.claimedBy owner now
  | .checkpoint epoch checkpoint expected now =>
    ∃ before, stored = some before ∧ CheckpointedFrom epoch checkpoint expected now before ∧
      item = before.checkpointedWith checkpoint now

/-- A failed call leaves the file, and a successful one stores what it returns. -/
def Outcome (stored : Option WorkItem) (call : WorkCall) (result : WorkItemResult) : Prop :=
  (∃ error, result.2 = .error error) ∧ result.1 = stored ∨
    ∃ item, result.2 = .ok item ∧ result.1 = some item ∧ Performed stored call item

theorem Outcome.failed {call : WorkCall} (error : String) :
    Outcome stored call (stored, .error error) :=
  .inl ⟨⟨error, rfl⟩, rfl⟩

theorem Outcome.returned {call : WorkCall} (hperformed : Performed stored call item) :
    Outcome stored call (some item, .ok item) :=
  .inr ⟨item, rfl, rfl, hperformed⟩

theorem registerWorkItem_outcome (protocolVersion capabilityVersion idempotencyKey : String)
    (now : Time) :
    Outcome stored (.register protocolVersion capabilityVersion idempotencyKey now)
      (registerWorkItem key protocolVersion capabilityVersion idempotencyKey now stored) := by
  unfold registerWorkItem
  split
  next error _ => exact .failed error
  · split
    next error _ => exact .failed error
    next existing hread =>
      -- A repeated registration returns the item as it is stored.
      obtain rfl := eq_of_getUnlockedWorkItem hread
      split
      · exact .failed _
      · exact .returned (.inl rfl)
    next hread =>
      exact .returned (.inr ⟨(eq_of_getUnlockedWorkItem hread).symm, rfl, rfl, rfl⟩)

theorem claimWorkItem_outcome (owner : WorkItemOwner) (expected : Nat) (now : Time) :
    Outcome stored (.claim owner expected now) (claimWorkItem key owner expected now stored) := by
  unfold claimWorkItem
  split
  next error _ => exact .failed error
  · split
    next error _ => exact .failed error
    · exact .failed _
    next before hread =>
      have hstored := (eq_of_getUnlockedWorkItem hread).symm
      split_ifs with hkey hversion hcapability hlive
      · exact .failed _
      · exact .failed _
      · exact .failed _
      · exact .failed _
      · refine .returned ⟨before, hstored, ⟨not_not.mp hversion, ?_⟩, rfl⟩
        intro current hcurrent
        simpa [hcurrent] using hlive

theorem checkpointWorkItem_outcome (epoch : Nat) (checkpoint : WorkItemCheckpoint)
    (expected : Nat) (now : Time) :
    Outcome stored (.checkpoint epoch checkpoint expected now)
      (checkpointWorkItem key epoch checkpoint expected now stored) := by
  unfold checkpointWorkItem
  split
  next error _ => exact .failed error
  · split
    next error _ => exact .failed error
    · exact .failed _
    next before hread =>
      have hstored := (eq_of_getUnlockedWorkItem hread).symm
      split_ifs with hkey hversion hlive hgeneration
      · exact .failed _
      · exact .failed _
      · exact .failed _
      · exact .failed _
      · refine .returned ⟨before, hstored,
          ⟨not_not.mp hversion, ?_, not_not.mp hgeneration⟩, rfl⟩
        -- An item without an owner fails the epoch check before the lease is read.
        cases howner : before.owner with
        | none => simp [howner] at hkey
        | some owner =>
          simp only [howner, Option.all_some, Option.any_some, not_or, decide_eq_true_eq, not_not,
            not_le] at hkey hlive
          exact ⟨owner, rfl, hkey.2, hlive⟩

theorem perform_outcome (key : WorkItemKey) (stored : Option WorkItem) (call : WorkCall) :
    Outcome stored call (call.perform key stored) := by
  cases call with
  | register =>
    rw [WorkCall.perform]
    exact registerWorkItem_outcome _ _ _ _
  | claim =>
    rw [WorkCall.perform]
    exact claimWorkItem_outcome _ _ _
  | checkpoint =>
    rw [WorkCall.perform]
    exact checkpointWorkItem_outcome _ _ _ _

end Perform

end Shipyard.Ship
