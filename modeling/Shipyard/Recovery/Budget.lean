import Shipyard.Recovery.Operations

/-!
# One claim for each head

Over every sequence of store operations, with the process stopped anywhere
between two writes, a head is claimed once: unless a superseded record is
superseded again while another record owns its head, or the process stops
between a new record and its index entry while the index names another one.
-/

namespace Shipyard.Recovery

open Lib Lib.Disk Contract

variable {files : RecoveryFiles} {store : RecoveryStore}

/-- The two steps after which a head's owner is out of sight. -/
def keepsHeads (s : StoreState) : StoreLabel → Bool
  | .call (.supersede id _ _ _) => !RecoveryFiles.hidesOwner s.disk id
  | .call _ => true
  | .write => true
  | .stop =>
    match s.writes with
    | [] => true
    | write :: _ => !RecoveryFiles.losesIndex s.disk write

abbrev KeepsHeads (s : StoreState) (label : StoreLabel) : Prop := keepsHeads s label = true

theorem empty_inv : RecoveryFiles.empty.Inv := by
  have hview : ∀ id, RecoveryFiles.empty.view id = none := fun _ => rfl
  have hhas : ∀ head id record, ¬RecoveryFiles.empty.table.Has head id record := by
    intro head id record hhas
    exact nomatch (hview id).symm.trans hhas.1
  constructor
  case wellFormed =>
    constructor
    case activeId => exact fun hactive => nomatch hactive
    case archivedId => exact fun harchived => nomatch harchived
    case archivedTerminal => exact fun harchived => nomatch harchived
    case sameHead => exact fun hactive => nomatch hactive
    case claimSpent => exact fun hclaim => nomatch hclaim
    case indexed => exact fun _ hrecord => absurd hrecord (hhas _ _ _)
  case table =>
    constructor
    case owner => exact fun howner => nomatch howner
    case others => exact fun howner => nomatch howner
    case unique => exact fun _ hrecord => absurd hrecord (hhas _ _ _)
    case spent => exact fun hclaimed => nomatch hclaimed

/-- Every operation is safe to stop wherever the store is at rest. -/
theorem wp_perform {s : StoreState} {operation : Operation}
    (hkeeps : KeepsHeads s (.call operation)) (hclaims : headContract.always s.disk)
    (hinv : headContract.atRest s.disk) :
    headContract.wp (store.perform operation) (fun _ _ => True) s.disk := by
  cases operation with
  | enqueue request now =>
    exact wp_map (wp_enqueue hclaims hinv)
  | begin id config generation now =>
    exact wp_map (wp_begin hclaims hinv)
  | complete id config output now =>
    exact wp_map (wp_complete hclaims hinv)
  | fail id config detail now =>
    exact wp_map (wp_fail hclaims hinv)
  | supersede id successor detail now =>
    have hidden : RecoveryFiles.hidesOwner s.disk id = false := by
      simpa [KeepsHeads, keepsHeads] using hkeeps
    exact wp_map (wp_supersede hclaims hinv hidden)
  | supersedeActiveTarget repo pr headSha detail now =>
    exact wp_map (wp_read_bind hclaims hinv
        fun _ _ => wp_supersedeEach hclaims hinv)
  | reconcileStaleRunning cutoff detail now =>
    exact wp_map (wp_reconcileRunningWhere hclaims hinv)
  | reconcileOrphanedRunning detail now =>
    exact wp_map (wp_reconcileRunningWhere hclaims hinv)
  | deferPending id config detail now =>
    exact wp_map (wp_deferPending hclaims hinv)

/-- In every run that keeps the heads' owners in sight, no head is claimed twice. -/
theorem head_claimed_at_most_once {s : StoreState}
    (hreach : (storeMachine store).ReachableWhen KeepsHeads s) (head : HeadKey) :
    (RecoveryFiles.claimed s.disk).count head ≤ 1 := by
  refine processMachine_always (C := headContract) ?_ ?_ ?_ hreach head
  · rintro disk rfl
    exact ⟨fun _ => Nat.zero_le 1, empty_inv⟩
  · intro s operation hkeeps hclaims hinv
    exact wp_perform hkeeps hclaims hinv
  · intro s write rest hkeeps hwrites
    change RecoveryFiles.losesIndex s.disk write = false
    simpa [KeepsHeads, keepsHeads, hwrites] using hkeeps

/-! ## Runs -/

/-- A call and the given number of its writes. -/
def performed (operation : Operation) (writes : Nat) : List StoreLabel :=
  .call operation :: List.replicate writes .write

def sampleStore : RecoveryStore := { validateRequest := fun _ => .ok () }

/-- Requests for one head that differ in their failure evidence. -/
def sampleRequest (id fingerprint : String) : RecoveryRequest where
  id := id
  repo := "acme/widgets"
  pr := 7
  baseRef := "main"
  headSha := "0123456789abcdef0123456789abcdef01234567"
  mergeQueue := false
  optOutLabel := "shipyard:no-auto-merge"
  failureFingerprint := fingerprint
  failureSummary := "required check failed"
  requiredChecks := [⟨"build", none⟩]
  failureFacts := [.requiredCheck "build" none "FAILURE" none]
  policySignature := "policy"
  configSignature := "config"
  createdAt := 0

def first : String := String.ofList (List.replicate 64 'a')
def second : String := String.ofList (List.replicate 64 'b')
def third : String := String.ofList (List.replicate 64 'c')

def storeStart : StoreState := ⟨RecoveryFiles.empty, []⟩

/-- The second request supersedes the first, the first is superseded once more,
the third request finds the first one and not the second. -/
def supersededTwice : List StoreLabel :=
  performed (.enqueue (sampleRequest first "f1") 1) 3 ++
  performed (.enqueue (sampleRequest second "f2") 2) 7 ++
  performed (.supersede first none "stale" 3) 4 ++
  performed (.enqueue (sampleRequest third "f3") 4) 3 ++
  performed (.begin second "config" "g1" 5) 4 ++
  performed (.begin third "config" "g2" 6) 4

/-- The process stops after the second request's record, before its index entry. -/
def stoppedBeforeIndex : List StoreLabel :=
  performed (.enqueue (sampleRequest first "f1") 1) 3 ++
  performed (.enqueue (sampleRequest second "f2") 2) 5 ++
  .stop :: performed (.enqueue (sampleRequest third "f3") 4) 3 ++
  performed (.begin second "config" "g1" 5) 4 ++
  performed (.begin third "config" "g2" 6) 4

/-- The process is never stopped. -/
abbrev NeverStopped (_ : StoreState) (label : StoreLabel) : Prop := label ≠ .stop

def callsSupersede : StoreLabel → Bool
  | .call (.supersede ..) => true
  | _ => false

/-- No call supersedes a record by its id. -/
abbrev NeverSuperseded (_ : StoreState) (label : StoreLabel) : Prop :=
  callsSupersede label = false

def afterSupersededTwice : StoreState :=
  ((storeMachine sampleStore).execAll NeverStopped storeStart supersededTwice).get
    (by decide +kernel)

def afterStoppedBeforeIndex : StoreState :=
  ((storeMachine sampleStore).execAll NeverSuperseded storeStart stoppedBeforeIndex).get
    (by decide +kernel)

/-- Either step alone lets two requests claim one head. -/
theorem head_claimed_twice :
    (∃ s, (storeMachine sampleStore).ReachableWhen NeverStopped s ∧
      (RecoveryFiles.claimed s.disk).count (sampleRequest first "f1").head = 2) ∧
    ∃ s, (storeMachine sampleStore).ReachableWhen NeverSuperseded s ∧
      (RecoveryFiles.claimed s.disk).count (sampleRequest first "f1").head = 2 := by
  refine ⟨⟨afterSupersededTwice, ?_, by decide +kernel⟩,
    ⟨afterStoppedBeforeIndex, ?_, by decide +kernel⟩⟩
  · exact .of_execAll ⟨rfl, rfl⟩ (Option.some_get _).symm
  · exact .of_execAll ⟨rfl, rfl⟩ (Option.some_get _).symm

/-- The process stops after the claim; the worker begins again, and a second
request finds the head's attempt spent. -/
def stoppedAfterClaim : List StoreLabel :=
  performed (.enqueue (sampleRequest first "f1") 1) 3 ++
  performed (.begin first "config" "g1" 2) 1 ++
  .stop :: performed (.begin first "config" "g1" 3) 3 ++
  performed (.enqueue (sampleRequest second "f2") 4) 4 ++
  performed (.supersede first none "stale" 5) 4

def afterStoppedAfterClaim : StoreState :=
  ((storeMachine sampleStore).execAll KeepsHeads storeStart stoppedAfterClaim).get
    (by decide +kernel)

theorem interrupted_begin_claims_once :
    RecoveryFiles.claimed afterStoppedAfterClaim.disk = [(sampleRequest first "f1").head] ∧
      ∀ head, (RecoveryFiles.claimed afterStoppedAfterClaim.disk).count head ≤ 1 :=
  ⟨by decide +kernel,
    head_claimed_at_most_once (.of_execAll ⟨rfl, rfl⟩ (Option.some_get _).symm)⟩

end Shipyard.Recovery
