import Shipyard.Lib.SortedMap
import Shipyard.MergeSteward.Checks
import Shipyard.PrQueue.ArmGuard

/-!
# The admission decision of the merge steward

`classify_pr` leaves through a cascade of refusals and arms what is left.
Greenness is computed a second time on the way, by sorting every required rule
into buckets, with its own treatment of a pending approval and of a cancelled
run. The decision arms exactly the heads that are admissible and whose approval
is not awaited by a required rule.
-/

namespace Shipyard.MergeSteward

open Lib List
open PrQueue (eqIgnoreAsciiCase toAsciiUppercase toAsciiLowercase)

inductive DirectMergeRefusal where
  | requiredCheckMaterializationNotAuthoritative
  | validatedBaseRevisionNotAtomic
deriving DecidableEq, Repr

/-- Safe action selected for a pull request. -/
inductive StewardDecision where
  | unmanaged
  | handoffMissing
  | queued (position : Nat)
  | optedOut
  | excludedLabel (label : String)
  | provenanceBlocked (labels : List String)
  | draft
  | invalidHead
  | needsUpdate (mergeState : String)
  | waitingRequired (contexts : List String)
  | requiredFailed (contexts : List String)
  | rerunTransient (runIds : List Nat)
  | armMergeQueue
  | directMergeRefused (reasons : List DirectMergeRefusal)
deriving DecidableEq, Repr

/-! ## Labels and management -/

variable (pr : StewardPullRequest)

def hasPrLabel (expected : String) : Bool :=
  pr.labels.any fun label => eqIgnoreAsciiCase label expected

/-- Configured provenance blockers attached to the pull request. -/
def matchingProvenanceBlockers (policy : StewardPolicy) : List String :=
  policy.provenanceBlockingLabels.filter (hasPrLabel pr)

def classifyProvenance (policy : StewardPolicy) : Option StewardDecision :=
  let labels := matchingProvenanceBlockers pr policy
  if labels.isEmpty then none else some (.provenanceBlocked labels)

def ownerDecisionLabel : String := "owner-decision"

def supersededLabel : String := "superseded"

/-- How a `PARKED/<platform>` label starts, lower-cased. -/
def parkedLabelStart : String := "parked/"

/-- A fleet hold label: the owner has to act before the pull request is admitted. -/
def isHoldLabel (label : String) : Bool :=
  eqIgnoreAsciiCase label ownerDecisionLabel || eqIgnoreAsciiCase label supersededLabel ||
    parkedLabelStart.toList.isPrefixOf (toAsciiLowercase label).toList

def excludedAdmissionLabel (labels : List String) : Option String := labels.find? isHoldLabel

def classifyLabelExclusion (policy : StewardPolicy) : Option StewardDecision :=
  if hasPrLabel pr policy.optOutLabel then some .optedOut
  else (excludedAdmissionLabel pr.labels).map .excludedLabel

def normalizedAppLogin (author : List Char) : List Char :=
  if "app/".toList.isPrefixOf author then author.drop 4 else author

def isFleetApp (author : String) : Bool :=
  eqIgnoreAsciiCase (String.ofList (normalizedAppLogin author.toList)) "shipyard-local"

def isImplicitlyManaged : Bool := pr.author.any isFleetApp

def classifyManagement (policy : StewardPolicy) : Option StewardDecision :=
  match policy.managedLabel with
  | none => none
  | some managedLabel =>
    let labelled := hasPrLabel pr managedLabel
    if isImplicitlyManaged pr && !labelled then none
    else if !labelled then some .unmanaged
    else if hasSuccessfulStatus pr policy.handoffContext then none
    else some .handoffMissing

/-- A complete hexadecimal SHA-1. The hexadecimal digits are ASCII, so the bytes
are the characters. -/
def isFullSha (value : String) : Bool :=
  value.utf8ByteSize = 40 &&
    value.toList.all fun c => c.isDigit || ('a' ≤ c && c ≤ 'f') || ('A' ≤ c && c ≤ 'F')

/-! ## Buckets -/

def rerunBudget : Nat := 1

def clampRerunBudget (configured : Nat) : Nat :=
  if configured < rerunBudget then configured else rerunBudget

def isTransientConclusion (conclusion : String) : Bool := conclusion == "CANCELLED"

/-- The buckets that the loop over the required rules fills. -/
@[ext]
structure Buckets where
  waiting : List String := []
  failed : List String := []
  transientRuns : List Nat := []
  approvalWaiting : List String := []
deriving DecidableEq, Repr

section Bucketing

variable (pr : StewardPullRequest) (policy : StewardPolicy) (attempts : SortedMap Nat Nat)

/-- The run of a cancelled check that its rerun budget still covers. -/
def transientRun (check : StewardCheck) : Option Nat :=
  if isTransientConclusion check.upperConclusion then
    check.runId.filter fun runId =>
      (attempts.get? runId).getD 0 < clampRerunBudget policy.maxTransientReruns
  else none

/-- The pending approval status decides this check. -/
def awaitsApproval (check : StewardCheck) : Bool :=
  approvalStatusPending pr policy && eqIgnoreAsciiCase check.name (trim policy.approvalContext)

/-- One turn of the loop: a rule, by its label, and the check that decides it. -/
def bucketRule (buckets : Buckets) : String × Option StewardCheck → Buckets
  | (context, none) => { buckets with waiting := buckets.waiting ++ [context] }
  | (context, some check) =>
    if !check.isCompleted then { buckets with waiting := buckets.waiting ++ [context] }
    else if awaitsApproval pr policy check then
      { buckets with approvalWaiting := buckets.approvalWaiting ++ [context] }
    else if check.isPassing then buckets
    else
      match transientRun policy attempts check with
      | some runId => { buckets with transientRuns := buckets.transientRuns ++ [runId] }
      | none => { buckets with failed := buckets.failed ++ [context] }

/-- Sort every required rule into waiting, failed and transient-interrupted. A
wait for the reviewer does not mask a failure of another rule. -/
def bucketRequiredChecks : List String × List String × List Nat :=
  let buckets := (selectedChecks pr policy).foldl (bucketRule pr policy attempts) {}
  (if buckets.failed.isEmpty then buckets.waiting ++ buckets.approvalWaiting else buckets.waiting,
    buckets.failed, buckets.transientRuns)

end Bucketing

/-! ## The decision -/

/-- The decision when the approval context's commit status refuses the head. -/
def approvalStatusRefusal (policy : StewardPolicy) : Option StewardDecision :=
  if !policy.serverEnforcedExactHeadMerge || approvalStatusAgrees pr policy then none
  else
    let contexts := [trim policy.approvalContext ++ " (commit status)"]
    some (if approvalStatusPending pr policy then .waitingRequired contexts
      else .requiredFailed contexts)

/-- The elements in order and once each. -/
def sortedDistinct {α : Type} [LinearOrder α] (values : List α) : List α :=
  (values.insertionSort (· ≤ ·)).dedup

/-- What is decided once the rules are in their buckets. -/
def classifyBuckets (policy : StewardPolicy) :
    List String × List String × List Nat → StewardDecision
  | (waiting, failed, transientRuns) =>
    let mergeState := toAsciiUppercase pr.mergeState
    if !waiting.isEmpty then .waitingRequired (sortedDistinct waiting)
    else if !failed.isEmpty then .requiredFailed (sortedDistinct failed)
    else if !transientRuns.isEmpty then .rerunTransient (sortedDistinct transientRuns)
    else if !policy.mergeQueue && mergeState != "CLEAN" then
      .waitingRequired ["github-merge-state:CLEAN (current=" ++ mergeState ++ ")"]
    else if policy.mergeQueue || policy.serverEnforcedExactHeadMerge then
      (approvalStatusRefusal pr policy).getD .armMergeQueue
    else .directMergeRefused [.validatedBaseRevisionNotAtomic]

/-- Without required rules the observed checks prove nothing. -/
def noRequiredChecks (policy : StewardPolicy) : StewardDecision :=
  if policy.mergeQueue then .waitingRequired ["authoritative-required-check-policy"]
  else .directMergeRefused
    [.requiredCheckMaterializationNotAuthoritative, .validatedBaseRevisionNotAtomic]

/-- A conflict, or a head behind its base where no queue rebuilds it. -/
def needsUpdate (policy : StewardPolicy) : Bool :=
  let mergeState := toAsciiUppercase pr.mergeState
  ["DIRTY", "CONFLICTING"].contains mergeState || (!policy.mergeQueue && mergeState == "BEHIND")

/-- Classify one pull request without performing a mutation. -/
def classifyPr (policy : StewardPolicy) (attempts : SortedMap Nat Nat) : StewardDecision :=
  (classifyProvenance pr policy).getD <|
  (classifyLabelExclusion pr policy).getD <|
  (classifyManagement pr policy).getD <|
  (pr.queuePosition.map .queued).getD <|
  if pr.draft then .draft
  else if !isFullSha pr.headSha then .invalidHead
  else if needsUpdate pr policy then .needsUpdate pr.mergeState
  else if policy.requiredChecks.isEmpty then noRequiredChecks policy
  else classifyBuckets pr policy (bucketRequiredChecks pr policy attempts)

/-! ## When every bucket stays empty -/

section Buckets

variable {pr : StewardPullRequest} {policy : StewardPolicy} {attempts : SortedMap Nat Nat}

/-- A check that leaves its rule in no bucket. -/
def Settled (pr : StewardPullRequest) (policy : StewardPolicy) (check : StewardCheck) : Prop :=
  check.isCompleted = true ∧ check.isPassing = true ∧ awaitsApproval pr policy check = false

theorem bucketRule_eq_empty_iff {buckets : Buckets} {context : String}
    {selected : Option StewardCheck} :
    bucketRule pr policy attempts buckets (context, selected) = {} ↔
      buckets = {} ∧ ∃ check, selected = some check ∧ Settled pr policy check := by
  cases selected with
  | none => simp [bucketRule, Buckets.ext_iff]
  | some check =>
    unfold bucketRule Settled
    dsimp only
    split_ifs with hcompleted hawaits hpassing
    · simp_all [Buckets.ext_iff]
    · simp_all [Buckets.ext_iff]
    · simp_all
    · split <;> simp_all [Buckets.ext_iff]

/-- A bucket that has been filled stays filled, so the loop ends with empty
buckets only when every turn leaves them empty. -/
theorem foldl_bucketRule_eq_empty_iff (selected : List (String × Option StewardCheck))
    (buckets : Buckets) :
    selected.foldl (bucketRule pr policy attempts) buckets = {} ↔
      buckets = {} ∧ ∀ rule ∈ selected, ∃ check, rule.2 = some check ∧ Settled pr policy check := by
  induction selected generalizing buckets with
  | nil => simp
  | cons rule rest ih =>
    rw [foldl_cons, ih, bucketRule_eq_empty_iff, forall_mem_cons, and_assoc]

/-- A wait for the reviewer is reported unless a rule failed, so empty reported
buckets leave nothing behind. -/
theorem bucketRequiredChecks_eq_empty_iff :
    bucketRequiredChecks pr policy attempts = ([], [], []) ↔
      ∀ rule ∈ policy.requiredChecks, ∃ check,
        selectedRequiredCheck pr.checks rule = some check ∧ Settled pr policy check := by
  have hreported (buckets : Buckets) :
      (if buckets.failed.isEmpty then buckets.waiting ++ buckets.approvalWaiting
        else buckets.waiting, buckets.failed, buckets.transientRuns) = (([], [], []) : _ × _ × _) ↔
        buckets = {} := by
    rw [Buckets.ext_iff, Prod.mk.injEq, Prod.mk.injEq]
    constructor
    · rintro ⟨hwaiting, hfailed, htransient⟩
      rw [hfailed, isEmpty_nil, if_pos rfl, append_eq_nil_iff] at hwaiting
      exact ⟨hwaiting.1, hfailed, htransient, hwaiting.2⟩
    · rintro ⟨hwaiting, hfailed, htransient, happroval⟩
      rw [hfailed, isEmpty_nil, if_pos rfl, hwaiting, happroval]
      exact ⟨rfl, rfl, htransient⟩
  unfold bucketRequiredChecks
  rw [hreported, foldl_bucketRule_eq_empty_iff, selectedChecks, forall_mem_map]
  exact and_iff_right rfl

end Buckets

/-! ## The heads that are armed -/

/-- The management rule: a labelled pull request carries its handoff receipt, an
unlabelled one is the fleet's own. -/
def ManagementSatisfied (policy : StewardPolicy) : Prop :=
  ∀ label, policy.managedLabel = some label →
    if hasPrLabel pr label then hasSuccessfulStatus pr policy.handoffContext = true
    else isImplicitlyManaged pr = true

/-- What a head has to satisfy before it may be armed. -/
structure Admissible (pr : StewardPullRequest) (policy : StewardPolicy) : Prop where
  noProvenanceBlocker : ∀ blocker ∈ policy.provenanceBlockingLabels, ∀ label ∈ pr.labels,
    eqIgnoreAsciiCase label blocker = false
  notOptedOut : ∀ label ∈ pr.labels, eqIgnoreAsciiCase label policy.optOutLabel = false
  noHoldLabel : ∀ label ∈ pr.labels, isHoldLabel label = false
  managed : ManagementSatisfied pr policy
  notQueued : pr.queuePosition = none
  notDraft : pr.draft = false
  fullSha : isFullSha pr.headSha = true
  notDirty : toAsciiUppercase pr.mergeState ≠ "DIRTY"
  notConflicting : toAsciiUppercase pr.mergeState ≠ "CONFLICTING"
  clean : policy.mergeQueue = false → toAsciiUppercase pr.mergeState = "CLEAN"
  green : requiredChecksGreen pr.checks policy.requiredChecks = true
  path : policy.mergeQueue = true ∨ policy.serverEnforcedExactHeadMerge = true
  agrees : policy.serverEnforcedExactHeadMerge = true → approvalStatusAgrees pr policy = true

section Exits

variable {pr : StewardPullRequest} {policy : StewardPolicy}

/-- An early exit that never arms is not taken by a decision to arm. -/
theorem getD_eq_arm_iff {exit : Option StewardDecision} {rest : StewardDecision}
    (hexit : exit ≠ some .armMergeQueue) :
    exit.getD rest = .armMergeQueue ↔ exit = none ∧ rest = .armMergeQueue := by
  cases exit with
  | none => simp
  | some decision => simpa using hexit

theorem ite_eq_arm_iff {condition : Prop} [Decidable condition] {exit rest : StewardDecision}
    (hexit : exit ≠ .armMergeQueue) :
    (if condition then exit else rest) = .armMergeQueue ↔
      ¬ condition ∧ rest = .armMergeQueue := by
  split <;> simp_all

theorem hasPrLabel_eq_false_iff {expected : String} :
    hasPrLabel pr expected = false ↔
      ∀ label ∈ pr.labels, eqIgnoreAsciiCase label expected = false := by
  simp [hasPrLabel]

theorem classifyProvenance_eq_none_iff :
    classifyProvenance pr policy = none ↔
      ∀ blocker ∈ policy.provenanceBlockingLabels, ∀ label ∈ pr.labels,
        eqIgnoreAsciiCase label blocker = false := by
  simp [classifyProvenance, matchingProvenanceBlockers, hasPrLabel_eq_false_iff]

theorem classifyProvenance_ne_arm : classifyProvenance pr policy ≠ some .armMergeQueue := by
  simp [classifyProvenance]

theorem classifyLabelExclusion_eq_none_iff :
    classifyLabelExclusion pr policy = none ↔
      (∀ label ∈ pr.labels, eqIgnoreAsciiCase label policy.optOutLabel = false) ∧
        ∀ label ∈ pr.labels, isHoldLabel label = false := by
  rw [← hasPrLabel_eq_false_iff]
  cases h : hasPrLabel pr policy.optOutLabel <;>
    simp [classifyLabelExclusion, excludedAdmissionLabel, h]

theorem classifyLabelExclusion_ne_arm :
    classifyLabelExclusion pr policy ≠ some .armMergeQueue := by
  unfold classifyLabelExclusion
  split <;> simp

theorem classifyManagement_eq_none_iff :
    classifyManagement pr policy = none ↔ ManagementSatisfied pr policy := by
  unfold classifyManagement ManagementSatisfied
  cases policy.managedLabel with
  | none => simp
  | some managedLabel =>
    cases hlabelled : hasPrLabel pr managedLabel <;> simp [hlabelled]

theorem classifyManagement_ne_arm : classifyManagement pr policy ≠ some .armMergeQueue := by
  unfold classifyManagement
  split
  · simp
  · dsimp only
    split_ifs <;> simp

theorem noRequiredChecks_ne_arm : noRequiredChecks policy ≠ .armMergeQueue := by
  unfold noRequiredChecks
  split <;> simp

theorem approvalStatusRefusal_eq_none_iff :
    approvalStatusRefusal pr policy = none ↔
      (policy.serverEnforcedExactHeadMerge = true → approvalStatusAgrees pr policy = true) := by
  cases h : policy.serverEnforcedExactHeadMerge <;> simp [approvalStatusRefusal, h]

theorem approvalStatusRefusal_ne_arm :
    approvalStatusRefusal pr policy ≠ some .armMergeQueue := by
  unfold approvalStatusRefusal
  dsimp only
  split_ifs <;> simp

theorem needsUpdate_eq_false_iff :
    needsUpdate pr policy = false ↔ toAsciiUppercase pr.mergeState ≠ "DIRTY" ∧
      toAsciiUppercase pr.mergeState ≠ "CONFLICTING" ∧
        (policy.mergeQueue = false → toAsciiUppercase pr.mergeState ≠ "BEHIND") := by
  simp [needsUpdate, and_assoc]

theorem classifyBuckets_eq_arm_iff {buckets : List String × List String × List Nat} :
    classifyBuckets pr policy buckets = .armMergeQueue ↔ buckets = ([], [], []) ∧
      (policy.mergeQueue = false → toAsciiUppercase pr.mergeState = "CLEAN") ∧
      (policy.mergeQueue = true ∨ policy.serverEnforcedExactHeadMerge = true) ∧
      (policy.serverEnforcedExactHeadMerge = true → approvalStatusAgrees pr policy = true) := by
  obtain ⟨waiting, failed, transientRuns⟩ := buckets
  have hpath : (if policy.mergeQueue || policy.serverEnforcedExactHeadMerge then
        (approvalStatusRefusal pr policy).getD .armMergeQueue
      else .directMergeRefused [.validatedBaseRevisionNotAtomic]) = StewardDecision.armMergeQueue ↔
      (policy.mergeQueue = true ∨ policy.serverEnforcedExactHeadMerge = true) ∧
        (policy.serverEnforcedExactHeadMerge = true → approvalStatusAgrees pr policy = true) := by
    rw [← approvalStatusRefusal_eq_none_iff, ← Bool.or_eq_true]
    split <;> simp_all [getD_eq_arm_iff approvalStatusRefusal_ne_arm]
  unfold classifyBuckets
  dsimp only
  rw [ite_eq_arm_iff (by simp), ite_eq_arm_iff (by simp), ite_eq_arm_iff (by simp),
    ite_eq_arm_iff (by simp), hpath]
  simp [and_assoc]

/-- The decision arms exactly the admissible heads none of whose required rules
awaits a pending approval. -/
theorem classifyPr_eq_arm_iff {attempts : SortedMap Nat Nat} :
    classifyPr pr policy attempts = .armMergeQueue ↔ Admissible pr policy ∧
      ∀ rule ∈ policy.requiredChecks, ∀ check,
        selectedRequiredCheck pr.checks rule = some check →
          awaitsApproval pr policy check = false := by
  unfold classifyPr
  rw [getD_eq_arm_iff classifyProvenance_ne_arm, getD_eq_arm_iff classifyLabelExclusion_ne_arm,
    getD_eq_arm_iff classifyManagement_ne_arm, getD_eq_arm_iff (by simp), ite_eq_arm_iff (by simp),
    ite_eq_arm_iff (by simp), ite_eq_arm_iff (by simp), ite_eq_arm_iff noRequiredChecks_ne_arm,
    classifyBuckets_eq_arm_iff, bucketRequiredChecks_eq_empty_iff, classifyProvenance_eq_none_iff,
    classifyLabelExclusion_eq_none_iff, classifyManagement_eq_none_iff, Option.map_eq_none_iff,
    Bool.not_eq_true, Bool.not_eq_true, Bool.not_eq_true, Bool.not_eq_false',
    needsUpdate_eq_false_iff, List.isEmpty_iff]
  constructor
  · rintro ⟨hprovenance, ⟨hopt, hhold⟩, hmanaged, hqueue, hdraft, hsha, ⟨hdirty, hconflict, -⟩,
      hrules, hsettled, hclean, hpath, hagrees⟩
    refine ⟨⟨hprovenance, hopt, hhold, hmanaged, hqueue, hdraft, hsha, hdirty, hconflict, hclean,
      requiredChecksGreen_iff.mpr ⟨hrules, ?_⟩, hpath, hagrees⟩, ?_⟩
    · intro rule hrule
      obtain ⟨check, hselected, hcompleted, hpassing, -⟩ := hsettled rule hrule
      exact ⟨check, hselected, hcompleted, hpassing⟩
    · intro rule hrule check hselected
      obtain ⟨settled, hsettled, -, -, hawaits⟩ := hsettled rule hrule
      cases hselected.symm.trans hsettled
      exact hawaits
  · rintro ⟨hadmissible, hawaits⟩
    obtain ⟨hrules, hgreen⟩ := requiredChecksGreen_iff.mp hadmissible.green
    refine ⟨hadmissible.noProvenanceBlocker, ⟨hadmissible.notOptedOut, hadmissible.noHoldLabel⟩,
      hadmissible.managed, hadmissible.notQueued, hadmissible.notDraft, hadmissible.fullSha,
      ⟨hadmissible.notDirty, hadmissible.notConflicting, ?_⟩, hrules, ?_, hadmissible.clean,
      hadmissible.path, hadmissible.agrees⟩
    · intro hqueue
      rw [hadmissible.clean hqueue]
      decide
    · intro rule hrule
      obtain ⟨check, hselected, hcompleted, hpassing⟩ := hgreen rule hrule
      exact ⟨check, hselected, hcompleted, hpassing, hawaits rule hrule check hselected⟩

end Exits

/-- A decision to arm is taken on admissible heads only, and on every one of them
whose approval is not pending, whatever has been rerun. -/
theorem arms_only_and_every_admissible_head (pr : StewardPullRequest) (policy : StewardPolicy) :
    (∀ attempts, classifyPr pr policy attempts = .armMergeQueue → Admissible pr policy) ∧
      (Admissible pr policy → approvalStatusPending pr policy = false →
        ∀ attempts, classifyPr pr policy attempts = .armMergeQueue) := by
  constructor
  · intro attempts harm
    exact (classifyPr_eq_arm_iff.mp harm).1
  · intro hadmissible hpending attempts
    refine classifyPr_eq_arm_iff.mpr ⟨hadmissible, ?_⟩
    intro rule hrule check hselected
    rw [awaitsApproval, hpending, Bool.false_and]

/-! ## An approved head on a server-enforced base -/

def approvedHead : StewardPullRequest where
  headSha := "0123456789abcdef0123456789ABCDEF01234567"
  mergeState := "clean"
  labels := ["ready"]
  checks := [{ name := "build", status := "completed", conclusion := some "success" },
    { name := "build", status := "QUEUED", observedAt := some "2026-01-01T00:00:00Z",
      appId := some 7 },
    { name := "Review-Verdict", appId := some 15368, status := "COMPLETED",
      conclusion := some "SUCCESS", checkId := some 9 },
    { name := "review-verdict", source := .statusContext, status := "COMPLETED",
      conclusion := some "SUCCESS", checkId := some 4 },
    { name := "handoff", source := .statusContext, status := "COMPLETED",
      conclusion := some "SUCCESS" }]

def serverEnforcedPolicy : StewardPolicy where
  mergeQueue := false
  approvalContext := " review-verdict "
  requiredChecks := [{ context := "review-verdict", appId := some 15368 }]
  optOutLabel := "no-steward"
  provenanceBlockingLabels := ["provenance-unknown"]
  managedLabel := some "READY"
  handoffContext := "handoff"
  maxTransientReruns := 1

theorem approved_head_is_armed :
    Admissible approvedHead serverEnforcedPolicy ∧
      ∀ attempts, classifyPr approvedHead serverEnforcedPolicy attempts = .armMergeQueue := by
  have hadmissible : Admissible approvedHead serverEnforcedPolicy := by
    refine (arms_only_and_every_admissible_head _ _).1 ⟨[], .nil⟩ ?_
    decide +kernel
  refine ⟨hadmissible, (arms_only_and_every_admissible_head _ _).2 hadmissible ?_⟩
  decide +kernel

end Shipyard.MergeSteward
