import Mathlib.Algebra.GroupWithZero.Nat
import Mathlib.Algebra.Order.BigOperators.Group.List
import Shipyard.Lib.Rows
import Shipyard.ParallelProof.Acceptance
import Shipyard.ParallelProof.AttemptChains
import Shipyard.ParallelProof.Overlap

/-!
# Aggregating a proof

The controller aggregates the issued assignments, the terminal dispositions and the receipts
of a proof. Only the receipt of a shard's active attempt counts. The result does not depend
on the order of the records, and a proof that passed has, for every test of the inventory,
exactly one passed outcome in the receipt of its shard's highest attempt.
-/

namespace Shipyard.ParallelProof

open Lib List Lib.Except Indexing

/-! ## The aggregation -/

variable (codec : Codec) (elements : List (List UInt8))

/-- The JSON text of all records of an aggregation. -/
def corpusBytes (assignments : List ControllerAssignment) (dispositions : List AttemptDisposition)
    (receipts : List ShardReceipt) : List UInt8 :=
  encodeArray [
    encodeArray (assignments.map fun assignment => codec.encode (.assignment assignment)),
    encodeArray (dispositions.map fun disposition => codec.encode (.disposition disposition)),
    encodeArray (receipts.map fun receipt => codec.encode (.receipt receipt))]

def validateAggregateInputBounds (shardCount : Nat) (assignments : List ControllerAssignment)
    (dispositions : List AttemptDisposition) (receipts : List ShardReceipt) : Checked Unit := do
  ensureCount "assignments" assignments.length shardCount maxAttemptRecords
  ensureCount "aggregate attempt records"
    (assignments.length + dispositions.length + receipts.length) assignments.length
    maxAttemptRecords
  ensureBound "aggregate input corpus bytes" (corpusBytes codec assignments dispositions receipts)

/-- The active assignment of a shard, and the receipt that counts for it. -/
structure ActiveShard where
  shardId : Nat
  assignmentDigest : Sha256Digest
  receipt : Option ShardReceipt

/-- What the maps of an aggregation hold for a shard. -/
def activeShard (active : SortedMap Nat ControllerAssignment)
    (dispositions : SortedMap AttemptKey AttemptDisposition)
    (receipts : SortedMap AttemptKey ShardReceipt) (shard : TestShard) : Checked ActiveShard :=
  match active.get? shard.id with
  | none => .error (.missingRecord ("shard " ++ toString shard.id))
  | some assignment =>
    let attemptKey := toLex (shard.id, assignment.claims.attempt)
    .ok {
      shardId := shard.id
      assignmentDigest := assignment.digest codec
      receipt := (dispositions.get? attemptKey).bind fun _ => receipts.get? attemptKey }

variable (shard : ActiveShard)

def ActiveShard.isMissing : Bool := shard.receipt.isNone

def ActiveShard.isFailed : Bool :=
  shard.receipt.any fun receipt => receipt.status ≠ .passed

def shadowStatus (missing failed : List Nat) : ShadowProofStatus :=
  if missing ≠ [] ∧ failed ≠ [] then .incompleteAndFailed missing failed
  else if missing ≠ [] then .incomplete missing
  else if failed ≠ [] then .failed failed
  else .passed

/-- The shards of the assignments without a disposition. -/
def undisposed (dispositions : SortedMap AttemptKey AttemptDisposition)
    (assignments : List ControllerAssignment) : List Nat :=
  (assignments.filter fun assignment =>
    (dispositions.get? assignment.attemptKey).isNone).map fun assignment =>
      assignment.claims.shardId

def observedExecutions (assignments : SortedMap AttemptKey ControllerAssignment)
    (dispositions : SortedMap AttemptKey AttemptDisposition) : List ObservedExecution :=
  dispositions.entries.filterMap fun entry =>
    (assignments.get? entry.1).bind fun assignment => observedExecution assignment entry.2

/-- Sorted, without duplicates. -/
def sortDedup (ids : List Nat) : List Nat := (ids.insertionSort (· ≤ ·)).dedup

/-- The verdict over the maps of an aggregation. -/
def concludeAggregate (bindings : ValidatedProofBindings) (plan : ShardPlan)
    (active : SortedMap Nat ControllerAssignment)
    (dispositions : SortedMap AttemptKey AttemptDisposition)
    (receipts : SortedMap AttemptKey ShardReceipt) (undisposed : List Nat) :
    Checked ShadowAggregate := do
  let shards ← plan.shards.mapM (activeShard codec active dispositions receipts)
  let missing := sortDedup
    (undisposed ++ (shards.filter ActiveShard.isMissing).map ActiveShard.shardId)
  let failed := (shards.filter ActiveShard.isFailed).map ActiveShard.shardId
  let receiptDigests ← (shards.filterMap ActiveShard.receipt).mapM (ShardReceipt.digest codec)
  pure {
    schemaVersion := parallelProofSchemaVersion
    manifestDigest := bindings.manifestDigest
    inventoryDigest := bindings.inventoryDigest
    planDigest := bindings.planDigest
    activeAssignmentDigests := shards.map ActiveShard.assignmentDigest
    attemptDispositionDigests := dispositions.values.map (AttemptDisposition.digest codec)
    receiptDigests
    status := shadowStatus missing failed }

def aggregateShadowProof (key : ControllerKey) (proof : ParallelProofContext)
    (assignments : List ControllerAssignment) (dispositions : List AttemptDisposition)
    (receipts : List ShardReceipt) : Checked ShadowAggregate := do
  proof.validate codec
  validateAggregateInputBounds codec proof.plan.shards.length assignments dispositions receipts
  let bindings := ValidatedProofBindings.fromValidated codec proof
  let active ← validateAttemptChains codec key proof.manifest bindings assignments
  require (active.entries.length = proof.plan.shards.length)
    (.invalidAttemptSequence "every declared shard must have an assignment")
  let assignmentByAttempt := indexBy ControllerAssignment.attemptKey assignments
  let dispositionsByAttempt ← indexDispositions codec key assignmentByAttempt dispositions
  let receiptsByAttempt ← indexReceipts codec key proof assignmentByAttempt dispositionsByAttempt
    receipts
  validateExecutionOverlap proof.inventory proof.plan
    (observedExecutions assignmentByAttempt dispositionsByAttempt)
  concludeAggregate codec bindings proof.plan active dispositionsByAttempt receiptsByAttempt
    (undisposed dispositionsByAttempt assignments)

/-! ## The size of a corpus -/

theorem length_intercalate : (List.intercalate [44] elements).length =
      (elements.map List.length).sum + (elements.length - 1) := by
  induction elements with
  | nil => rfl
  | cons first rest ih =>
    cases rest with
    | nil => simp [List.intercalate]
    | cons second rest =>
      rw [intercalate_cons_cons, length_append, length_append, ih]
      simp only [map_cons, sum_cons, length_cons, length_nil]
      omega

theorem length_encodeArray : (encodeArray elements).length =
      (elements.map List.length).sum + (elements.length - 1) + 2 := by
  rw [encodeArray, cons_append, length_cons, length_append, length_intercalate]
  rfl

theorem length_encodeArray_perm {elements other : List (List UInt8)}
    (hperm : elements.Perm other) : (encodeArray elements).length = (encodeArray other).length := by
  rw [length_encodeArray, length_encodeArray, hperm.length_eq,
    (hperm.map List.length).sum_eq]

theorem length_encodeArray_le {elements other : List (List UInt8)}
    (hsublist : elements.Sublist other) :
    (encodeArray elements).length ≤ (encodeArray other).length := by
  rw [length_encodeArray, length_encodeArray]
  have hsum := (hsublist.map List.length).sum_le_sum fun _ _ => Nat.zero_le _
  have hlength := hsublist.length_le
  omega

section Aggregate

variable {codec : Codec} {key : ControllerKey} {proof : ParallelProofContext}
  {assignments assignments' : List ControllerAssignment}
  {dispositions dispositions' : List AttemptDisposition} {receipts receipts' : List ShardReceipt}
  {result : ShadowAggregate}

theorem length_corpusBytes :
    (corpusBytes codec assignments dispositions receipts).length =
      (encodeArray (assignments.map fun assignment =>
        codec.encode (.assignment assignment))).length +
      (encodeArray (dispositions.map fun disposition =>
        codec.encode (.disposition disposition))).length +
      (encodeArray (receipts.map fun receipt => codec.encode (.receipt receipt))).length + 4 := by
  rw [corpusBytes, length_encodeArray]
  simp only [map_cons, map_nil, sum_cons, sum_nil, length_cons,
    length_nil]
  omega

theorem ensureCount_eq_ok {field : String} {found minimum maximum : Nat} :
    ensureCount field found minimum maximum = .ok () ↔ minimum ≤ found ∧ found ≤ maximum := by
  rw [ensureCount, check_eq_ok, require_eq_ok, require_eq_ok]

theorem validateAggregateInputBounds_eq_ok {shardCount : Nat} :
    validateAggregateInputBounds codec shardCount assignments dispositions receipts = .ok () ↔
      (shardCount ≤ assignments.length ∧ assignments.length ≤ maxAttemptRecords) ∧
      assignments.length + dispositions.length + receipts.length ≤ maxAttemptRecords ∧
      (corpusBytes codec assignments dispositions receipts).length ≤ maxPayloadBytes := by
  rw [validateAggregateInputBounds, check_eq_ok, check_eq_ok, ensureCount_eq_ok,
    ensureCount_eq_ok, ensureBound, require_eq_ok]
  refine and_congr_right fun _ => and_congr_left fun _ => and_iff_right ?_
  omega

/-! ## Order -/

theorem sortDedup_perm {ids other : List Nat} (hperm : ids.Perm other) :
    sortDedup ids = sortDedup other := by
  have hsorted : ids.insertionSort (· ≤ ·) = other.insertionSort (· ≤ ·) :=
    ((perm_insertionSort _ ids).trans
      (hperm.trans (perm_insertionSort _ other).symm)).eq_of_pairwise'
      (pairwise_insertionSort _ _) (pairwise_insertionSort _ _)
  rw [sortDedup, sortDedup, hsorted]

variable {bindings : ValidatedProofBindings} {plan : ShardPlan}
  {active : SortedMap Nat ControllerAssignment} {missing missing' : List Nat}
  {dispositionMap : SortedMap AttemptKey AttemptDisposition}
  {receiptMap : SortedMap AttemptKey ShardReceipt}

theorem concludeAggregate_perm (hperm : missing.Perm missing') :
    concludeAggregate codec bindings plan active dispositionMap receiptMap missing =
      concludeAggregate codec bindings plan active dispositionMap receiptMap missing' := by
  have hsorted : ∀ more, sortDedup (missing ++ more) = sortDedup (missing' ++ more) :=
    fun more => sortDedup_perm (hperm.append_right more)
  simp only [concludeAggregate, hsorted]

/-- Assignments that can be recorded have one index in any order. -/
theorem indexBy_perm {manifest : ParallelProofManifest}
    (hrecordable : Recordable codec key manifest bindings assignments)
    (hperm : assignments.Perm assignments') :
    indexBy ControllerAssignment.attemptKey assignments =
      indexBy ControllerAssignment.attemptKey assignments' := by
  ext attemptKey assignment
  rw [get?_indexBy hrecordable.agree, get?_indexBy (hrecordable.of_perm hperm).agree,
    hperm.mem_iff]

/-- The parts of an aggregation that succeeded. -/
structure Aggregated (codec : Codec) (key : ControllerKey) (proof : ParallelProofContext)
    (assignments : List ControllerAssignment) (dispositions : List AttemptDisposition)
    (receipts : List ShardReceipt) (result : ShadowAggregate)
    (active : SortedMap Nat ControllerAssignment)
    (dispositionMap : SortedMap AttemptKey AttemptDisposition)
    (receiptMap : SortedMap AttemptKey ShardReceipt) : Prop where
  context : proof.validate codec = .ok ()
  bounds : validateAggregateInputBounds codec proof.plan.shards.length assignments dispositions
    receipts = .ok ()
  chains : validateAttemptChains codec key proof.manifest (.fromValidated codec proof)
    assignments = .ok active
  complete : active.entries.length = proof.plan.shards.length
  disposed : indexDispositions codec key (indexBy ControllerAssignment.attemptKey assignments)
    dispositions = .ok dispositionMap
  received : indexReceipts codec key proof (indexBy ControllerAssignment.attemptKey assignments)
    dispositionMap receipts = .ok receiptMap
  apart : validateExecutionOverlap proof.inventory proof.plan (observedExecutions
    (indexBy ControllerAssignment.attemptKey assignments) dispositionMap) = .ok ()
  concluded : concludeAggregate codec (.fromValidated codec proof) proof.plan active
    dispositionMap receiptMap (undisposed dispositionMap assignments) = .ok result

theorem aggregateShadowProof_eq_ok :
    aggregateShadowProof codec key proof assignments dispositions receipts = .ok result ↔
      ∃ active dispositionMap receiptMap, Aggregated codec key proof assignments dispositions
        receipts result active dispositionMap receiptMap := by
  unfold aggregateShadowProof
  simp only [bind_eq_ok, exists_unit, require_eq_ok]
  constructor
  · rintro ⟨hcontext, hbounds, active, hchains, hcomplete, dispositionMap, hdisposed, receiptMap,
      hreceived, hapart, hconcluded⟩
    exact ⟨active, dispositionMap, receiptMap, hcontext, hbounds, hchains, hcomplete, hdisposed,
      hreceived, hapart, hconcluded⟩
  · rintro ⟨active, dispositionMap, receiptMap, haggregated⟩
    exact ⟨haggregated.context, haggregated.bounds, active, haggregated.chains,
      haggregated.complete, dispositionMap, haggregated.disposed, receiptMap,
      haggregated.received, haggregated.apart, haggregated.concluded⟩

theorem aggregate_of_perm (hassignments : assignments.Perm assignments')
    (hdispositions : dispositions.Perm dispositions') (hreceipts : receipts.Perm receipts')
    (hresult : aggregateShadowProof codec key proof assignments dispositions receipts =
      .ok result) :
    aggregateShadowProof codec key proof assignments' dispositions' receipts' = .ok result := by
  obtain ⟨active, dispositionMap, receiptMap, hparts⟩ := aggregateShadowProof_eq_ok.mp hresult
  have hindex := indexBy_perm (validateAttemptChains_recordable hparts.chains) hassignments
  refine aggregateShadowProof_eq_ok.mpr ⟨active, dispositionMap, receiptMap, ?_⟩
  refine ⟨hparts.context, ?_, validateAttemptChains_perm hassignments hparts.chains,
    hparts.complete, ?_, ?_, hindex ▸ hparts.apart, ?_⟩
  · have hbounds := validateAggregateInputBounds_eq_ok.mp hparts.bounds
    refine validateAggregateInputBounds_eq_ok.mpr ?_
    rw [length_corpusBytes] at hbounds ⊢
    rwa [← hassignments.length_eq, ← hdispositions.length_eq, ← hreceipts.length_eq,
      ← length_encodeArray_perm (hassignments.map _), ← length_encodeArray_perm
        (hdispositions.map _), ← length_encodeArray_perm (hreceipts.map _)]
  · rw [← hindex]
    exact run_eq_ok_of_mem_iff (fun _ => hdispositions.mem_iff) hparts.disposed
  · rw [← hindex]
    exact run_eq_ok_of_mem_iff (fun _ => hreceipts.mem_iff) hparts.received
  · rw [← hparts.concluded]
    exact concludeAggregate_perm ((hassignments.symm.filter _).map _)

/-! ## What a passed proof says -/

theorem shadowStatus_eq_passed {missing failed : List Nat} :
    shadowStatus missing failed = .passed ↔ missing = [] ∧ failed = [] := by
  unfold shadowStatus
  by_cases hmissing : missing = [] <;> by_cases hfailed : failed = [] <;> simp [hmissing, hfailed]

theorem sortDedup_eq_nil {ids : List Nat} : sortDedup ids = [] ↔ ids = [] := by
  constructor
  · intro hnil
    refine eq_nil_iff_forall_not_mem.mpr fun id hid => ?_
    have hmem : id ∈ sortDedup ids :=
      mem_dedup.mpr ((mem_insertionSort _).mpr hid)
    rw [hnil] at hmem
    exact not_mem_nil hmem
  · rintro rfl
    rfl

/-- In a passed proof every shard has an active receipt that passed. -/
theorem concludeAggregate_passed (hconcluded : concludeAggregate codec bindings plan active
      dispositionMap receiptMap missing = .ok result) (hpassed : result.status = .passed) :
    missing = [] ∧ ∀ shard ∈ plan.shards, ∃ assignment receipt,
      active.get? shard.id = some assignment ∧
        receiptMap.get? (toLex (shard.id, assignment.claims.attempt)) = some receipt ∧
        receipt.status = .passed := by
  unfold concludeAggregate at hconcluded
  simp only [bind_eq_ok, pure_eq_ok] at hconcluded
  obtain ⟨shards, hshards, digests, _, rfl⟩ := hconcluded
  obtain ⟨hmissing, hfailed⟩ := shadowStatus_eq_passed.mp hpassed
  rw [sortDedup_eq_nil, append_eq_nil_iff, map_eq_nil_iff,
    filter_eq_nil_iff] at hmissing
  rw [map_eq_nil_iff, filter_eq_nil_iff] at hfailed
  refine ⟨hmissing.1, fun shard hshard => ?_⟩
  obtain ⟨activated, hactivated, hstep⟩ :=
    forall₂_exists_right (forall₂_of_mapM hshards) hshard
  unfold activeShard at hstep
  cases hactive : active.get? shard.id with
  | none =>
    rw [hactive] at hstep
    cases hstep
  | some assignment =>
    rw [hactive] at hstep
    cases hstep
    have hpresent := hmissing.2 _ hactivated
    have hgood := hfailed _ hactivated
    cases hdisposition : dispositionMap.get? (toLex (shard.id, assignment.claims.attempt)) with
    | none => simp [ActiveShard.isMissing, hdisposition] at hpresent
    | some disposition =>
      cases hreceipt : receiptMap.get? (toLex (shard.id, assignment.claims.attempt)) with
      | none => simp [ActiveShard.isMissing, hdisposition, hreceipt] at hpresent
      | some receipt =>
        refine ⟨assignment, receipt, rfl, hreceipt, ?_⟩
        simpa [ActiveShard.isFailed, hdisposition, hreceipt] using hgood

/-- A receipt that passed its check has the outcomes of its shard. -/
theorem checkReceipt_spec {assignmentMap : SortedMap AttemptKey ControllerAssignment}
    {receipt : ShardReceipt}
    (hcheck : checkReceipt codec key proof assignmentMap dispositionMap receipt = .ok ()) :
    ∃ assignment shard, assignmentMap.get? receipt.attemptKey = some assignment ∧
      proof.plan.shard assignment.claims.shardId = some shard ∧
      receipt.outcomes.map TestOutcome.testId = shard.testIds ∧
      (receipt.status = .passed → allPassed receipt.outcomes = true) := by
  rw [checkReceipt, check_eq_ok] at hcheck
  obtain ⟨hverify, hcheck⟩ := hcheck
  cases hassignment : assignmentMap.get? receipt.attemptKey with
  | none =>
    rw [hassignment] at hcheck
    cases hcheck
  | some assignment =>
    rw [hassignment] at hcheck
    obtain ⟨hbinding, _⟩ := check_eq_ok.mp hcheck
    unfold validateReceiptBinding at hbinding
    dsimp only at hbinding
    cases hshard : proof.plan.shard assignment.claims.shardId with
    | none =>
      rw [hshard] at hbinding
      cases hbinding
    | some shard =>
      rw [hshard] at hbinding
      have hclaims := require_eq_ok.mp hbinding
      refine ⟨assignment, shard, rfl, hshard, ?_, fun hpassed => ?_⟩
      · exact hclaims.2.2.2.2.2.2.2.2.2.2.2.2.2
      · unfold ShardReceipt.verify ShardReceipt.validateStructural at hverify
        simp only [bind_eq_ok, exists_unit, require_eq_ok] at hverify
        obtain ⟨⟨_, _, _, _, _, _, _, _, hstatus, _⟩, _⟩ := hverify
        rw [hpassed] at hstatus
        have hall := receiptStatus_eq_passed.mp hstatus.symm
        simp only [Bool.and_eq_true] at hall
        exact hall.1.2

/-- In a list without repeated names a name belongs to one element. -/
theorem filter_eq_singleton {outcomes : List TestOutcome} {id : String}
    (hnodup : (outcomes.map TestOutcome.testId).Nodup)
    (hmem : id ∈ outcomes.map TestOutcome.testId) :
    ∃ outcome ∈ outcomes, outcomes.filter (fun outcome => outcome.testId = id) = [outcome] := by
  induction outcomes with
  | nil => cases hmem
  | cons first rest ih =>
    obtain ⟨hfirst, hrest⟩ := nodup_cons.mp hnodup
    by_cases hid : first.testId = id
    · refine ⟨first, mem_cons_self, ?_⟩
      rw [filter_cons_of_pos (by simpa using hid), filter_eq_nil_iff.mpr]
      intro later hlater hsame
      refine hfirst (mem_map.mpr ⟨later, hlater, ?_⟩)
      exact (of_decide_eq_true hsame).trans hid.symm
    · obtain ⟨outcome, houtcome, hfilter⟩ :=
        ih hrest ((mem_cons.mp hmem).resolve_left (Ne.symm hid))
      refine ⟨outcome, mem_cons_of_mem _ houtcome, ?_⟩
      rw [filter_cons_of_neg (by simpa using hid), hfilter]

/-- A test has exactly one outcome in the receipt of its shard's highest issued attempt, and
it passed. -/
def PassedOnce (plan : ShardPlan) (assignments : List ControllerAssignment)
    (receipts : List ShardReceipt) (test : TestCase) : Prop :=
  ∃ shard ∈ plan.shards, test.id ∈ shard.testIds ∧
    (∀ other ∈ plan.shards, test.id ∈ other.testIds → other = shard) ∧
    ∃ assignment, Highest assignments shard.id assignment ∧
      ∃ receipt ∈ receipts, receipt.attemptKey = assignment.attemptKey ∧
        (∀ other ∈ receipts, other.attemptKey = assignment.attemptKey → other = receipt) ∧
        ∃ outcome, receipt.outcomes.filter (fun outcome => outcome.testId = test.id) = [outcome] ∧
          outcome.status = .passed

section Passed

variable (hparts : Aggregated codec key proof assignments dispositions receipts result active
  dispositionMap receiptMap)

include hparts

theorem Aggregated.passedOnce (hpassed : result.status = .passed) {test : TestCase}
    (htest : test ∈ proof.inventory.tests) :
    PassedOnce proof.plan assignments receipts test := by
  have hpartitions := ParallelProofContext.validate_spec hparts.context
  obtain ⟨shard, hshard, hmem⟩ := hpartitions.covered test htest
  obtain ⟨assignment, receipt, hactive, hreceipt, hgood⟩ :=
    (concludeAggregate_passed hparts.concluded hpassed).2 shard hshard
  have hhighest := validateAttemptChains_spec hparts.chains hactive
  obtain ⟨hconsistent, hindexes⟩ := run_spec hparts.received
  obtain ⟨received, hreceived, hkey, rfl⟩ :=
    ((hindexes _ _).mp hreceipt).resolve_left (by simp)
  have hattempt : assignment.attemptKey = toLex (shard.id, assignment.claims.attempt) :=
    attemptKey_eq_iff.mpr ⟨hhighest.ofShard, rfl⟩
  refine ⟨shard, hshard, hmem, fun other hother hid =>
    hpartitions.shard_unique hother hshard hid hmem, assignment, hhighest, received, hreceived,
    hkey.trans hattempt.symm, fun other hother hsame => ?_, ?_⟩
  · exact hconsistent.agree other hother received hreceived
      (hsame.trans (hattempt.trans hkey.symm))
  · obtain ⟨bound, ofShard, hbound, hofShard, houtcomes, hall⟩ :=
      checkReceipt_spec (hconsistent.checked received hreceived)
    have hagree := (validateAttemptChains_recordable hparts.chains).agree
    obtain ⟨_, hboundKey⟩ := (get?_indexBy hagree).mp hbound
    -- the receipt is bound to the assignment of the shard, so its outcomes are the shard's
    have hboundShard : bound.claims.shardId = shard.id :=
      (attemptKey_eq_iff.mp (hboundKey.trans hkey)).1
    rw [hboundShard, shard_of_mem hpartitions.numbered hshard, Option.some.injEq] at hofShard
    subst hofShard
    have hnodup := nodup_of_strictlySorted (hpartitions.shards shard hshard).sorted
    rw [← houtcomes] at hnodup hmem
    obtain ⟨outcome, houtcome, hfilter⟩ := filter_eq_singleton hnodup hmem
    exact ⟨outcome, hfilter, allPassed_eq_true.mp (hall hgood) outcome houtcome⟩

/-- In a passed proof every issued assignment has a verified disposition. -/
theorem Aggregated.disposition (hpassed : result.status = .passed)
    {assignment : ControllerAssignment} (hassignment : assignment ∈ assignments) :
    ∃ disposition ∈ dispositions, disposition.verify codec key assignment = .ok () := by
  have hundisposed := (concludeAggregate_passed hparts.concluded hpassed).1
  rw [undisposed, map_eq_nil_iff, filter_eq_nil_iff] at hundisposed
  have hsome := hundisposed assignment hassignment
  rw [Option.isNone_iff_eq_none, ← ne_eq, Option.ne_none_iff_exists'] at hsome
  obtain ⟨stored, hstored⟩ := hsome
  obtain ⟨hconsistent, hindexes⟩ := run_spec hparts.disposed
  obtain ⟨disposition, hdisposition, hkey, rfl⟩ :=
    ((hindexes _ _).mp hstored).resolve_left (by simp)
  have hcheck := hconsistent.checked disposition hdisposition
  have hagree := (validateAttemptChains_recordable hparts.chains).agree
  have hindexed : (indexBy ControllerAssignment.attemptKey assignments).get?
      disposition.attemptKey = some assignment :=
    (get?_indexBy hagree).mpr ⟨hassignment, hkey.symm⟩
  change checkDisposition _ _ _ _ = _ at hcheck
  rw [checkDisposition, hindexed] at hcheck
  exact ⟨disposition, hdisposition, hcheck⟩

/-- Receipts of lower attempts may be left out. -/
theorem Aggregated.filter_receipts {keep : ShardReceipt → Bool}
    (hkeep : ∀ receipt ∈ receipts, (∀ assignment ∈ assignments,
      assignment.claims.shardId = receipt.shardId →
        assignment.claims.attempt ≤ receipt.attempt) → keep receipt = true) :
    aggregateShadowProof codec key proof assignments dispositions (receipts.filter keep) =
      .ok result := by
  obtain ⟨hconsistent, hindexes⟩ := run_spec hparts.received
  have hsublist : (receipts.filter keep).Sublist receipts := filter_sublist
  obtain ⟨keptMap, hkept⟩ := run_of_consistent
    (hconsistent.of_subset fun receipt hreceipt => hsublist.subset hreceipt)
  obtain ⟨_, hkeptIndexes⟩ := run_spec hkept
  refine aggregateShadowProof_eq_ok.mpr ⟨active, dispositionMap, keptMap, hparts.context, ?_,
    hparts.chains, hparts.complete, hparts.disposed, hkept, hparts.apart, ?_⟩
  · have hbounds := validateAggregateInputBounds_eq_ok.mp hparts.bounds
    refine validateAggregateInputBounds_eq_ok.mpr ⟨hbounds.1, ?_, ?_⟩
    · have hlength := hsublist.length_le
      omega
    · have hcorpus := hbounds.2.2
      have hencoded := length_encodeArray_le
        (hsublist.map fun receipt => codec.encode (.receipt receipt))
      rw [length_corpusBytes] at hcorpus ⊢
      omega
  · rw [← hparts.concluded]
    have hactive : proof.plan.shards.mapM (activeShard codec active dispositionMap keptMap) =
        proof.plan.shards.mapM (activeShard codec active dispositionMap receiptMap) := by
      refine mapM_congr fun shard _ => ?_
      unfold activeShard
      cases hassignment : active.get? shard.id with
      | none => rfl
      | some assignment =>
        -- the receipt of the active attempt is kept
        have hhighest := validateAttemptChains_spec hparts.chains hassignment
        have hsame : keptMap.get? (toLex (shard.id, assignment.claims.attempt)) =
            receiptMap.get? (toLex (shard.id, assignment.claims.attempt)) := by
          ext receipt
          rw [hkeptIndexes, hindexes]
          refine or_congr_right (exists_congr fun received => ?_)
          rw [mem_filter, and_assoc]
          refine and_congr_right fun hreceived => and_iff_right_of_imp fun ⟨hkey, _⟩ => ?_
          obtain ⟨hshard, hattempt⟩ := Prod.mk.inj (toLex.injective hkey)
          refine hkeep received hreceived fun other hother hsame => ?_
          rw [hattempt]
          exact hhighest.highest other hother (hsame.trans hshard)
        simp only [hsame]
    simp only [concludeAggregate, hactive]

end Passed

/-- The result of an aggregation does not depend on the order of the records nor on the
receipts of lower attempts. Where it is passed, every test passed once in the receipt of its
shard's highest attempt, and every issued assignment has a verified disposition. -/
theorem aggregate_is_order_free_and_sound (codec : Codec) (key : ControllerKey)
    (proof : ParallelProofContext) (assignments : List ControllerAssignment)
    (dispositions : List AttemptDisposition) (receipts : List ShardReceipt)
    (result : ShadowAggregate) :
    (∀ assignments' dispositions' receipts', assignments.Perm assignments' →
      dispositions.Perm dispositions' → receipts.Perm receipts' →
      (aggregateShadowProof codec key proof assignments dispositions receipts = .ok result ↔
        aggregateShadowProof codec key proof assignments' dispositions' receipts' =
          .ok result)) ∧
    (aggregateShadowProof codec key proof assignments dispositions receipts = .ok result →
      result.status = .passed →
      (∀ test ∈ proof.inventory.tests, PassedOnce proof.plan assignments receipts test) ∧
      (∀ assignment ∈ assignments, ∃ disposition ∈ dispositions,
        disposition.verify codec key assignment = .ok ()) ∧
      ∀ keep : ShardReceipt → Bool,
        (∀ receipt ∈ receipts, (∀ assignment ∈ assignments,
          assignment.claims.shardId = receipt.shardId →
            assignment.claims.attempt ≤ receipt.attempt) → keep receipt = true) →
        aggregateShadowProof codec key proof assignments dispositions (receipts.filter keep) =
          .ok result) := by
  refine ⟨fun assignments' dispositions' receipts' hassignments hdispositions hreceipts =>
    ⟨aggregate_of_perm hassignments hdispositions hreceipts,
      aggregate_of_perm hassignments.symm hdispositions.symm hreceipts.symm⟩,
    fun hresult hpassed => ?_⟩
  obtain ⟨active, dispositionMap, receiptMap, hparts⟩ := aggregateShadowProof_eq_ok.mp hresult
  exact ⟨fun test htest => hparts.passedOnce hpassed htest,
    fun assignment hassignment => hparts.disposition hpassed hassignment,
    fun keep hkeep => hparts.filter_receipts hkeep⟩

end Aggregate

def sampleAggregate : ShadowAggregate where
  schemaVersion := parallelProofSchemaVersion
  manifestDigest := .zero
  inventoryDigest := .zero
  planDigest := .zero
  activeAssignmentDigests := [.zero]
  attemptDispositionDigests := [.zero]
  receiptDigests := [.zero]
  status := .passed

theorem aggregate_is_order_free_and_sound_for_sampleProof :
    aggregateShadowProof zeroCodec sampleKey sampleProof [sampleAssignment] [sampleDisposition]
        [sampleReceipt] = .ok sampleAggregate ∧
      ∀ test ∈ sampleInventory.tests,
        PassedOnce samplePlan [sampleAssignment] [sampleReceipt] test := by
  have hresult : aggregateShadowProof zeroCodec sampleKey sampleProof [sampleAssignment]
      [sampleDisposition] [sampleReceipt] = .ok sampleAggregate := by decide +kernel
  exact ⟨hresult, ((aggregate_is_order_free_and_sound zeroCodec sampleKey sampleProof
    [sampleAssignment] [sampleDisposition] [sampleReceipt] sampleAggregate).2 hresult rfl).1⟩

end Shipyard.ParallelProof
