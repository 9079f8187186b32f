import Mathlib.Data.List.Dedup
import Shipyard.Lib.Sweep
import Shipyard.ParallelProof.Inventory

/-!
# Overlapping executions

Attempts of one shard must not run at the same time, a fleet-exclusive shard must run
alone, and two shards that claim one resource lock must not overlap: anywhere if the lock
is of the fleet, on one host if it is of the host. Each rule is a sweep of its own over the
observed executions, sorted by their starts. The four sweeps together refuse exactly the
lists in which two executions overlap that must not.
-/

namespace Shipyard.ParallelProof

open Lib Lib.Except List

structure ObservedExecution where
  shardId : Nat
  executionMode : ShardExecutionMode
  hostId : String
  startedAtMs : Nat
  completedAtMs : Nat
deriving DecidableEq, Repr

def observedExecution (assignment : ControllerAssignment) (disposition : AttemptDisposition) :
    Option ObservedExecution :=
  match disposition.kind with
  | .fencedBeforeStart => none
  | .executed startedAtMs completedAtMs _ _ =>
    some {
      shardId := assignment.claims.shardId
      executionMode := assignment.claims.executionMode
      hostId := assignment.claims.hostId
      startedAtMs, completedAtMs }

namespace ObservedExecution

/-- The execution in which `previous` is still running when `execution` starts. -/
abbrev clash (furthest : Option ObservedExecution) (execution : ObservedExecution) :
    Option ObservedExecution :=
  clashing startedAtMs completedAtMs furthest execution

abbrev later (furthest : Option ObservedExecution) (execution : ObservedExecution) :
    Option ObservedExecution :=
  advance completedAtMs furthest execution

/-! The three orders in which executions are visited. -/

def startOrder (execution : ObservedExecution) : Lex (Nat × Lex (Nat × Lex (Nat × String))) :=
  toLex (execution.startedAtMs, toLex (execution.completedAtMs,
    toLex (execution.shardId, execution.hostId)))

def shardOrder (execution : ObservedExecution) : Lex (Nat × Lex (Nat × Nat)) :=
  toLex (execution.shardId, toLex (execution.startedAtMs, execution.completedAtMs))

def hostOrder (execution : ObservedExecution) : Lex (String × Lex (Nat × Lex (Nat × Nat))) :=
  toLex (execution.hostId, toLex (execution.startedAtMs,
    toLex (execution.completedAtMs, execution.shardId)))

end ObservedExecution

open ObservedExecution

/-! ## The sweeps -/

def attemptStep (furthest : Option ObservedExecution) (execution : ObservedExecution) :
    Checked (Option ObservedExecution) :=
  match clash furthest execution with
  | some previous =>
    .error (.topologyViolation ("shard " ++ toString execution.shardId ++
      " attempts overlapped intervals ending at " ++ toString previous.completedAtMs ++
      " and starting at " ++ toString execution.startedAtMs))
  | none => .ok (later furthest execution)

def validateSameShardOverlap (executions : List ObservedExecution) : Checked Unit := do
  let ordered := executions.insertionSort fun left right => left.shardOrder ≤ right.shardOrder
  let _ ← ordered.foldlM (Grouped.step none shardId attemptStep)
    { current := none, memory := none }

structure FleetMemory where
  any : Option ObservedExecution
  exclusive : Option ObservedExecution

def fleetExclusiveStep (furthest : FleetMemory) (execution : ObservedExecution) :
    Checked FleetMemory :=
  let conflicting :=
    if execution.executionMode = .fleetExclusive then clash furthest.any execution
    else clash furthest.exclusive execution
  match conflicting with
  | some previous =>
    .error (.topologyViolation ("fleet-exclusive shard overlapped " ++
      toString previous.shardId ++ " and " ++ toString execution.shardId))
  | none =>
    .ok {
      any := later furthest.any execution
      exclusive :=
        if execution.executionMode = .fleetExclusive then later furthest.exclusive execution
        else furthest.exclusive }

def validateFleetExclusiveOverlap (ordered : List ObservedExecution) : Checked Unit := do
  let _ ← ordered.foldlM fleetExclusiveStep { any := none, exclusive := none }

/-- The locks that the tests of a shard claim. A validated plan names no test that the
inventory does not have. -/
def claimedLocks (lookup : SortedMap String TestCase) (shard : TestShard) : List ResourceLock :=
  (shard.testIds.flatMap fun id => (lookup.get? id).elim [] TestCase.resourceLocks).dedup
    |>.insertionSort fun left right => left.sortKey ≤ right.sortKey

variable (inventory : TestInventory)

def shardLocks (plan : ShardPlan) : List (List ResourceLock) :=
  plan.shards.map (claimedLocks (inventoryLookup inventory))

def locksOf (shardLocks : List (List ResourceLock)) (execution : ObservedExecution) :
    Checked (List ResourceLock) :=
  match shardLocks[execution.shardId]? with
  | some locks => .ok locks
  | none => .error (.invalidField "shard id")

def lockOverlap (lockName : String) (previous execution : ObservedExecution) :
    ParallelProofError :=
  .topologyViolation ("resource lock " ++ lockName ++ " overlapped shards " ++
    toString previous.shardId ++ " and " ++ toString execution.shardId)

/-- The step of both lock sweeps: the inner loop goes over the locks of one scope. -/
def lockStep (scope : ResourceLockScope) (shardLocks : List (List ResourceLock))
    (furthest : SortedMap String ObservedExecution) (execution : ObservedExecution) :
    Checked (SortedMap String ObservedExecution) := do
  let locks ← locksOf shardLocks execution
  ((locks.filter fun lock => lock.scope = scope).map ResourceLock.name).foldlM
    (holdKey startedAtMs completedAtMs lockOverlap execution) furthest

def validateFleetLockOverlap (ordered : List ObservedExecution)
    (shardLocks : List (List ResourceLock)) : Checked Unit := do
  let _ ← ordered.foldlM (lockStep .fleet shardLocks) SortedMap.empty

def validateHostLockOverlap (ordered : List ObservedExecution)
    (shardLocks : List (List ResourceLock)) : Checked Unit := do
  let orderedByHost := ordered.insertionSort fun left right => left.hostOrder ≤ right.hostOrder
  let _ ← orderedByHost.foldlM (Grouped.step SortedMap.empty hostId (lockStep .host shardLocks))
    { current := none, memory := SortedMap.empty }

def validateExecutionOverlap (plan : ShardPlan) (executions : List ObservedExecution) :
    Checked Unit := do
  let ordered := executions.insertionSort fun left right => left.startOrder ≤ right.startOrder
  validateSameShardOverlap ordered
  validateFleetExclusiveOverlap ordered
  validateFleetLockOverlap ordered (shardLocks inventory plan)
  validateHostLockOverlap ordered (shardLocks inventory plan)

/-! ## What must not overlap -/

/-- A test of the execution's shard claims the lock. -/
def Holds (plan : ShardPlan) (execution : ObservedExecution) (lock : ResourceLock) : Prop :=
  ∃ shard, plan.shard execution.shardId = some shard ∧
    ∃ id ∈ shard.testIds, ∃ test, (inventoryLookup inventory).get? id = some test ∧
      lock ∈ test.resourceLocks

abbrev Overlap (first second : ObservedExecution) : Prop :=
  Intersect startedAtMs completedAtMs first second

def SameShard (first second : ObservedExecution) : Prop := first.shardId = second.shardId

def EitherExclusive (first second : ObservedExecution) : Prop :=
  first.executionMode = .fleetExclusive ∨ second.executionMode = .fleetExclusive

def ShareFleetLock (plan : ShardPlan) (first second : ObservedExecution) : Prop :=
  ∃ name, Holds inventory plan first ⟨name, .fleet⟩ ∧ Holds inventory plan second ⟨name, .fleet⟩

def ShareHostLock (plan : ShardPlan) (first second : ObservedExecution) : Prop :=
  first.hostId = second.hostId ∧
    ∃ name, Holds inventory plan first ⟨name, .host⟩ ∧ Holds inventory plan second ⟨name, .host⟩

def Conflict (plan : ShardPlan) (first second : ObservedExecution) : Prop :=
  SameShard first second ∨ EitherExclusive first second ∨
    ShareFleetLock inventory plan first second ∨ ShareHostLock inventory plan first second

theorem Conflict.symm {inventory : TestInventory} {plan : ShardPlan}
    {first second : ObservedExecution} (hconflict : Conflict inventory plan first second) :
    Conflict inventory plan second first := by
  rcases hconflict with hshard | hexclusive | ⟨name, hfirst, hsecond⟩ |
    ⟨hhost, name, hfirst, hsecond⟩
  · exact .inl hshard.symm
  · exact .inr (.inl hexclusive.symm)
  · exact .inr (.inr (.inl ⟨name, hsecond, hfirst⟩))
  · exact .inr (.inr (.inr ⟨hhost.symm, name, hsecond, hfirst⟩))

/-! ## Each step finds what it is for -/

theorem attemptStep_sweeps :
    SweepStep attemptStep (fun _ => True) (fun _ _ => True)
      (fun y x => x.startedAtMs < y.completedAtMs) (IsFurthest completedAtMs) where
  pass {seen furthest x} hfurthest _ _ hpass := by
    have hnone : clash furthest x = none :=
      (hfurthest.clashing_eq_none_iff startedAtMs x).mpr fun y hy => Nat.le_of_not_lt (hpass y hy)
    refine ⟨later furthest x, ?_, hfurthest.advance x⟩
    rw [attemptStep, hnone]
  stop {seen furthest x y} hfurthest _ hy hclash furthest' hstep := by
    cases hprevious : clash furthest x with
    | none =>
      have hall := (hfurthest.clashing_eq_none_iff startedAtMs x).mp hprevious
      exact Nat.not_le_of_lt hclash (hall y hy)
    | some previous =>
      rw [attemptStep, hprevious] at hstep
      cases hstep

/-- What the sweep for exclusive shards knows. -/
def FleetMemory.Remembers (seen : Set ObservedExecution) (furthest : FleetMemory) : Prop :=
  IsFurthest completedAtMs seen furthest.any ∧
    IsFurthest completedAtMs {y ∈ seen | y.executionMode = .fleetExclusive} furthest.exclusive

theorem fleetExclusiveStep_sweeps :
    SweepStep fleetExclusiveStep (fun _ => True) (fun _ _ => True)
      (fun y x => EitherExclusive y x ∧ x.startedAtMs < y.completedAtMs)
      FleetMemory.Remembers where
  pass {seen furthest x} hfurthest _ _ hpass := by
    obtain ⟨hany, hexclusive⟩ := hfurthest
    let exclusives := {y : ObservedExecution | y.executionMode = .fleetExclusive}
    by_cases hmode : x.executionMode = .fleetExclusive
    · have hnone : clash furthest.any x = none :=
        (hany.clashing_eq_none_iff startedAtMs x).mpr fun y hy =>
          Nat.le_of_not_lt fun hlate => hpass y hy ⟨.inr hmode, hlate⟩
      refine ⟨⟨later furthest.any x, later furthest.exclusive x⟩, ?_, hany.advance x, ?_⟩
      · simp only [fleetExclusiveStep, if_pos hmode, hnone]
      · change IsFurthest completedAtMs (insert x seen ∩ exclusives) _
        rw [Set.insert_inter_of_mem (show x ∈ exclusives from hmode)]
        exact hexclusive.advance x
    · have hnone : clash furthest.exclusive x = none :=
        (hexclusive.clashing_eq_none_iff startedAtMs x).mpr fun y hy =>
          Nat.le_of_not_lt fun hlate => hpass y hy.1 ⟨.inl hy.2, hlate⟩
      refine ⟨⟨later furthest.any x, furthest.exclusive⟩, ?_, hany.advance x, ?_⟩
      · simp only [fleetExclusiveStep, if_neg hmode, hnone]
      · change IsFurthest completedAtMs (insert x seen ∩ exclusives) _
        rw [Set.insert_inter_of_notMem (show x ∉ exclusives from hmode)]
        exact hexclusive
  stop {seen furthest x y} hfurthest _ hy hclash furthest' hstep := by
    obtain ⟨hany, hexclusive⟩ := hfurthest
    unfold fleetExclusiveStep at hstep
    dsimp only at hstep
    split at hstep
    · cases hstep
    next hnone =>
      split at hnone
      next hmode =>
        have hall := (hany.clashing_eq_none_iff startedAtMs x).mp hnone
        exact Nat.not_le_of_lt hclash.2 (hall y hy)
      next hmode =>
        have hall := (hexclusive.clashing_eq_none_iff startedAtMs x).mp hnone
        exact Nat.not_le_of_lt hclash.2 (hall y ⟨hy, hclash.1.resolve_right hmode⟩)

section Locks

variable {inventory : TestInventory} {plan : ShardPlan}

theorem locksOf_eq (inventory : TestInventory) {execution : ObservedExecution}
    (hshard : execution.shardId < plan.shards.length) :
    ∃ locks, locksOf (shardLocks inventory plan) execution = .ok locks ∧ locks.Nodup ∧
      ∀ lock, lock ∈ locks ↔ Holds inventory plan execution lock := by
  have hget : plan.shards[execution.shardId]? = some plan.shards[execution.shardId] :=
    getElem?_eq_getElem hshard
  refine ⟨claimedLocks (inventoryLookup inventory) plan.shards[execution.shardId], ?_, ?_,
    fun lock => ?_⟩
  · rw [locksOf, shardLocks, getElem?_map, hget]
    rfl
  · exact (perm_insertionSort _ _).nodup_iff.mpr (nodup_dedup _)
  · rw [claimedLocks, mem_insertionSort, mem_dedup, mem_flatMap]
    unfold Holds
    rw [ShardPlan.shard, hget]
    simp only [Option.some.injEq, exists_eq_left']
    refine exists_congr fun id => and_congr_right fun _ => ?_
    cases (inventoryLookup inventory).get? id with
    | none => simp
    | some test => simp

/-- The names of the locks of one scope. -/
theorem scopedNames_spec {locks : List ResourceLock} (hnodup : locks.Nodup)
    (scope : ResourceLockScope) :
    ((locks.filter fun lock => lock.scope = scope).map ResourceLock.name).Nodup ∧
      ∀ name, name ∈ (locks.filter fun lock => lock.scope = scope).map ResourceLock.name ↔
        ⟨name, scope⟩ ∈ locks := by
  constructor
  · refine (hnodup.filter _).map_on fun first hfirst second hsecond hname => ?_
    have hscope := of_decide_eq_true (mem_filter.mp hfirst).2
    have hscope' := of_decide_eq_true (mem_filter.mp hsecond).2
    cases first
    cases second
    simp_all
  · intro name
    rw [mem_map]
    constructor
    · rintro ⟨⟨other, scope'⟩, hmem, rfl⟩
      obtain ⟨hlock, hscope⟩ := mem_filter.mp hmem
      exact of_decide_eq_true hscope ▸ hlock
    · exact fun hlock => ⟨⟨name, scope⟩, mem_filter.mpr ⟨hlock, decide_eq_true rfl⟩, rfl⟩

theorem lockStep_sweeps (inventory : TestInventory) (plan : ShardPlan)
    (scope : ResourceLockScope) :
    SweepStep (lockStep scope (shardLocks inventory plan))
      (fun execution => execution.shardId < plan.shards.length) (fun _ _ => True)
      (fun y x => (∃ name, Holds inventory plan y ⟨name, scope⟩ ∧
        Holds inventory plan x ⟨name, scope⟩) ∧ x.startedAtMs < y.completedAtMs)
      (fun seen => RemembersKeys completedAtMs fun name =>
        {y ∈ seen | Holds inventory plan y ⟨name, scope⟩}) where
  pass {seen furthest x} hfurthest hvalid _ hpass := by
    obtain ⟨locks, hlocks, hnodup, hholds⟩ := locksOf_eq inventory hvalid
    obtain ⟨hnames, hmem⟩ := scopedNames_spec hnodup scope
    obtain ⟨memory, hfold, hremembers⟩ := holdKeys_pass startedAtMs
      lockOverlap x hnames hfurthest fun name hname y hy => by
        have hx := (hholds _).mp ((hmem name).mp hname)
        exact Nat.le_of_not_lt fun hlate => hpass y hy.1 ⟨⟨name, hy.2, hx⟩, hlate⟩
    refine ⟨memory, ?_, fun name => ?_⟩
    · rw [lockStep, hlocks]
      exact hfold
    · convert hremembers name using 1
      ext y
      simp only [Set.mem_ofPred_eq, Set.mem_insert_iff, hmem, hholds]
      constructor
      · rintro ⟨rfl | hy, hlock⟩
        · exact .inl ⟨rfl, hlock⟩
        · exact .inr ⟨hy, hlock⟩
      · rintro (⟨rfl, hlock⟩ | ⟨hy, hlock⟩)
        · exact ⟨.inl rfl, hlock⟩
        · exact ⟨.inr hy, hlock⟩
  stop {seen furthest x y} hfurthest _ hy hclash furthest' hstep := by
    obtain ⟨⟨name, hyLock, hxLock⟩, hlate⟩ := hclash
    have hvalid : x.shardId < plan.shards.length := by
      obtain ⟨shard, hshard, _⟩ := hxLock
      exact (List.getElem?_eq_some_iff.mp hshard).1
    obtain ⟨locks, hlocks, hnodup, hholds⟩ := locksOf_eq inventory hvalid
    obtain ⟨hnames, hmem⟩ := scopedNames_spec hnodup scope
    rw [lockStep, hlocks] at hstep
    exact holdKeys_clash lockOverlap hnames hfurthest ((hmem name).mpr ((hholds _).mpr hxLock))
      ⟨hy, hyLock⟩ hlate furthest' hstep

end Locks

/-! ## The sweeps together -/

section Verified

variable {inventory : TestInventory} {plan : ShardPlan}
variable {executions ordered : List ObservedExecution}

/-- What an execution of a verified disposition satisfies. -/
structure VerifiedExecution (plan : ShardPlan) (execution : ObservedExecution) : Prop where
  known : execution.shardId < plan.shards.length
  proper : execution.startedAtMs < execution.completedAtMs

theorem remembersKeys_empty {holds : String → ObservedExecution → Prop} :
    RemembersKeys completedAtMs (fun name => {y ∈ (∅ : Set ObservedExecution) | holds name y})
      SortedMap.empty := by
  intro name
  simp [IsFurthest]

section Sweeps

variable (hverified : ∀ execution ∈ ordered, VerifiedExecution plan execution)

include hverified

theorem validateSameShardOverlap_ok_iff :
    validateSameShardOverlap ordered = .ok () ↔
      ordered.Pairwise fun first second => ¬ (SameShard first second ∧ Overlap first second) := by
  have hsorted := pairwise_insertionSort
    (fun left right : ObservedExecution => left.shardOrder ≤ right.shardOrder) ordered
  have hfresh : IsFurthest completedAtMs ∅ none := rfl
  have hstart : RemembersGroup shardId (IsFurthest completedAtMs) ∅ ⟨none, none⟩ := rfl
  have hsweep := (attemptStep_sweeps.grouped shardId hfresh).foldlM_iff_pairwise hstart
    (fun _ _ => trivial) (hsorted.imp fun hle => (Prod.Lex.toLex_le_toLex'.mp hle).1)
  rw [validateSameShardOverlap, discard_eq_ok, hsweep]
  refine pairwise_clash_iff_intersect SameShard Eq.symm (perm_insertionSort _ _)
    (fun x hx => (hverified x hx).proper) (hsorted.imp fun hle hshard => ?_)
  exact (Prod.Lex.toLex_le_toLex'.mp ((Prod.Lex.toLex_le_toLex'.mp hle).2 hshard)).1

section

variable (hsorted : ordered.Pairwise fun left right => left.startedAtMs ≤ right.startedAtMs)

include hsorted

theorem validateFleetExclusiveOverlap_ok_iff :
    validateFleetExclusiveOverlap ordered = .ok () ↔
      ordered.Pairwise fun first second =>
        ¬ (EitherExclusive first second ∧ Overlap first second) := by
  have hstart : FleetMemory.Remembers ∅ ⟨none, none⟩ := by
    refine ⟨rfl, ?_⟩
    simp [IsFurthest]
  have hsweep := fleetExclusiveStep_sweeps.foldlM_iff_pairwise hstart (fun _ _ => trivial)
    (hsorted.imp fun _ => trivial)
  rw [validateFleetExclusiveOverlap, discard_eq_ok, hsweep]
  refine pairwise_clash_iff_intersect EitherExclusive Or.symm (.refl _)
    (fun x hx => (hverified x hx).proper) ?_
  refine hsorted.imp fun hle => ?_
  exact fun _ => hle

theorem validateFleetLockOverlap_ok_iff :
    validateFleetLockOverlap ordered (shardLocks inventory plan) = .ok () ↔
      ordered.Pairwise fun first second =>
        ¬ (ShareFleetLock inventory plan first second ∧ Overlap first second) := by
  have hsweep := (lockStep_sweeps inventory plan .fleet).foldlM_iff_pairwise remembersKeys_empty
    (fun x hx => (hverified x hx).known) (hsorted.imp fun _ => trivial)
  rw [validateFleetLockOverlap, discard_eq_ok, hsweep]
  refine pairwise_clash_iff_intersect (ShareFleetLock inventory plan)
    (fun ⟨name, hfirst, hsecond⟩ => ⟨name, hsecond, hfirst⟩) (.refl _)
    (fun x hx => (hverified x hx).proper) ?_
  refine hsorted.imp fun hle => ?_
  exact fun _ => hle

end

theorem validateHostLockOverlap_ok_iff :
    validateHostLockOverlap ordered (shardLocks inventory plan) = .ok () ↔
      ordered.Pairwise fun first second =>
        ¬ (ShareHostLock inventory plan first second ∧ Overlap first second) := by
  have hsorted := pairwise_insertionSort
    (fun left right : ObservedExecution => left.hostOrder ≤ right.hostOrder) ordered
  have hgrouped := (lockStep_sweeps inventory plan .host).grouped hostId remembersKeys_empty
  have hsweep := hgrouped.foldlM_iff_pairwise
    (show RemembersGroup _ _ ∅ ⟨none, SortedMap.empty⟩ from rfl)
    (fun x hx => (hverified x ((mem_insertionSort _).mp hx)).known)
    (hsorted.imp fun hle => (Prod.Lex.toLex_le_toLex'.mp hle).1)
  have hregroup := pairwise_clash_iff_intersect (ShareHostLock inventory plan)
    (fun ⟨hhost, name, hfirst, hsecond⟩ => ⟨hhost.symm, name, hsecond, hfirst⟩)
    (perm_insertionSort (fun left right => left.hostOrder ≤ right.hostOrder) ordered)
    (fun x hx => (hverified x hx).proper) (by
      refine hsorted.imp fun hle hshared => ?_
      exact (Prod.Lex.toLex_le_toLex'.mp ((Prod.Lex.toLex_le_toLex'.mp hle).2 hshared.1)).1)
  rw [validateHostLockOverlap, discard_eq_ok, hsweep]
  simpa only [ShareHostLock, and_assoc] using hregroup

end Sweeps

/-- The sweeps together accept exactly the lists of verified executions in which no two
overlap that conflict. -/
theorem overlap_check_is_exact
    (hverified : ∀ execution ∈ executions, VerifiedExecution plan execution) :
    validateExecutionOverlap inventory plan executions = .ok () ↔
      executions.Pairwise fun first second =>
        ¬ (Conflict inventory plan first second ∧ Overlap first second) := by
  have hperm := perm_insertionSort
    (fun left right : ObservedExecution => left.startOrder ≤ right.startOrder) executions
  have hverified' := fun x hx => hverified x (hperm.mem_iff.mp hx)
  have hsorted := (pairwise_insertionSort
    (fun left right : ObservedExecution => left.startOrder ≤ right.startOrder)
    executions).imp fun hle => (Prod.Lex.toLex_le_toLex'.mp hle).1
  have hsymm : ∀ {first second}, ¬ (Conflict inventory plan first second ∧ Overlap first second) →
      ¬ (Conflict inventory plan second first ∧ Overlap second first) :=
    fun hnone hboth => hnone ⟨hboth.1.symm, hboth.2.2, hboth.2.1⟩
  rw [validateExecutionOverlap, check_eq_ok, check_eq_ok, check_eq_ok,
    validateSameShardOverlap_ok_iff hverified',
    validateFleetExclusiveOverlap_ok_iff hverified' hsorted,
    validateFleetLockOverlap_ok_iff hverified' hsorted,
    validateHostLockOverlap_ok_iff hverified', ← pairwise_and_iff, ← pairwise_and_iff,
    ← pairwise_and_iff, ← hperm.pairwise_iff hsymm]
  refine List.Pairwise.iff fun first second => ?_
  unfold Conflict
  tauto

end Verified

/-- Two tests that claim one lock of the fleet. -/
def lockedInventory : TestInventory where
  schemaVersion := parallelProofSchemaVersion
  tests := ["a", "b"].map fun id =>
    { id, dependencies := [], fixtureSetup := [], fixtureRequired := [], fixtureCleanup := [],
      runSerial := false, resourceLocks := [⟨"gpu", .fleet⟩], requiredCapabilities := [] }

def lockedPlan : ShardPlan where
  schemaVersion := parallelProofSchemaVersion
  inventoryDigest := .zero
  totalTests := 2
  shards := [⟨0, .parallel, ["a"]⟩, ⟨1, .parallel, ["b"]⟩]

/-- The second test starts when the first one has just completed. -/
def touchingExecutions : List ObservedExecution :=
  [⟨1, .parallel, "mac-2", 5, 9⟩, ⟨0, .parallel, "mac-1", 0, 5⟩]

theorem overlap_check_is_exact_for_touchingExecutions :
    (∀ execution ∈ touchingExecutions, VerifiedExecution lockedPlan execution) ∧
      validateExecutionOverlap lockedInventory lockedPlan touchingExecutions = .ok () := by
  have hverified : ∀ execution ∈ touchingExecutions, VerifiedExecution lockedPlan execution := by
    simp only [touchingExecutions, forall_mem_cons, not_mem_nil, false_imp_iff,
      implies_true, and_true]
    exact ⟨⟨by decide, by decide⟩, ⟨by decide, by decide⟩⟩
  refine ⟨hverified, (overlap_check_is_exact hverified).mpr ?_⟩
  simp [touchingExecutions, Intersect]

end Shipyard.ParallelProof
