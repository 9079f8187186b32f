import Mathlib.Algebra.GroupWithZero.Nat
import Mathlib.Data.List.Pairwise
import Shipyard.ParallelProof.Inventory

/-!
# The validation of a shard plan

A plan is bound to its inventory and puts every test into exactly one shard. A shard is not
empty, tests that depend on each other or share a fixture stand in one shard, and a test
that must run alone is the only one of a fleet-exclusive shard. The loops of the validator
that build up its maps are read back here as these conditions.
-/

namespace Shipyard.ParallelProof

open Lib List Lib.Except SortedMap

/-! ## The checks -/

def testRunsSerial (lookup : SortedMap String TestCase) (testId : String) : Bool :=
  (lookup.get? testId).any TestCase.runSerial

def TestCase.fixtures (test : TestCase) : List String :=
  test.fixtureSetup ++ test.fixtureRequired ++ test.fixtureCleanup

/-- The mode of a shard, given whether one of its tests must run alone. -/
def expectedMode (containsSerial : Bool) : ShardExecutionMode :=
  if containsSerial then .fleetExclusive else .parallel

/-- The shard of each test seen so far, and whether one of the shard's tests must run
alone. -/
structure ShardScan where
  membership : SortedMap String Nat
  containsSerial : Bool

def scanTest (lookup : SortedMap String TestCase) (shardId : Nat) (scan : ShardScan)
    (testId : String) : Checked ShardScan :=
  match lookup.get? testId with
  | none => .error (.unknownTest testId)
  | some test => do
    require (scan.membership.get? testId = none)
      (.invalidPartition "test appears in more than one shard")
    pure {
      membership := scan.membership.insert testId shardId
      containsSerial := scan.containsSerial || test.runSerial }

def scanShard (lookup : SortedMap String TestCase) (membership : SortedMap String Nat)
    (entry : TestShard × Nat) : Checked (SortedMap String Nat) := do
  let (shard, index) := entry
  require (shard.id = index) (.nonCanonical "shard ids")
  require (shard.testIds ≠ [] ∧ strictlySorted shard.testIds = true)
    (.nonCanonical "shard test ids")
  let scan ← shard.testIds.foldlM (scanTest lookup shard.id)
    { membership, containsSerial := false }
  require (shard.executionMode = expectedMode scan.containsSerial)
    (.bindingMismatch "shard execution mode")
  require (scan.containsSerial = true → shard.testIds.length = 1)
    (.topologyViolation ("RUN_SERIAL shard " ++ toString shard.id ++ " contains multiple tests"))
  pure scan.membership

/-- The shard of a test; once all tests are assigned each has one. -/
def shardOf (membership : SortedMap String Nat) (testId : String) : Nat :=
  (membership.get? testId).getD 0

def checkDependencyShards (membership : SortedMap String Nat) (test : TestCase) : Checked Unit :=
  test.dependencies.forM fun dependency =>
    require (shardOf membership dependency = shardOf membership test.id)
      (.topologyViolation ("dependency " ++ test.id ++ " -> " ++ dependency ++ " crosses shards"))

/-- Every use of a fixture with the shard of the test that uses it. -/
def fixtureIndexing (membership : SortedMap String Nat) :
    Indexing (TestCase × String) String Nat ParallelProofError where
  check _ := .ok ()
  conflict entry := .topologyViolation ("fixture " ++ entry.2 ++ " crosses shards")
  key := Prod.snd
  value entry := shardOf membership entry.1.id

def fixtureUses (tests : List TestCase) : List (TestCase × String) :=
  tests.flatMap fun test => test.fixtures.map fun fixture => (test, fixture)

namespace ShardPlan

variable (codec : Codec) (plan : ShardPlan) (inventory : TestInventory)

def validateInputBounds (expectedMemberships : Nat) : Checked Unit := do
  ensureSerializedBound codec "shard plan bytes" (.plan plan)
  let membershipCount := (plan.shards.map fun shard => shard.testIds.length).sum
  ensureCount "shard test memberships" membershipCount 1 maxTests
  require (membershipCount = expectedMemberships)
    (.invalidPartition "shard membership count does not match inventory")
  plan.shards.forM fun shard => shard.testIds.forM (validateIdentifier "shard test id")

def validateAgainst : Checked Unit := do
  validateVersion plan.schemaVersion
  inventory.validate codec
  ensureCount "shards" plan.shards.length 1 maxShards
  plan.validateInputBounds codec inventory.tests.length
  let inventoryDigest ← inventory.digest codec
  require (plan.inventoryDigest = inventoryDigest) (.bindingMismatch "inventory digest")
  require (plan.totalTests = inventory.tests.length) (.bindingMismatch "test count")
  let membership ← plan.shards.zipIdx.foldlM (scanShard (inventoryLookup inventory))
    SortedMap.empty
  require (membership.entries.length = inventory.tests.length)
    (.invalidPartition "one or more tests are unassigned")
  inventory.tests.forM (checkDependencyShards membership)
  let _ ← (fixtureIndexing membership).run (fixtureUses inventory.tests) SortedMap.empty

def digest : Checked Sha256Digest := do
  plan.validateAgainst codec inventory
  pure (codec.canonicalDigest "shipyard.parallel-proof.plan.v1" (.plan plan))

end ShardPlan

/-! ## Sorted lists and the lookup -/

theorem strictlySorted_iff {values : List String} :
    strictlySorted values = true ↔ values.Pairwise (· < ·) := by
  rw [← isChain_iff_pairwise]
  induction values with
  | nil => simp [strictlySorted]
  | cons first rest ih =>
    cases rest with
    | nil => simp [strictlySorted]
    | cons second rest =>
      rw [strictlySorted, Bool.and_eq_true, decide_eq_true_eq, ih, isChain_cons_cons]

theorem nodup_of_strictlySorted {values : List String}
    (hsorted : strictlySorted values = true) : values.Nodup :=
  (strictlySorted_iff.mp hsorted).imp fun hlt => hlt.ne

variable {inventory : TestInventory}

/-- The parts of the inventory's validation that the plan relies on. -/
theorem TestInventory.validate_spec {codec : Codec} (hvalid : inventory.validate codec = .ok ()) :
    strictlySorted (inventory.tests.map TestCase.id) = true ∧
      ∀ test ∈ inventory.tests, ∀ dependency ∈ test.dependencies,
        dependency ∈ inventory.tests.map TestCase.id := by
  unfold validate at hvalid
  simp only [bind_eq_ok, exists_unit, require_eq_ok] at hvalid
  obtain ⟨_, _, _, _, hsorted, index, hindex, _, _⟩ := hvalid
  refine ⟨hsorted, ?_⟩
  have hall := foldlM_invariant
    (fun (done : List TestCase) _ => ∀ test ∈ done, ∀ dependency ∈ test.dependencies,
      dependency ∈ inventory.tests.map TestCase.id) ?_ nofun hindex
  · exact hall
  · intro done index test next hdone hstep other hother
    rcases mem_append.mp hother with hother | hother
    · exact hdone other hother
    · obtain rfl := mem_singleton.mp hother
      unfold indexTest at hstep
      simp only [check_eq_ok, forM_eq_ok, checkDependency, require_eq_ok] at hstep
      exact fun dependency hdependency => (hstep.2.1 dependency hdependency).2

/-! ## One shard -/

section Scan

variable {lookup : SortedMap String TestCase} {membership membership' : SortedMap String Nat}
  {shardId : Nat} {ids : List String} {scan scan' : ShardScan}

theorem scanTest_eq_ok {testId : String} :
    scanTest lookup shardId scan testId = .ok scan' ↔
      ((lookup.get? testId).isSome = true ∧ scan.membership.get? testId = none) ∧
        ⟨scan.membership.insert testId shardId,
          scan.containsSerial || testRunsSerial lookup testId⟩ = scan' := by
  unfold scanTest testRunsSerial
  cases lookup.get? testId with
  | none => simp
  | some test =>
    simp only [check_eq_ok, require_eq_ok, pure_eq_ok, Option.isSome_some,
      true_and, Option.any_some]

theorem scanTests_ok (hnodup : ids.Nodup)
    (hscan : ids.foldlM (scanTest lookup shardId) scan = .ok scan') :
    (∀ id ∈ ids, (lookup.get? id).isSome = true ∧ scan.membership.get? id = none) ∧
      ⟨scan.membership.insertAll (fun _ => shardId) ids,
        scan.containsSerial || ids.any (testRunsSerial lookup)⟩ = scan' := by
  induction ids generalizing scan with
  | nil => simpa [SortedMap.insertAll, pure_eq_ok] using hscan
  | cons id rest ih =>
    obtain ⟨hid, hrest⟩ := nodup_cons.mp hnodup
    rw [foldlM_cons, bind_eq_ok] at hscan
    obtain ⟨next, hstep, hscan⟩ := hscan
    obtain ⟨hknown, rfl⟩ := scanTest_eq_ok.mp hstep
    obtain ⟨hall, rfl⟩ := ih hrest hscan
    refine ⟨forall_mem_cons.mpr ⟨hknown, fun other hother => ?_⟩, ?_⟩
    · obtain ⟨hlisted, hnew⟩ := hall other hother
      have hne : other ≠ id := fun heq => hid (heq ▸ hother)
      rw [get?_insert_of_ne _ hne] at hnew
      exact ⟨hlisted, hnew⟩
    · rw [any_cons, ← Bool.or_assoc]
      rfl

/-- What the validator asks of a shard by itself. -/
structure ValidShard (lookup : SortedMap String TestCase) (shard : TestShard) : Prop where
  nonempty : shard.testIds ≠ []
  sorted : strictlySorted shard.testIds = true
  known : ∀ id ∈ shard.testIds, (lookup.get? id).isSome = true
  mode : shard.executionMode = expectedMode (shard.testIds.any (testRunsSerial lookup))
  alone : shard.testIds.any (testRunsSerial lookup) = true → shard.testIds.length = 1

/-- Enters the tests of a shard. -/
def enterShard (membership : SortedMap String Nat) (shard : TestShard) : SortedMap String Nat :=
  membership.insertAll (fun _ => shard.id) shard.testIds

theorem scanShard_ok {shard : TestShard} {index : Nat}
    (hscan : scanShard lookup membership (shard, index) = .ok membership') :
    (shard.id = index ∧ ValidShard lookup shard ∧
        ∀ id ∈ shard.testIds, membership.get? id = none) ∧
      enterShard membership shard = membership' := by
  unfold scanShard at hscan
  simp only [bind_eq_ok, exists_unit, require_eq_ok, pure_eq_ok] at hscan
  obtain ⟨hid, ⟨hnonempty, hsorted⟩, scan, hscan, hmode, halone, rfl⟩ := hscan
  obtain ⟨hall, rfl⟩ := scanTests_ok (nodup_of_strictlySorted hsorted) hscan
  rw [Bool.false_or] at hmode halone
  exact ⟨⟨hid, ⟨hnonempty, hsorted, fun id hmem => (hall id hmem).1, hmode, halone⟩,
    fun id hmem => (hall id hmem).2⟩, rfl⟩

end Scan

/-! ## All shards -/

section Shards

variable {lookup : SortedMap String TestCase} {membership membership' : SortedMap String Nat}
  {entries : List (TestShard × Nat)} {shards : List TestShard}

def Disjoint (first second : TestShard) : Prop := ∀ id ∈ first.testIds, id ∉ second.testIds

theorem get?_enterShard {shard : TestShard} {id : String} :
    (enterShard membership shard).get? id =
      if id ∈ shard.testIds then some shard.id else membership.get? id :=
  get?_insertAll _ _ _ _

theorem scanShards_ok (hscan : entries.foldlM (scanShard lookup) membership = .ok membership') :
    ((∀ entry ∈ entries, entry.1.id = entry.2 ∧ ValidShard lookup entry.1 ∧
          ∀ id ∈ entry.1.testIds, membership.get? id = none) ∧
        (entries.map Prod.fst).Pairwise Disjoint) ∧
      (entries.map Prod.fst).foldl enterShard membership = membership' := by
  induction entries generalizing membership with
  | nil => simpa [pure_eq_ok] using hscan
  | cons entry rest ih =>
    obtain ⟨shard, index⟩ := entry
    rw [foldlM_cons, bind_eq_ok] at hscan
    obtain ⟨next, hstep, hscan⟩ := hscan
    obtain ⟨hshard, rfl⟩ := scanShard_ok hstep
    obtain ⟨⟨hall, hdisjoint⟩, rfl⟩ := ih hscan
    have hfresh : ∀ id, (enterShard membership shard).get? id = none →
        id ∉ shard.testIds ∧ membership.get? id = none := by
      intro id hnone
      rw [get?_enterShard] at hnone
      split at hnone
      · cases hnone
      next hmem => exact ⟨hmem, hnone⟩
    rw [forall_mem_cons, map_cons, pairwise_cons, forall_mem_map]
    refine ⟨⟨⟨hshard, fun other hother => ?_⟩, fun other hother id hid hmem => ?_, hdisjoint⟩, rfl⟩
    · obtain ⟨hid, hvalid, hnone⟩ := hall other hother
      exact ⟨hid, hvalid, fun id hmem => (hfresh id (hnone id hmem)).2⟩
    · exact (hfresh id ((hall other hother).2.2 id hmem)).1 hid

/-- After all shards have been entered, a test has the shard that names it. -/
theorem get?_enterShards (hdisjoint : shards.Pairwise Disjoint) {id : String} {shardId : Nat} :
    (shards.foldl enterShard membership).get? id = some shardId ↔
      (∃ shard ∈ shards, id ∈ shard.testIds ∧ shard.id = shardId) ∨
        (∀ shard ∈ shards, id ∉ shard.testIds) ∧ membership.get? id = some shardId := by
  induction shards generalizing membership with
  | nil => simp
  | cons shard rest ih =>
    obtain ⟨hapart, hrest⟩ := pairwise_cons.mp hdisjoint
    rw [foldl_cons, ih hrest, get?_enterShard, exists_mem_cons_iff,
      forall_mem_cons]
    by_cases hmem : id ∈ shard.testIds
    · have hothers : ∀ other ∈ rest, id ∉ other.testIds := fun other hother =>
        hapart other hother id hmem
      have hnone : ¬ ∃ other ∈ rest, id ∈ other.testIds ∧ other.id = shardId :=
        fun ⟨other, hother, hid, _⟩ => hothers other hother hid
      simpa [hmem, hnone] using fun _ => hothers
    · simp [hmem]

end Shards

/-! ## What a valid plan is -/

/-- Two tests stand in one shard. -/
def Together (plan : ShardPlan) (first second : String) : Prop :=
  ∃ shard ∈ plan.shards, first ∈ shard.testIds ∧ second ∈ shard.testIds

/-- The parts of the validation that are about where the tests stand. -/
structure Partitions (plan : ShardPlan) (inventory : TestInventory) : Prop where
  numbered : ∀ entry ∈ plan.shards.zipIdx, entry.1.id = entry.2
  shards : ∀ shard ∈ plan.shards, ValidShard (inventoryLookup inventory) shard
  disjoint : plan.shards.Pairwise Disjoint
  covered : ∀ test ∈ inventory.tests, ∃ shard ∈ plan.shards, test.id ∈ shard.testIds
  dependencies : ∀ test ∈ inventory.tests, ∀ dependency ∈ test.dependencies,
    Together plan dependency test.id
  fixtures : ∀ first ∈ inventory.tests, ∀ second ∈ inventory.tests, ∀ fixture,
    fixture ∈ first.fixtures → fixture ∈ second.fixtures → Together plan first.id second.id

/-- The parts that bind the plan to the inventory and bound its size. -/
structure Bound (codec : Codec) (plan : ShardPlan) (inventory : TestInventory) : Prop where
  version : validateVersion plan.schemaVersion = .ok ()
  inventoryValid : inventory.validate codec = .ok ()
  shardCount : ensureCount "shards" plan.shards.length 1 maxShards = .ok ()
  inputBounds : plan.validateInputBounds codec inventory.tests.length = .ok ()
  inventoryDigest : plan.inventoryDigest =
    codec.canonicalDigest "shipyard.parallel-proof.inventory.v1" (.inventory inventory)
  totalTests : plan.totalTests = inventory.tests.length

section Validation

variable {codec : Codec} {plan : ShardPlan} {inventory : TestInventory}

/-- The shard of every test, as the validator builds it up. -/
def assignedShards (plan : ShardPlan) : SortedMap String Nat :=
  plan.shards.foldl enterShard SortedMap.empty

theorem get?_assignedShards (hdisjoint : plan.shards.Pairwise Disjoint) {id : String}
    {shardId : Nat} :
    (assignedShards plan).get? id = some shardId ↔
      ∃ shard ∈ plan.shards, id ∈ shard.testIds ∧ shard.id = shardId := by
  rw [assignedShards, get?_enterShards hdisjoint, get?_empty]
  simp

/-- Every test is assigned if there are as many assigned tests as tests. -/
theorem covered_of_length (hnodup : (inventory.tests.map TestCase.id).Nodup)
    (hshards : ∀ shard ∈ plan.shards, ValidShard (inventoryLookup inventory) shard)
    (hdisjoint : plan.shards.Pairwise Disjoint)
    (hlength : (assignedShards plan).entries.length = inventory.tests.length) :
    ∀ test ∈ inventory.tests, ∃ shard ∈ plan.shards, test.id ∈ shard.testIds := by
  have hkeys : (assignedShards plan).keys.Nodup :=
    (assignedShards plan).sorted.imp fun hlt => hlt.ne
  have hassigned : ∀ id ∈ (assignedShards plan).keys,
      ∃ shard ∈ plan.shards, id ∈ shard.testIds := by
    intro id hid
    obtain ⟨shardId, -, hget⟩ := get?_of_mem_keys hid
    obtain ⟨shard, hshard, hmem, -⟩ := (get?_assignedShards hdisjoint).mp hget
    exact ⟨shard, hshard, hmem⟩
  have hsubset : (assignedShards plan).keys ⊆ inventory.tests.map TestCase.id := by
    intro id hid
    obtain ⟨shard, hshard, hmem⟩ := hassigned id hid
    obtain ⟨test, htest⟩ := Option.isSome_iff_exists.mp ((hshards shard hshard).known id hmem)
    exact mem_map.mpr ⟨test, (get?_indexBy fun _ hfirst _ hsecond =>
      inj_on_of_nodup_map hnodup hfirst hsecond).mp htest⟩
  have hperm : (assignedShards plan).keys.Perm (inventory.tests.map TestCase.id) := by
    refine (subperm_of_subset hkeys hsubset).perm_of_length_le ?_
    rw [SortedMap.keys, length_map, length_map]
    exact hlength.ge
  intro test htest
  exact hassigned test.id (hperm.symm.subset (mem_map_of_mem htest))

theorem shard_of_mem (hnumbered : ∀ entry ∈ plan.shards.zipIdx, entry.1.id = entry.2)
    {shard : TestShard} (hshard : shard ∈ plan.shards) : plan.shard shard.id = some shard := by
  obtain ⟨index, hindex⟩ := mem_iff_getElem?.mp hshard
  rw [hnumbered (shard, index) (mem_zipIdx_iff_getElem?.mpr hindex)]
  exact hindex

theorem shard_eq_of_id_eq (hnumbered : ∀ entry ∈ plan.shards.zipIdx, entry.1.id = entry.2)
    {first second : TestShard} (hfirst : first ∈ plan.shards) (hsecond : second ∈ plan.shards)
    (hid : first.id = second.id) : first = second := by
  have hget := shard_of_mem hnumbered hfirst
  rw [hid, shard_of_mem hnumbered hsecond] at hget
  exact (Option.some.inj hget).symm

/-- A test stands in one shard. -/
theorem Partitions.shard_unique (hpartitions : Partitions plan inventory) {id : String}
    {first second : TestShard} (hfirst : first ∈ plan.shards) (hsecond : second ∈ plan.shards)
    (hleft : id ∈ first.testIds) (hright : id ∈ second.testIds) : first = second := by
  by_contra hne
  have hsymm : Std.Symm Disjoint := ⟨fun _ _ hapart id hid hmem => hapart id hmem hid⟩
  exact hpartitions.disjoint.forall hfirst hsecond hne id hleft hright

/-- Assigned tests of one shard stand together. -/
theorem together_of_shardOf_eq (hnumbered : ∀ entry ∈ plan.shards.zipIdx, entry.1.id = entry.2)
    (hdisjoint : plan.shards.Pairwise Disjoint) {first second : String}
    (hfirst : ∃ shard ∈ plan.shards, first ∈ shard.testIds)
    (hsecond : ∃ shard ∈ plan.shards, second ∈ shard.testIds)
    (hid : shardOf (assignedShards plan) first = shardOf (assignedShards plan) second) :
    Together plan first second := by
  obtain ⟨shard, hshard, hmem⟩ := hfirst
  obtain ⟨shard', hshard', hmem'⟩ := hsecond
  have hget := (get?_assignedShards hdisjoint).mpr ⟨shard, hshard, hmem, rfl⟩
  have hget' := (get?_assignedShards hdisjoint).mpr ⟨shard', hshard', hmem', rfl⟩
  rw [shardOf, shardOf, hget, hget', Option.getD_some, Option.getD_some] at hid
  obtain rfl := shard_eq_of_id_eq hnumbered hshard hshard' hid
  exact ⟨shard, hshard, hmem, hmem'⟩

/-- The validator accepts only bound plans that partition the inventory. -/
theorem ShardPlan.validateAgainst_spec (hplan : plan.validateAgainst codec inventory = .ok ()) :
    Bound codec plan inventory ∧ Partitions plan inventory := by
  unfold validateAgainst at hplan
  simp only [bind_eq_ok, exists_unit, require_eq_ok, forM_eq_ok, TestInventory.digest,
    pure_eq_ok, checkDependencyShards] at hplan
  obtain ⟨hversion, hvalid, hcount, hbounds, digest, ⟨-, rfl⟩, hdigest, htotal, membership,
    hscan, hlength, hdependencies, map, hfixtures, -⟩ := hplan
  obtain ⟨⟨hentries, hdisjoint⟩, hmembership⟩ := scanShards_ok hscan
  rw [zipIdx_map_fst] at hdisjoint hmembership
  subst hmembership
  have hnumbered : ∀ entry ∈ plan.shards.zipIdx, entry.1.id = entry.2 :=
    fun entry hentry => (hentries entry hentry).1
  have hshards : ∀ shard ∈ plan.shards, ValidShard (inventoryLookup inventory) shard := by
    intro shard hshard
    obtain ⟨index, hindex⟩ := mem_iff_getElem?.mp hshard
    exact (hentries (shard, index) (mem_zipIdx_iff_getElem?.mpr hindex)).2.1
  obtain ⟨hsorted, hdeclared⟩ := TestInventory.validate_spec hvalid
  have hcovered := covered_of_length (nodup_of_strictlySorted hsorted) hshards hdisjoint hlength
  refine ⟨⟨hversion, hvalid, hcount, hbounds, hdigest, htotal⟩,
    hnumbered, hshards, hdisjoint, hcovered, fun test htest dependency hdependency => ?_,
    fun first hfirst second hsecond fixture hleft hright => ?_⟩
  · obtain ⟨other, hother, rfl⟩ := mem_map.mp (hdeclared test htest dependency hdependency)
    exact together_of_shardOf_eq hnumbered hdisjoint (hcovered other hother)
      (hcovered test htest) (hdependencies test htest other.id hdependency)
  · refine together_of_shardOf_eq hnumbered hdisjoint (hcovered first hfirst)
      (hcovered second hsecond) ?_
    exact (Indexing.run_spec hfixtures).1.agree
      (first, fixture) (mem_flatMap.mpr ⟨first, hfirst, mem_map_of_mem hleft⟩)
      (second, fixture) (mem_flatMap.mpr ⟨second, hsecond, mem_map_of_mem hright⟩) rfl

end Validation

end Shipyard.ParallelProof
