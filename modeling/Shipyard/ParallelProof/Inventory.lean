import Mathlib.Data.Prod.Lex
import Mathlib.Data.List.Sort
import Shipyard.Lib.Index
import Shipyard.ParallelProof.Records

/-!
# The test inventory

An inventory is canonical: its tests are sorted by their ids, and the lists of each test
are sorted and without duplicates. Dependencies name other tests of the inventory and have
no cycle, a fixture that is required or cleaned up is set up somewhere, and a resource lock
has one scope.
-/

namespace Shipyard.ParallelProof

open Lib

/-! ## One test -/

def ResourceLockScope.rank : ResourceLockScope → Nat
  | .host => 0
  | .fleet => 1

/-- The derived order of locks: by name, then by scope. -/
def ResourceLock.sortKey (lock : ResourceLock) : Lex (String × Nat) :=
  toLex (lock.name, lock.scope.rank)

def sortUniqueStrings (values : List String) (field : String) : Checked (List String) := do
  values.forM (validateIdentifier field)
  let sorted := values.insertionSort (· ≤ ·)
  rejectAdjacentDuplicates field sorted
  pure sorted

def canonicalizeTest (test : TestCase) : Checked TestCase := do
  validateIdentifier "test id" test.id
  let dependencies ← sortUniqueStrings test.dependencies "dependencies"
  let fixtureSetup ← sortUniqueStrings test.fixtureSetup "fixture setup"
  let fixtureRequired ← sortUniqueStrings test.fixtureRequired "fixture required"
  let fixtureCleanup ← sortUniqueStrings test.fixtureCleanup "fixture cleanup"
  let requiredCapabilities ← sortUniqueStrings test.requiredCapabilities "required capabilities"
  test.resourceLocks.forM fun lock => validateIdentifier "resource lock" lock.name
  let resourceLocks := test.resourceLocks.insertionSort fun left right =>
    left.sortKey ≤ right.sortKey
  rejectAdjacentDuplicates "resource locks" resourceLocks
  pure { test with
    dependencies, fixtureSetup, fixtureRequired, fixtureCleanup, resourceLocks,
    requiredCapabilities }

def validateCanonicalTest (test : TestCase) : Checked Unit := do
  let canonical ← canonicalizeTest test
  require (canonical = test) (.nonCanonical "test metadata")

/-! ## The dependency graph -/

/-- Counts of the dependencies not visited yet, and the tests with none left, in order. -/
structure Frontier where
  indegree : SortedMap String Nat
  ready : List String

/-- One dependency of `child` has been visited. -/
def Frontier.release (frontier : Frontier) (child : String) : Checked Frontier :=
  match frontier.indegree.get? child with
  | none => .error (.unknownTest child)
  | some count =>
    .ok {
      indegree := frontier.indegree.insert child (count - 1)
      ready :=
        if count - 1 = 0 ∧ child ∉ frontier.ready then
          frontier.ready.orderedInsert (· ≤ ·) child
        else frontier.ready }

/-- Visits the ready tests, the first of them first, and counts them. A test is ready once
at most, so there are no more rounds than tests. -/
def visitReady (dependents : SortedMap String (List String)) :
    Nat → Frontier → Nat → Checked Nat
  | 0, _, visited => .ok visited
  | fuel + 1, frontier, visited =>
    match frontier.ready with
    | [] => .ok visited
    | id :: rest => do
      let next ← ((dependents.get? id).getD []).foldlM Frontier.release
        { frontier with ready := rest }
      visitReady dependents fuel next (visited + 1)

def validateDependencyAcyclic (inventory : TestInventory) : Checked Unit := do
  let indegree := inventory.tests.foldl
    (fun indegree test => indegree.insert test.id test.dependencies.length) SortedMap.empty
  let dependents := inventory.tests.foldl (fun dependents test =>
    test.dependencies.foldl (fun dependents dependency =>
      dependents.insert dependency ((dependents.get? dependency).getD [] ++ [test.id])) dependents)
    SortedMap.empty
  let ready := (indegree.entries.filter fun entry => entry.2 = 0).map Prod.fst
  let visited ← visitReady dependents inventory.tests.length { indegree, ready } 0
  require (visited = inventory.tests.length)
    (.topologyViolation "dependency graph contains a cycle")

/-! ## The inventory -/

def ensureTestRelationBound (tests : List TestCase) : Checked Unit := do
  let counts := tests.flatMap fun test =>
    [test.dependencies.length, test.fixtureSetup.length, test.fixtureRequired.length,
      test.fixtureCleanup.length, test.resourceLocks.length, test.requiredCapabilities.length]
  let _ ← counts.foldlM (fun relationCount count =>
    if maxRelations < relationCount + count then
      .error (.limitExceeded "test relations" maxRelations (relationCount + count))
    else .ok (relationCount + count)) 0

/-- How often each fixture is set up, and the scope of each lock. -/
structure InventoryIndex where
  fixtureSetups : SortedMap String Nat
  resourceScopes : SortedMap String ResourceLockScope

def checkDependency (ids : List String) (test : TestCase) (dependency : String) :
    Checked Unit := do
  require (dependency ≠ test.id)
    (.topologyViolation ("test " ++ test.id ++ " depends on itself"))
  require (dependency ∈ ids) (.unknownTest dependency)

def indexLock (scopes : SortedMap String ResourceLockScope) (lock : ResourceLock) :
    Checked (SortedMap String ResourceLockScope) :=
  scopes.insertUnchanged
    (.topologyViolation ("resource lock " ++ lock.name ++ " has inconsistent scope"))
    lock.name lock.scope

def indexTest (ids : List String) (index : InventoryIndex) (test : TestCase) :
    Checked InventoryIndex := do
  validateCanonicalTest test
  test.dependencies.forM (checkDependency ids test)
  let fixtureSetups := test.fixtureSetup.foldl
    (fun setups fixture => setups.insert fixture ((setups.get? fixture).getD 0 + 1))
    index.fixtureSetups
  let resourceScopes ← test.resourceLocks.foldlM indexLock index.resourceScopes
  pure { fixtureSetups, resourceScopes }

def checkFixture (setups : SortedMap String Nat) (fixture : String) : Checked Unit :=
  require ((setups.get? fixture).isSome = true)
    (.topologyViolation ("fixture " ++ fixture ++ " has no setup test"))

namespace TestInventory

variable (codec : Codec) (inventory : TestInventory)

def validate : Checked Unit := do
  validateVersion inventory.schemaVersion
  ensureCount "tests" inventory.tests.length 1 maxTests
  ensureTestRelationBound inventory.tests
  ensureSerializedBound codec "inventory bytes" (.inventory inventory)
  let ids := inventory.tests.map TestCase.id
  require (strictlySorted ids = true) (.nonCanonical "test ids")
  let index ← inventory.tests.foldlM (indexTest ids)
    { fixtureSetups := SortedMap.empty, resourceScopes := SortedMap.empty }
  inventory.tests.forM fun test =>
    (test.fixtureRequired ++ test.fixtureCleanup).forM (checkFixture index.fixtureSetups)
  validateDependencyAcyclic inventory

def digest : Checked Sha256Digest := do
  inventory.validate codec
  pure (codec.canonicalDigest "shipyard.parallel-proof.inventory.v1" (.inventory inventory))

end TestInventory

def inventoryLookup (inventory : TestInventory) : SortedMap String TestCase :=
  indexBy TestCase.id inventory.tests

end Shipyard.ParallelProof
