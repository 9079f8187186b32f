import Shipyard.ParallelProof.Attempts

/-!
# Attempt chains

The issued assignments are recorded by shard and attempt. The attempts of a shard must be
numbered from one without a gap and have increasing fences, and no two assignments share a
fence. The last attempt of a shard is its active one. What is recorded, and whether it can
be, depends only on which assignments there are and not on their order.
-/

namespace Shipyard.ParallelProof

open Lib List Lib.Except SortedMap

/-! ## The checks -/

/-- The attempts of each shard and the fences seen. -/
structure AttemptTable where
  byShard : SortedMap Nat (SortedMap Nat ControllerAssignment)
  fences : List Nat

namespace AttemptTable

def empty : AttemptTable where
  byShard := SortedMap.empty
  fences := []

def attempts (table : AttemptTable) (shardId : Nat) : SortedMap Nat ControllerAssignment :=
  (table.byShard.get? shardId).getD SortedMap.empty

def record (codec : Codec) (key : ControllerKey) (manifest : ParallelProofManifest)
    (bindings : ValidatedProofBindings) (table : AttemptTable)
    (assignment : ControllerAssignment) : Checked AttemptTable := do
  assignment.verify codec key
  validateAssignmentBindingCached manifest bindings assignment
  let claims := assignment.claims
  require (claims.fence ∉ table.fences)
    (.invalidAttemptSequence ("duplicate fence " ++ toString claims.fence))
  let attempts ← (table.attempts claims.shardId).insertUnchanged
    (.immutableConflict ("assignment " ++ attemptText assignment.attemptKey))
    claims.attempt assignment
  pure {
    byShard := table.byShard.insert claims.shardId attempts
    fences := table.fences ++ [claims.fence] }

end AttemptTable

def checkAttempt (shardId previousFence : Nat) (entry : (Nat × ControllerAssignment) × Nat) :
    Checked Nat := do
  let ((attempt, assignment), index) := entry
  require (attempt = index + 1 ∧ previousFence < assignment.claims.fence)
    (.invalidAttemptSequence ("shard " ++ toString shardId ++
      " must have contiguous attempts and increasing fences"))
  pure assignment.claims.fence

/-- The active assignment of a shard whose attempts form a chain. -/
def checkChain (entry : Nat × SortedMap Nat ControllerAssignment) :
    Checked ControllerAssignment := do
  let (shardId, attempts) := entry
  let _ ← attempts.entries.zipIdx.foldlM (checkAttempt shardId) 0
  match attempts.last? with
  | some (_, assignment) => pure assignment
  | none =>
    .error (.invalidAttemptSequence ("shard " ++ toString shardId ++ " has no assignment"))

def activateShard (active : SortedMap Nat ControllerAssignment)
    (entry : Nat × SortedMap Nat ControllerAssignment) :
    Checked (SortedMap Nat ControllerAssignment) := do
  let assignment ← checkChain entry
  pure (active.insert entry.1 assignment)

def validateAttemptChains (codec : Codec) (key : ControllerKey) (manifest : ParallelProofManifest)
    (bindings : ValidatedProofBindings) (assignments : List ControllerAssignment) :
    Checked (SortedMap Nat ControllerAssignment) := do
  let table ← assignments.foldlM (AttemptTable.record codec key manifest bindings)
    AttemptTable.empty
  table.byShard.entries.foldlM activateShard SortedMap.empty

/-! ## What is recorded -/

section Record

variable {codec : Codec} {key : ControllerKey} {manifest : ParallelProofManifest}
  {bindings : ValidatedProofBindings} {table next : AttemptTable}
  {assignments other done : List ControllerAssignment} {assignment : ControllerAssignment}

/-- Assignments that can be recorded, in any order. -/
structure Recordable (codec : Codec) (key : ControllerKey) (manifest : ParallelProofManifest)
    (bindings : ValidatedProofBindings) (assignments : List ControllerAssignment) : Prop where
  verified : ∀ assignment ∈ assignments, assignment.verify codec key = .ok () ∧
    validateAssignmentBindingCached manifest bindings assignment = .ok ()
  fences : (assignments.map fun assignment => assignment.claims.fence).Nodup
  agree : ∀ first ∈ assignments, ∀ second ∈ assignments,
    first.attemptKey = second.attemptKey → first = second

/-- What the table of recorded assignments holds. -/
structure AttemptTable.Holds (table : AttemptTable) (assignments : List ControllerAssignment) :
    Prop where
  fences : table.fences = assignments.map fun assignment => assignment.claims.fence
  shards : ∀ shardId, (table.byShard.get? shardId).isSome = true ↔
    ∃ assignment ∈ assignments, assignment.claims.shardId = shardId
  attempts : ∀ shardId attempt assignment,
    (table.attempts shardId).get? attempt = some assignment ↔
      assignment ∈ assignments ∧ assignment.attemptKey = toLex (shardId, attempt)

theorem AttemptTable.record_eq_ok :
    table.record codec key manifest bindings assignment = .ok next ↔
      assignment.verify codec key = .ok () ∧
      validateAssignmentBindingCached manifest bindings assignment = .ok () ∧
      assignment.claims.fence ∉ table.fences ∧
      (∀ previous, (table.attempts assignment.claims.shardId).get? assignment.claims.attempt =
        some previous → previous = assignment) ∧
      AttemptTable.mk
        (table.byShard.insert assignment.claims.shardId
          ((table.attempts assignment.claims.shardId).insert assignment.claims.attempt assignment))
        (table.fences ++ [assignment.claims.fence]) = next := by
  unfold AttemptTable.record
  simp only [bind_eq_ok, exists_unit, require_eq_ok, insertUnchanged_eq_ok,
    pure_eq_ok]
  constructor
  · rintro ⟨hverify, hbinding, hfence, _, ⟨hkept, rfl⟩, hnext⟩
    exact ⟨hverify, hbinding, hfence, hkept, hnext⟩
  · rintro ⟨hverify, hbinding, hfence, hkept, hnext⟩
    exact ⟨hverify, hbinding, hfence, _, ⟨hkept, rfl⟩, hnext⟩

theorem AttemptTable.attempts_insert (table : AttemptTable) (shardId : Nat)
    (attempts : SortedMap Nat ControllerAssignment) (fences : List Nat) (other : Nat) :
    (AttemptTable.mk (table.byShard.insert shardId attempts) fences).attempts other =
      if other = shardId then attempts else table.attempts other := by
  unfold AttemptTable.attempts
  rw [get?_insert]
  split
  · rfl
  · rfl

theorem attemptKey_eq_iff {shardId attempt : Nat} :
    assignment.attemptKey = toLex (shardId, attempt) ↔
      assignment.claims.shardId = shardId ∧ assignment.claims.attempt = attempt := by
  rw [ControllerAssignment.attemptKey, toLex.injective.eq_iff, Prod.mk.injEq]

theorem AttemptTable.Holds.record (htable : table.Holds done)
    (hkept : ∀ previous, (table.attempts assignment.claims.shardId).get?
      assignment.claims.attempt = some previous → previous = assignment) :
    (AttemptTable.mk
      (table.byShard.insert assignment.claims.shardId
        ((table.attempts assignment.claims.shardId).insert assignment.claims.attempt assignment))
      (table.fences ++ [assignment.claims.fence])).Holds (done ++ [assignment]) where
  fences := by
    rw [htable.fences, map_append]
    rfl
  shards shardId := by
    rw [get?_insert]
    split
    next heq => simp [heq]
    next hne =>
      rw [htable.shards]
      simp [mem_append, or_and_right, exists_or, eq_comm, hne]
  attempts shardId attempt recorded := by
    rw [AttemptTable.attempts_insert, mem_append, mem_singleton, or_and_right]
    split
    next heq =>
      rw [get?_insert_eq_some_iff hkept, heq, htable.attempts]
      refine or_congr_right ?_
      constructor
      · rintro ⟨rfl, rfl⟩
        exact ⟨rfl, rfl⟩
      · rintro ⟨rfl, hkey⟩
        exact ⟨(attemptKey_eq_iff.mp hkey).2, rfl⟩
    next hne =>
      rw [htable.attempts]
      refine (or_iff_left ?_).symm
      rintro ⟨rfl, hkey⟩
      exact hne (attemptKey_eq_iff.mp hkey).1.symm

theorem AttemptTable.holds_empty : AttemptTable.empty.Holds [] where
  fences := rfl
  shards shardId := by simp [AttemptTable.empty]
  attempts shardId attempt assignment := by simp [AttemptTable.attempts, AttemptTable.empty]

theorem Recordable.of_perm (hperm : assignments.Perm other)
    (hrecordable : Recordable codec key manifest bindings assignments) :
    Recordable codec key manifest bindings other where
  verified assignment hmem := hrecordable.verified assignment (hperm.mem_iff.mpr hmem)
  fences := (hperm.map _).nodup_iff.mp hrecordable.fences
  agree first hfirst second hsecond :=
    hrecordable.agree first (hperm.mem_iff.mpr hfirst) second (hperm.mem_iff.mpr hsecond)

theorem AttemptTable.Holds.of_perm (hperm : assignments.Perm other)
    {table' : AttemptTable} (htable : table.Holds assignments) (htable' : table'.Holds other) :
    table.byShard = table'.byShard := by
  have hattempts : ∀ shardId, table.attempts shardId = table'.attempts shardId := by
    intro shardId
    ext attempt assignment
    rw [htable.attempts, htable'.attempts, hperm.mem_iff]
  refine ext_get? fun shardId => ?_
  have hsome : (table.byShard.get? shardId).isSome = (table'.byShard.get? shardId).isSome := by
    rw [Bool.eq_iff_iff, htable.shards, htable'.shards]
    simp only [hperm.mem_iff]
  have hsame := hattempts shardId
  unfold AttemptTable.attempts at hsame
  cases hfirst : table.byShard.get? shardId with
  | none =>
    rw [hfirst, Option.isSome_none] at hsome
    exact (Option.isSome_eq_false_iff.mp hsome.symm |> Option.isNone_iff_eq_none.mp).symm
  | some attempts =>
    rw [hfirst, Option.isSome_some] at hsome
    obtain ⟨attempts', hsecond⟩ := Option.isSome_iff_exists.mp hsome.symm
    rw [hfirst, hsecond, Option.getD_some, Option.getD_some] at hsame
    rw [hsecond, hsame]

/-- A loop that ends recorded its assignments. -/
theorem record_spec (hrun : assignments.foldlM (AttemptTable.record codec key manifest bindings)
    AttemptTable.empty = .ok table) :
    Recordable codec key manifest bindings assignments ∧ table.Holds assignments := by
  refine foldlM_invariant (fun done table =>
    Recordable codec key manifest bindings done ∧ AttemptTable.Holds table done) ?_
    ⟨⟨nofun, nodup_nil, nofun⟩, AttemptTable.holds_empty⟩ hrun
  rintro done table assignment next ⟨hrecordable, htable⟩ hstep
  obtain ⟨hverify, hbinding, hfence, hkept, rfl⟩ := AttemptTable.record_eq_ok.mp hstep
  refine ⟨⟨?_, ?_, ?_⟩, htable.record hkept⟩
  · intro recorded hmem
    rcases mem_append.mp hmem with hmem | hmem
    · exact hrecordable.verified recorded hmem
    · rw [mem_singleton.mp hmem]
      exact ⟨hverify, hbinding⟩
  · rw [htable.fences] at hfence
    rw [map_append, nodup_append]
    refine ⟨hrecordable.fences, nodup_singleton _, fun fence hold new hnew heq => ?_⟩
    rw [map_singleton, mem_singleton] at hnew
    exact hfence (hnew ▸ heq ▸ hold)
  · -- the table holds the earlier assignment of the same attempt, which is the new one
    have hnew : ∀ recorded ∈ done, recorded.attemptKey = assignment.attemptKey →
        recorded = assignment := fun recorded hmem hkey =>
      hkept recorded ((htable.attempts _ _ _).mpr ⟨hmem, hkey⟩)
    intro first hfirstMem second hsecondMem hkey
    rcases mem_append.mp hfirstMem with hfirst | hfirst <;>
      rcases mem_append.mp hsecondMem with hsecond | hsecond
    · exact hrecordable.agree first hfirst second hsecond hkey
    · rw [mem_singleton] at hsecond
      rw [hsecond] at hkey ⊢
      exact hnew first hfirst hkey
    · rw [mem_singleton] at hfirst
      rw [hfirst] at hkey ⊢
      exact (hnew second hsecond hkey.symm).symm
    · rw [mem_singleton.mp hfirst, mem_singleton.mp hsecond]

/-- Assignments that can be recorded are. -/
theorem record_of_recordable (htable : table.Holds done)
    (hrecordable : Recordable codec key manifest bindings (done ++ assignments)) :
    ∃ final, assignments.foldlM (AttemptTable.record codec key manifest bindings) table =
      .ok final := by
  induction assignments generalizing done table with
  | nil => exact ⟨table, rfl⟩
  | cons assignment rest ih =>
    have hmem : assignment ∈ done ++ assignment :: rest :=
      mem_append_right _ mem_cons_self
    obtain ⟨hverify, hbinding⟩ := hrecordable.verified assignment hmem
    have hfence : assignment.claims.fence ∉ table.fences := by
      rw [htable.fences]
      intro hold
      have hnodup := hrecordable.fences
      rw [map_append, nodup_append] at hnodup
      exact hnodup.2.2 _ hold _ mem_cons_self rfl
    have hkept : ∀ previous, (table.attempts assignment.claims.shardId).get?
        assignment.claims.attempt = some previous → previous = assignment := by
      intro previous hprevious
      obtain ⟨hdone, hkey⟩ := (htable.attempts _ _ _).mp hprevious
      exact hrecordable.agree previous (mem_append_left _ hdone) assignment hmem hkey
    have hstep := AttemptTable.record_eq_ok.mpr ⟨hverify, hbinding, hfence, hkept, rfl⟩
    rw [append_cons] at hrecordable
    obtain ⟨final, hfinal⟩ := ih (htable.record hkept) hrecordable
    refine ⟨final, ?_⟩
    rw [foldlM_cons, hstep]
    exact hfinal

theorem validateAttemptChains_perm {active : SortedMap Nat ControllerAssignment}
    (hperm : assignments.Perm other)
    (hactive : validateAttemptChains codec key manifest bindings assignments = .ok active) :
    validateAttemptChains codec key manifest bindings other = .ok active := by
  rw [validateAttemptChains, bind_eq_ok] at hactive ⊢
  obtain ⟨table, hrun, hchains⟩ := hactive
  obtain ⟨hrecordable, htable⟩ := record_spec hrun
  obtain ⟨table', hrun'⟩ := record_of_recordable AttemptTable.holds_empty
    (hrecordable.of_perm hperm)
  refine ⟨table', hrun', ?_⟩
  rw [← htable.of_perm hperm (record_spec hrun').2]
  exact hchains

end Record

/-! ## The active assignment -/

section Active

variable {codec : Codec} {key : ControllerKey} {manifest : ParallelProofManifest}
  {bindings : ValidatedProofBindings} {assignments : List ControllerAssignment}
  {active : SortedMap Nat ControllerAssignment} {assignment : ControllerAssignment}

/-- The assignment of a shard's highest issued attempt. -/
structure Highest (assignments : List ControllerAssignment) (shardId : Nat)
    (assignment : ControllerAssignment) : Prop where
  issued : assignment ∈ assignments
  ofShard : assignment.claims.shardId = shardId
  highest : ∀ other ∈ assignments, other.claims.shardId = shardId →
    other.claims.attempt ≤ assignment.claims.attempt

variable {shardId : Nat}

theorem checkChain_spec {attempts : SortedMap Nat ControllerAssignment}
    (hchain : checkChain (shardId, attempts) = .ok assignment) :
    ∃ attempt, attempts.last? = some (attempt, assignment) := by
  unfold checkChain at hchain
  simp only [bind_eq_ok] at hchain
  obtain ⟨_, _, hlast⟩ := hchain
  split at hlast
  next attempt last heq =>
    cases hlast
    exact ⟨attempt, heq⟩
  · cases hlast

theorem activateShards_spec {entries : List (Nat × SortedMap Nat ControllerAssignment)}
    (hactive : entries.foldlM activateShard SortedMap.empty = .ok active)
    (hget : active.get? shardId = some assignment) : ∃ attempts, (shardId, attempts) ∈ entries ∧
      checkChain (shardId, attempts) = .ok assignment := by
  refine foldlM_invariant (fun done (active : SortedMap Nat ControllerAssignment) =>
    ∀ assignment, active.get? shardId = some assignment → ∃ attempts, (shardId, attempts) ∈ done ∧
      checkChain (shardId, attempts) = .ok assignment) ?_
    (fun _ hnone => absurd hnone (by simp)) hactive assignment hget
  intro done active entry next hdone hstep assignment hget
  rw [activateShard, bind_eq_ok] at hstep
  obtain ⟨chosen, hchain, hnext⟩ := hstep
  cases hnext
  rw [get?_insert] at hget
  split at hget
  next heq =>
    cases hget
    subst heq
    exact ⟨entry.2, mem_append_right _ mem_cons_self, hchain⟩
  · obtain ⟨attempts, hmem, hchain⟩ := hdone assignment hget
    exact ⟨attempts, mem_append_left _ hmem, hchain⟩

variable (hactive : validateAttemptChains codec key manifest bindings assignments = .ok active)

include hactive

/-- The active assignment of a shard is the one of its highest attempt. -/
theorem validateAttemptChains_spec (hget : active.get? shardId = some assignment) :
    Highest assignments shardId assignment := by
  rw [validateAttemptChains, bind_eq_ok] at hactive
  obtain ⟨table, hrun, hchains⟩ := hactive
  obtain ⟨_, htable⟩ := record_spec hrun
  obtain ⟨attempts, hmem, hchain⟩ := activateShards_spec hchains hget
  obtain ⟨attempt, hlast⟩ := checkChain_spec hchain
  have hattempts : table.attempts shardId = attempts := by
    rw [AttemptTable.attempts, get?_of_mem_entries hmem, Option.getD_some]
  have hentry := htable.attempts shardId
  rw [hattempts] at hentry
  obtain ⟨hissued, hkey⟩ := (hentry attempt assignment).mp
    (get?_of_mem_entries (mem_of_getLast? hlast))
  obtain ⟨hshard, hattempt⟩ := attemptKey_eq_iff.mp hkey
  refine ⟨hissued, hshard, fun other hother hsame => ?_⟩
  rw [hattempt]
  exact le_of_last? hlast ((hentry _ other).mpr
    ⟨hother, attemptKey_eq_iff.mpr ⟨hsame, rfl⟩⟩)

theorem validateAttemptChains_recordable
    :
    Recordable codec key manifest bindings assignments := by
  rw [validateAttemptChains, bind_eq_ok] at hactive
  obtain ⟨table, hrun, _⟩ := hactive
  exact (record_spec hrun).1

end Active

end Shipyard.ParallelProof
