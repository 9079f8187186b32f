import Shipyard.Queue.Lifecycle

/-!
# Inserting a recovery job

A recovery job is inserted only while no other stored job can own its workload. The check
and the insertion are one locked operation, so the retries of one job, other submissions
and the transitions of other jobs may be interleaved in any way: the job is stored at
most once, and a retry that does not insert it leaves every status as it was.
-/

namespace Shipyard.Queue

open Lib List

/-- The scope of a stored job, also where only its request envelope proves it. -/
def provenScope (store : Option QueueRequestStore) (job : Job) : Option String :=
  (backfillWorkloadScope store job).workloadScope

/-- A stored job is live, or was created after the cutoff. -/
def MayOwn (ownershipCutoff : Time) (queued : Job) : Prop :=
  queued.status = .pending ∨ queued.status = .running ∨ ownershipCutoff < queued.createdAt

/-- Every stored job that may own a workload is proven to own another one. -/
def Unowned (store : Option QueueRequestStore) (job : Job) (ownershipCutoff : Time)
    (jobs : List Job) : Prop :=
  ∀ queued ∈ jobs, MayOwn ownershipCutoff queued →
    ∃ scope, provenScope store queued = some scope ∧ job.workloadScope ≠ some scope

/-- Other clients do not submit a job under this id. -/
def sparesId (id : String) : QueueOp → Bool
  | .enqueue _ _ job => job.id ≠ id
  | _ => true

abbrev SparesId (id : String) (_ : List Job) (op : QueueOp) : Prop := sparesId id op = true

/-! ## One call -/

variable (store : Option QueueRequestStore) {ownershipCutoff : Time} {jobs : List Job}

/-- Filling in a scope changes nothing else of a row. -/
theorem backfillWorkloadScope_eq (job : Job) :
    backfillWorkloadScope store job = { job with workloadScope := provenScope store job } := by
  unfold provenScope
  rcases backfillWorkloadScope_spec store job with hsame | ⟨_, scope, hfilled⟩
  · rw [hsame]
  · rw [hfilled]

theorem ownsRecovery_backfill {store : Option QueueRequestStore} {job queued : Job} :
    ownsRecovery job ownershipCutoff (backfillWorkloadScope store queued) = false ↔
      (MayOwn ownershipCutoff queued →
        ∃ scope, provenScope store queued = some scope ∧ job.workloadScope ≠ some scope) := by
  rw [backfillWorkloadScope_eq, ownsRecovery, Bool.and_eq_false_iff]
  have hlive : (decide (queued.status = .pending) || decide (queued.status = .running) ||
      decide (ownershipCutoff < queued.createdAt)) = false ↔ ¬ MayOwn ownershipCutoff queued := by
    simp [MayOwn, not_or, and_assoc]
  have hscope : (sameWorkloadScope { queued with workloadScope := provenScope store queued } job ||
      (provenScope store queued).isNone) = false ↔
        ∃ scope, provenScope store queued = some scope ∧ job.workloadScope ≠ some scope := by
    cases provenScope store queued with
    | none => simp
    | some scope =>
      cases hjob : job.workloadScope with
      | none => simp [sameWorkloadScope, hjob]
      | some own => simp [sameWorkloadScope, hjob, eq_comm]
  rw [hlive, hscope, imp_iff_not_or]

theorem find?_owner_eq_none {store : Option QueueRequestStore} {job : Job} :
    (backfillRecoveryOwnerScopes store jobs).find? (ownsRecovery job ownershipCutoff) = none ↔
      Unowned store job ownershipCutoff jobs := by
  rw [backfillRecoveryOwnerScopes, find?_eq_none, forall_mem_map]
  simp only [Bool.not_eq_true, ownsRecovery_backfill, Unowned]

theorem any_id_backfill (jobs : List Job) (id : String) :
    ((backfillRecoveryOwnerScopes store jobs).any fun queued => queued.id = id) = true ↔
      id ∈ jobs.map Job.id := by
  simp [backfillRecoveryOwnerScopes, backfillWorkloadScope_id]

/-- The identifiers and statuses of the stored jobs. -/
def statuses (jobs : List Job) : List (String × JobStatus) :=
  jobs.map fun job => (job.id, job.status)

theorem statuses_backfill (jobs : List Job) :
    statuses (backfillRecoveryOwnerScopes store jobs) = statuses jobs := by
  simp [statuses, backfillRecoveryOwnerScopes, backfillWorkloadScope_eq]

/-- What one call does: it inserts the job exactly if its id is free and its workload is
unowned, and leaves every status as it was. -/
structure InsertsUnowned (store : Option QueueRequestStore) (job : Job) (ownershipCutoff : Time)
    (jobs : List Job) : Prop where
  inserted : (enqueueRecoveryIfUnowned store job ownershipCutoff jobs).answer = .inserted ↔
    job.id ∉ jobs.map Job.id ∧ Unowned store job ownershipCutoff jobs
  added : (enqueueRecoveryIfUnowned store job ownershipCutoff jobs).answer = .inserted →
    statuses (enqueueRecoveryIfUnowned store job ownershipCutoff jobs).stored =
      statuses jobs ++ [(job.id, job.status)]
  unchanged : (enqueueRecoveryIfUnowned store job ownershipCutoff jobs).answer ≠ .inserted →
    statuses (enqueueRecoveryIfUnowned store job ownershipCutoff jobs).stored = statuses jobs

theorem insertsUnowned (job : Job) (ownershipCutoff : Time) (jobs : List Job) :
    InsertsUnowned store job ownershipCutoff jobs := by
  have hany := any_id_backfill store jobs job.id
  have hkept := statuses_backfill store jobs
  by_cases hid : job.id ∈ jobs.map Job.id
  · have hsaved : enqueueRecoveryIfUnowned store job ownershipCutoff jobs =
        save (backfillRecoveryOwnerScopes store jobs) .existing := by
      rw [enqueueRecoveryIfUnowned, if_pos (hany.mpr hid)]
    refine ⟨?_, ?_, fun _ => ?_⟩ <;> rw [hsaved]
    · exact iff_of_false (by simp [save]) fun hfree => hfree.1 hid
    · simp [save]
    · exact hkept
  · have hnew := fun hfound => hid (hany.mp hfound)
    cases howner : (backfillRecoveryOwnerScopes store jobs).find?
      (ownsRecovery job ownershipCutoff) with
    | some owner =>
      have howned : ¬ Unowned store job ownershipCutoff jobs := by
        simp [← find?_owner_eq_none, howner]
      have hsaved : enqueueRecoveryIfUnowned store job ownershipCutoff jobs =
          save (backfillRecoveryOwnerScopes store jobs) (.ownedBy owner.id) := by
        simp only [enqueueRecoveryIfUnowned, if_neg hnew, howner]
      refine ⟨?_, ?_, fun _ => ?_⟩ <;> rw [hsaved]
      · exact iff_of_false (by simp [save]) fun hfree => howned hfree.2
      · simp [save]
      · exact hkept
    | none =>
      have hsaved : enqueueRecoveryIfUnowned store job ownershipCutoff jobs =
          save (backfillRecoveryOwnerScopes store jobs ++ [job]) .inserted := by
        simp only [enqueueRecoveryIfUnowned, if_neg hnew, howner]
      refine ⟨?_, fun _ => ?_, ?_⟩ <;> rw [hsaved]
      · exact iff_of_true rfl ⟨hid, find?_owner_eq_none.mp howner⟩
      · rw [save, statuses, map_append, ← hkept]
        rfl
      · exact fun hother => absurd rfl hother

/-! ## Interleavings -/

/-- An operation adds a row of an id only if it submits it, and a recovery submission only
if no row has it. -/
theorem Performed.count_id_le {op : QueueOp} {saved : Saved (List Job)}
    (hop : Performed op jobs saved) {id : String} (hspares : sparesId id op = true)
    (hcount : (jobs.map Job.id).count id ≤ 1) : (saved.stored.map Job.id).count id ≤ 1 := by
  obtain ⟨kept, hsteps, hrows⟩ := hop.rewritten
  have hids : jobs.map Job.id = kept.map Job.id :=
    forall₂_map_eq (fun _ _ hstep => hstep.id_eq) hsteps
  have hrowsCount : (saved.rows.map Job.id).count id ≤ 1 := by
    rcases hrows with hrows | ⟨job, hjob, hrows, howner⟩
    · rwa [hrows, ← hids]
    · rw [hrows, map_append, ← hids, count_append, map_singleton]
      by_cases hid : job.id = id
      · have habsent : job.id ∉ jobs.map Job.id := by
          cases op with
          | enqueue store now newer =>
            cases hjob
            exact absurd hid (of_decide_eq_true hspares)
          | enqueueRecoveryIfUnowned => exact howner rfl
          | _ => cases hjob
        rw [hid] at habsent
        rw [count_eq_zero_of_not_mem habsent, hid, count_singleton_self]
      · rwa [count_eq_zero_of_not_mem (a := id) (l := [job.id])
          (by simpa using Ne.symm hid), Nat.add_zero]
  rcases hop.stored with hsame | htrimmed
  · rwa [hsame]
  · rw [htrimmed]
    obtain ⟨kept, hperm, hsublist⟩ := trimTerminal_subperm saved.rows
    rw [← (hperm.map Job.id).count_eq id]
    exact ((hsublist.map Job.id).count_le id).trans hrowsCount

/-- In every interleaving of recovery submissions, other submissions and transitions: the
recovery job is stored at most once, and a recovery submission inserts its job exactly if
it is not stored and its workload is unowned, and otherwise leaves every status as it was. -/
theorem recovery_job_is_stored_once (id : String) {jobs : List Job}
    (hreach : durableQueue.ReachableWhen (SparesId id) jobs) :
    (jobs.map Job.id).count id ≤ 1 ∧
      ∀ store job ownershipCutoff, InsertsUnowned store job ownershipCutoff jobs := by
  refine ⟨?_, fun store job ownershipCutoff => insertsUnowned store job ownershipCutoff jobs⟩
  refine hreach.invariant (I := fun jobs => (jobs.map Job.id).count id ≤ 1) ?_ ?_
  · rintro _ rfl
    exact Nat.zero_le _
  · intro jobs op jobs' hcount hspares hexec
    rcases durableQueue_exec hexec with rfl | ⟨saved, hperform, rfl⟩
    · exact hcount
    · exact (perform_spec hperform).count_id_le hspares hcount

/-- A recovery job that is submitted, submitted again, and owned by a later submission. -/
def recoveryOps : List QueueOp :=
  [.enqueueRecoveryIfUnowned none
      { Job.create "sy-2" "abc" "main" ["mac"] .full .normal 3 with workloadScope := some "pr" } 2,
    .enqueue none 4 (.create "sy-3" "def" "main" ["mac"] .full .normal 4),
    .enqueueRecoveryIfUnowned none
      { Job.create "sy-2" "abc" "main" ["mac"] .full .normal 5 with workloadScope := some "pr" } 2]

theorem recovery_job_is_stored_once_in_recoveryOps :
    ∃ jobs, durableQueue.execAll (SparesId "sy-2") [] recoveryOps = some jobs ∧
      jobs.map Job.id = ["sy-2", "sy-3"] ∧ (jobs.map Job.id).count "sy-2" ≤ 1 := by
  have hrun : durableQueue.execAll (SparesId "sy-2") [] recoveryOps =
      some [_, _] := rfl
  exact ⟨_, hrun, rfl, (recovery_job_is_stored_once "sy-2" (.of_execAll rfl hrun)).1⟩

end Shipyard.Queue
