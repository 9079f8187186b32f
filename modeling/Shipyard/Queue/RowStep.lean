import Shipyard.Queue.Ops

/-!
# What a durable operation does to one row

`RowStep op job next` lists every way in which the operation `op` can rewrite a
stored row, with the guard under which it does so. Every operation relates the
rows at equal positions by its row steps, may append the submitted job, and
then saves its rows as they are or trimmed. Queue invariants follow from this
by cases on the row step; no later proof opens an operation.
-/

namespace Shipyard.Queue

open Lib List

/-- The job that an operation submits. -/
def submitted : QueueOp → Option Job
  | .enqueue _ _ job => some job
  | .enqueueRecoveryIfUnowned _ job _ => some job
  | _ => none

/-- Recovery submission looks for the submitted id before it appends the job. -/
def checksOwner : QueueOp → Bool
  | .enqueueRecoveryIfUnowned _ _ _ => true
  | _ => false

/-- Whether a recovery operation completes a running row. -/
def selectsRecovery : QueueOp → Job → Bool
  | .recoverStaleRunningJobsForDrain _, _ => true
  | .recoverSelectedRunningJobsForDrain _ jobIds, job => job.id ∈ jobIds
  | _, _ => false

/-- The guards of `Queue::update` on the stored row. -/
structure AcceptsUpdate (job queued : Job) : Prop where
  sameCancellation : queued.status = .running → queued.cancelRequestedAt.isSome →
    job.cancelRequestedAt = queued.cancelRequestedAt ∧
      job.cancellationReason = queued.cancellationReason ∧
      job.cancellationProof = queued.cancellationProof
  sameTerminal : isTerminalJob queued.status = true → queued.status = job.status

inductive RowStep : QueueOp → Job → Job → Prop where
  | keep (op : QueueOp) (job : Job) : RowStep op job job
  | backfilled {op : QueueOp} {job : Job} (scope : String) (hop : (submitted op).isSome)
      (hscope : job.workloadScope = none) :
      RowStep op job { job with workloadScope := some scope }
  | superseded {store : Option QueueRequestStore} {now : Time} {newer job next : Job}
      (scope : Option String) (hpending : job.status = .pending)
      (hcancel : { job with workloadScope := scope }.cancelWithReason now
        (some supersededMessage) = .ok next) :
      RowStep (.enqueue store now newer) job next
  | updated {queued job : Job} (hid : queued.id = job.id) (haccepts : AcceptsUpdate job queued) :
      RowStep (.update job) queued job
  | cancelRequested {now : Time} {jobId : String} {reason : Option String}
      {proof : Option CancellationProof} {job next : Job} (hid : job.id = jobId)
      (hrequest : job.requestCancelWithReasonAndProof now reason proof = .ok next) :
      RowStep (.requestCancel now jobId reason proof) job next
  | recovered {op : QueueOp} {job : Job} (now : Time) (hselected : selectsRecovery op job = true)
      (hrunning : job.status = .running) : RowStep op job (recoveredJob now job)
  | orphaned {now : Time} {requestStatus : Job → Except String Bool} {job next : Job}
      (reason : String) (hpending : job.status = .pending)
      (hcancel : job.cancelWithReason now (some reason) = .ok next) :
      RowStep (.cancelOrphanPendingJobsForDrain now requestStatus) job next
  | started {now : Time} {jobIds : List String} {job next : Job} (hid : job.id ∈ jobIds)
      (hstart : job.start now = .ok next) :
      RowStep (.startPendingJobsForDrain now jobIds) job next
  | cancelledPending {now : Time} {cancellations : List QueuePendingCancellation}
      {job next : Job} (cancellation : QueuePendingCancellation)
      (hmem : cancellation ∈ cancellations) (hid : job.id = cancellation.jobId)
      (hpending : job.status = .pending)
      (hcancel : job.cancelWithReasonAndProof now (some cancellation.reason)
        cancellation.proof = .ok next) :
      RowStep (.cancelPendingJobsForDrain now cancellations) job next
  | reaped {clock : Time} {jobIds : List String} {now staleAfter : Time} {reason : String}
      {job next : Job} (hid : job.id ∈ jobIds)
      (hstale : job.isStaleRunning now staleAfter = true)
      (hcancel : job.cancelWithReason clock (some reason) = .ok next) :
      RowStep (.cancelStaleRunningJobs clock jobIds now staleAfter reason) job next
  | deferred {requeues : List QueueDeferredRequeue} {job next : Job}
      (requeue : QueueDeferredRequeue) (hmem : requeue ∈ requeues)
      (hid : job.id = requeue.jobId) (hcancel : job.cancelRequestedAt = none)
      (hdefer : job.deferForScheduler requeue.reason requeue.deferUntil = .ok next) :
      RowStep (.requeueDeferredRunningJobsForDrain requeues) job next
  | daemonDeferred {requeue : QueueDeferredRequeue} {job : Job} (hid : job.id = requeue.jobId)
      (hrunning : job.status = .running) :
      RowStep (.requeueDeferredDaemonWorker requeue) job (deferDaemonWorker requeue job)
  | rebooted {jobId reason : String} {job : Job} (hid : job.id = jobId)
      (hrunning : job.status = .running) (hcancel : job.cancelRequestedAt = none) :
      RowStep (.requeueRunningAfterReboot jobId reason) job (requeuedAfterReboot reason job)
  | deferFinalized {jobId : String} {job : Job} (hid : job.id = jobId)
      (hrunning : job.status = .running) (hcancel : job.cancelRequestedAt = none)
      (hdeferred : job.schedulerDeferReason.isSome) :
      RowStep (.finalizeDeferredDaemonWorker jobId) job { job with status := .pending }
  | uncertain {now : Time} {jobId reason : String} {job : Job} (hid : job.id = jobId)
      (hrunning : job.status = .running) (hcancel : job.cancelRequestedAt = none) :
      RowStep (.completeRunningUncertain now jobId reason) job
        (completedUncertain now reason job)
  | auditedCancel {now : Time} {expectedJobs : List Job} {expected next : Job} {reason : String}
      {proof : CancellationProof} (hrunning : expected.status = .running)
      (hrequested : expected.cancelRequestedAt.isSome)
      (hcancel : expected.cancelWithReasonAndProof now (some reason) (some proof) = .ok next) :
      RowStep (.finalizeAuditedReceiptlessCancel now expectedJobs expected reason proof)
        expected next
  | reclassified {expected : Job} {reason : String} (hcompleted : expected.status = .completed) :
      RowStep (.reclassifyCompletedUncertain expected reason) expected
        (withUncertainResults reason expected)

/-- What an operation leaves: row steps at equal positions, possibly the
submitted job at the end, then the saved rows; and what it returns. -/
structure Performed (op : QueueOp) (jobs : List Job) (saved : Saved (List Job)) : Prop where
  rewritten : ∃ kept, List.Forall₂ (RowStep op) jobs kept ∧
    (saved.rows = kept ∨ ∃ job, submitted op = some job ∧ saved.rows = kept ++ [job] ∧
      (checksOwner op = true → job.id ∉ jobs.map Job.id))
  stored : saved.stored = saved.rows ∨ saved.stored = (trimTerminal saved.rows).1
  returned : ∀ job ∈ saved.answer,
    (∃ queued ∈ jobs, RowStep op queued job) ∨ submitted op = some job

section Passes

variable {op : QueueOp} {jobs : List Job}

theorem rowSteps_refl (op : QueueOp) (jobs : List Job) :
    List.Forall₂ (RowStep op) jobs jobs :=
  forall₂_same.mpr fun job _ => .keep op job

theorem rowSteps_map {change : Job → Job} (hchange : ∀ job, RowStep op job (change job)) :
    List.Forall₂ (RowStep op) jobs (jobs.map change) :=
  forall₂_map_right_iff.mpr (forall₂_same.mpr fun job _ => hchange job)

variable {answer stored rows : List Job}

/-- An operation that saves the rows as it found them and returns stored rows. -/
theorem performed_unchanged (hanswer : ∀ job ∈ answer, job ∈ jobs) :
    Performed op jobs (save jobs answer) where
  rewritten := ⟨jobs, rowSteps_refl op jobs, .inl rfl⟩
  stored := .inl rfl
  returned := fun job hjob => .inl ⟨job, hanswer job hjob, .keep op job⟩

/-- An operation that rewrites rows and returns some of them. -/
theorem performed_rows (hrows : List.Forall₂ (RowStep op) jobs rows)
    (hstored : stored = rows ∨ stored = (trimTerminal rows).1)
    (hanswer : ∀ job ∈ answer, ∃ queued ∈ jobs, RowStep op queued job) :
    Performed op jobs ⟨rows, stored, answer⟩ where
  rewritten := ⟨rows, hrows, .inl rfl⟩
  stored := hstored
  returned := fun job hjob => .inl (hanswer job hjob)

/-- An operation that edits the first selected row and returns it. -/
theorem performed_first {ε : Type} {select : Job → Bool} {change : Job → Except ε Job} {job' : Job}
    (hchange : ∀ job next, select job = true → change job = .ok next → RowStep op job next)
    (hedit : modifyFirst select change jobs = .ok (some (rows, job')))
    (hstored : stored = rows ∨ stored = (trimTerminal rows).1)
    (hanswer : ∀ job ∈ answer, job = job') : Performed op jobs ⟨rows, stored, answer⟩ := by
  obtain ⟨before, row, after, rfl, -, hselect, hrow, rfl⟩ := modifyFirst_some hedit
  have hrows := forall₂_replace (RowStep.keep op) (hchange row job' hselect hrow) before after
  refine performed_rows hrows hstored fun job hjob => ?_
  rw [hanswer job hjob]
  exact forall₂_exists_left hrows (by simp)

/-- An operation that sweeps over requests. The row steps of the operation
must compose, which they do where a changed row is not selected again. -/
theorem performed_sweep {ε ρ κ : Type} [DecidableEq κ] (key : ρ → κ) (select : ρ → Job → Bool)
    (change : ρ → Job → Except ε Job) (requests : List ρ)
    (htrans : ∀ a b c, RowStep op a b → RowStep op b c → RowStep op a c)
    (hchange : ∀ request ∈ requests, ∀ job next, select request job = true →
      change request job = .ok next → RowStep op job next)
    (hstored : stored = (sweep key select change [] requests jobs).1 ∨
      stored = (trimTerminal (sweep key select change [] requests jobs).1).1) :
    Performed op jobs ⟨(sweep key select change [] requests jobs).1, stored,
      (sweep key select change [] requests jobs).2⟩ := by
  have hswept := swept_sweep key select change [] requests jobs
  refine performed_rows (hswept.forall₂ (RowStep.keep op) htrans hchange) hstored fun job hjob => ?_
  obtain ⟨queued, hqueued, middle, hfirst, request, hmem, hselect, hlast⟩ :=
    hswept.origin (RowStep.keep op) htrans hchange hjob
  exact ⟨queued, hqueued, htrans _ _ _ hfirst (hchange request hmem middle job hselect hlast)⟩

end Passes

/-! ## Submission -/

variable (store : Option QueueRequestStore) (now : Time) (job : Job)

theorem backfillWorkloadScope_spec :
    backfillWorkloadScope store job = job ∨ job.workloadScope = none ∧
      ∃ scope, backfillWorkloadScope store job = { job with workloadScope := some scope } := by
  unfold backfillWorkloadScope
  split
  · exact .inl rfl
  next store =>
    split
    · exact .inl rfl
    next hscope =>
      split
      next envelope hload =>
        split
        · exact .inr ⟨by simpa using hscope, _, rfl⟩
        · exact .inl rfl
      · exact .inl rfl

theorem backfill_rowStep {op : QueueOp} (hop : (submitted op).isSome)
    (store : Option QueueRequestStore) (job : Job) :
    RowStep op job (backfillWorkloadScope store job) := by
  rcases backfillWorkloadScope_spec store job with hsame | ⟨hscope, scope, hfilled⟩
  · rw [hsame]
    exact .keep op job
  · rw [hfilled]
    exact .backfilled scope hop hscope

theorem cancelSuperseded_spec (newer queued : Job) :
    cancelSuperseded now newer queued = queued ∨ queued.status = .pending ∧
      queued.cancelWithReason now (some supersededMessage) =
        .ok (cancelSuperseded now newer queued) := by
  unfold cancelSuperseded
  split
  next hmatch =>
    simp only [Bool.and_eq_true, decide_eq_true_eq] at hmatch
    split
    next cancelled hcancel => exact .inr ⟨hmatch.1.1.2, hcancel⟩
    · exact .inl rfl
  · exact .inl rfl

/-- Submission first fills in a missing scope and then cancels what the new
job supersedes; both may happen to one row. -/
theorem enqueue_rowStep (newer job : Job) : RowStep (.enqueue store now newer) job
      (cancelSuperseded now newer
        (if job.status = .pending then backfillWorkloadScope store job else job)) := by
  have hscoped : ∃ scope, (if job.status = .pending then backfillWorkloadScope store job
      else job) = { job with workloadScope := scope } := by
    split
    · rcases backfillWorkloadScope_spec store job with hsame | ⟨-, scope, hfilled⟩
      · exact ⟨job.workloadScope, hsame⟩
      · exact ⟨some scope, hfilled⟩
    · exact ⟨job.workloadScope, rfl⟩
  rcases cancelSuperseded_spec now newer
    (if job.status = .pending then backfillWorkloadScope store job else job) with hsame | hcancel
  · rw [hsame]
    split
    · exact backfill_rowStep rfl store job
    · exact .keep _ job
  · obtain ⟨scope, hscope⟩ := hscoped
    rw [hscope] at hcancel ⊢
    exact .superseded scope hcancel.1 hcancel.2

theorem enqueue_performed (jobs : List Job) : Performed (.enqueue store now job) jobs
      ((enqueue store now job jobs).returning fun job => [job]) where
  rewritten := by
    refine ⟨_, rowSteps_map (enqueue_rowStep store now job), .inr ⟨job, rfl, ?_, nofun⟩⟩
    simp only [Saved.returning, enqueue, save, cancelSupersededPending,
      backfillPendingWorkloadScopes, map_map]
    rfl
  stored := .inl rfl
  returned := fun returned hreturned => .inr (by
    rw [mem_singleton.mp hreturned]
    rfl)

theorem backfillWorkloadScope_id : (backfillWorkloadScope store job).id = job.id := by
  rcases backfillWorkloadScope_spec store job with hsame | ⟨-, scope, hfilled⟩
  · rw [hsame]
  · rw [hfilled]

theorem enqueueRecovery_performed (cutoff : Time) (jobs : List Job) :
    Performed (.enqueueRecoveryIfUnowned store job cutoff) jobs
      ((enqueueRecoveryIfUnowned store job cutoff jobs).returning fun _ => []) := by
  have hrows : List.Forall₂ (RowStep (.enqueueRecoveryIfUnowned store job cutoff)) jobs
      (backfillRecoveryOwnerScopes store jobs) := rowSteps_map (backfill_rowStep rfl store)
  have hkept : Performed (.enqueueRecoveryIfUnowned store job cutoff) jobs
      (save (backfillRecoveryOwnerScopes store jobs) []) :=
    performed_rows hrows (.inl rfl) (by simp)
  simp only [enqueueRecoveryIfUnowned]
  split
  · exact hkept
  next habsent =>
    split
    · exact hkept
    · have hfresh : job.id ∉ jobs.map Job.id := by
        intro hmem
        obtain ⟨queued, hqueued, hid⟩ := mem_map.mp hmem
        refine habsent (any_eq_true.mpr ⟨backfillWorkloadScope store queued, ?_, ?_⟩)
        · exact mem_map_of_mem hqueued
        · simpa [backfillWorkloadScope_id] using hid
      exact ⟨⟨_, hrows, .inr ⟨job, rfl, rfl, fun _ => hfresh⟩⟩, .inl rfl,
        by simp [Saved.returning, save]⟩

end Shipyard.Queue
