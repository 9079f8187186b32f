import Shipyard.Queue.RowStep

/-!
# Every durable operation performs row steps

One lemma per operation, assembled into `perform_spec`.
-/

namespace Shipyard.Queue

open Lib

variable {jobs : List Job}

/-! ## Update and cancellation requests -/

variable {job next expected : Job} {saved : Saved (Option Job)} {proof : CancellationProof}
  {expectedJobs : List Job} {reason : String}

theorem replaceQueued_ok {queued : Job} (hreplace : replaceQueued job queued = .ok next) :
    next = job ∧ AcceptsUpdate job queued := by
  unfold replaceQueued at hreplace
  split at hreplace
  · cases hreplace
  next hcancellation =>
    split at hreplace
    · cases hreplace
    next hterminal =>
      refine ⟨(Except.ok.inj hreplace).symm, ?_, fun hqueued => ?_⟩
      · intro hrunning hrequested
        by_contra hdiffers
        exact hcancellation ⟨hrunning, hrequested, by tauto⟩
      · by_contra hdiffers
        exact hterminal ⟨hqueued, hdiffers⟩

theorem update_performed {saved : Saved Unit} (hupdate : update job jobs = .ok saved) :
    Performed (.update job) jobs (saved.returning fun _ => []) := by
  unfold update at hupdate
  split at hupdate
  next rows job' hedit =>
    cases hupdate
    refine performed_first ?_ hedit (.inr rfl) (by simp)
    intro queued next hid hreplace
    obtain ⟨rfl, haccepts⟩ := replaceQueued_ok hreplace
    exact .updated (by simpa using hid) haccepts
  all_goals cases hupdate

theorem orConflict_ok {transition : Except JobTransitionError Job}
    (hok : orConflict transition = .ok next) : transition = .ok next := by
  cases transition with
  | ok job => exact congrArg Except.ok (Except.ok.inj hok)
  | error error => cases hok

variable {now : Time}

theorem requestCancel_performed {jobId : String} {reason : Option String}
    {proof : Option CancellationProof}
    (hrequest : requestCancelWithProof now jobId reason proof jobs = .ok saved) :
    Performed (.requestCancel now jobId reason proof) jobs (saved.returning Option.toList) := by
  unfold requestCancelWithProof at hrequest
  split at hrequest
  next rows requested hedit =>
    cases hrequest
    refine performed_first ?_ hedit (.inr rfl) (by simp [saveTrimmed])
    intro job next hid hnext
    exact .cancelRequested (by simpa using hid) (orConflict_ok hnext)
  · cases hrequest
    exact performed_unchanged (by simp [save])
  · cases hrequest

/-! ## Recovery and orphans -/

variable {op : QueueOp}

theorem recover_performed (now : Time) (selected : Job → Bool)
    (hselected : ∀ job, selected job = true → selectsRecovery op job = true) :
    Performed op jobs
      (saveTrimmed (recoverRunningJobsMatching now selected jobs).1
        (recoverRunningJobsMatching now selected jobs).2) := by
  have hstep : ∀ job : Job, (job.status = .running && selected job) = true →
      RowStep op job (recoveredJob now job) := by
    intro job hrecovers
    simp only [Bool.and_eq_true, decide_eq_true_eq] at hrecovers
    exact .recovered now (hselected job hrecovers.2) hrecovers.1
  refine performed_rows (rowSteps_map fun job => ?_) (.inr rfl) fun job hjob => ?_
  · split
    next hrecovers => exact hstep job hrecovers
    · exact .keep op job
  · simp only [recoverRunningJobsMatching, List.mem_map, List.mem_filter] at hjob
    obtain ⟨queued, ⟨hqueued, hrecovers⟩, rfl⟩ := hjob
    exact ⟨queued, hqueued, hstep queued hrecovers⟩

theorem cancelOrphan_rowStep {requestStatus : Job → Except String Bool}
    (hcancel : cancelOrphan now requestStatus job = some next) :
    RowStep (.cancelOrphanPendingJobsForDrain now requestStatus) job next := by
  unfold cancelOrphan at hcancel
  split at hcancel
  · cases hcancel
  next hpending =>
    split at hcancel
    · cases hcancel
    next reason _ =>
      cases htransition : job.cancelWithReason now (some reason) with
      | error error =>
        rw [htransition] at hcancel
        cases hcancel
      | ok cancelled =>
        rw [htransition] at hcancel
        cases hcancel
        exact .orphaned reason (not_not.mp hpending) htransition

theorem cancelOrphanPending_performed (now : Time) (requestStatus : Job → Except String Bool) :
    Performed (.cancelOrphanPendingJobsForDrain now requestStatus) jobs
      (cancelOrphanPendingJobsForDrain now requestStatus jobs) := by
  refine performed_rows (rowSteps_map fun job => ?_) (.inr rfl) fun job hjob => ?_
  · cases hcancel : cancelOrphan now requestStatus job with
    | none => exact .keep _ job
    | some next => exact cancelOrphan_rowStep hcancel
  · obtain ⟨queued, hqueued, hcancel⟩ := List.mem_filterMap.mp hjob
    exact ⟨queued, hqueued, cancelOrphan_rowStep hcancel⟩

/-! ## Sweeps

A row that a sweep changed is no longer selected by it: a started job is not
pending, a cancelled one neither pending nor stale-running, a deferred one not
running. So two changes of one sweep never compose. -/

theorem isStaleRunning_running {now staleAfter : Time}
    (hstale : job.isStaleRunning now staleAfter = true) : job.status = .running := by
  unfold Job.isStaleRunning at hstale
  split at hstale
  · cases hstale
  next hguard =>
    by_contra hrunning
    exact hguard (.inl hrunning)

/-- The status in which a sweep selects a row. -/
def sweptStatus : QueueOp → Option JobStatus
  | .startPendingJobsForDrain _ _ | .cancelPendingJobsForDrain _ _ => some .pending
  | .cancelStaleRunningJobs _ _ _ _ _ | .requeueDeferredRunningJobsForDrain _ => some .running
  | _ => none

variable {status : JobStatus}

theorem RowStep.leaves (hstep : RowStep op job next) (hswept : sweptStatus op = some status) :
    next = job ∨ (job.status = status ∧ next.status ≠ status) := by
  cases hstep with
  | keep => exact .inl rfl
  | backfilled _ hop => cases op <;> cases hswept <;> cases hop
  | recovered _ hselected => cases op <;> cases hswept <;> cases hselected
  | started _ hstart =>
    cases hswept
    obtain ⟨hpending, rfl⟩ := Job.start_eq_ok.mp hstart
    exact .inr ⟨hpending, nofun⟩
  | cancelledPending _ _ _ hpending hcancel =>
    cases hswept
    obtain ⟨-, rfl⟩ := Job.cancelWithReasonAndProof_eq_ok.mp hcancel
    exact .inr ⟨hpending, nofun⟩
  | reaped _ hstale hcancel =>
    cases hswept
    obtain ⟨-, rfl⟩ := Job.cancelWithReasonAndProof_eq_ok.mp hcancel
    exact .inr ⟨isStaleRunning_running hstale, nofun⟩
  | deferred _ _ _ _ hdefer =>
    cases hswept
    obtain ⟨hrunning, rfl⟩ := Job.deferForScheduler_eq_ok.mp hdefer
    exact .inr ⟨hrunning, nofun⟩
  | _ => cases hswept

theorem rowStep_trans (hswept : sweptStatus op = some status) (a b c : Job)
    (hab : RowStep op a b) (hbc : RowStep op b c) : RowStep op a c := by
  rcases hab.leaves hswept with rfl | ⟨-, hb⟩
  · exact hbc
  · rcases hbc.leaves hswept with rfl | ⟨hb', -⟩
    · exact hab
    · exact absurd hb' hb

variable {jobIds : List String}

theorem startPending_change (jobId : String) (hmem : jobId ∈ jobIds) (job next : Job)
    (hselect : (decide (job.id = jobId) && decide (job.status = .pending)) = true)
    (hstart : job.start now = .ok next) :
    RowStep (.startPendingJobsForDrain now jobIds) job next := by
  simp only [Bool.and_eq_true, decide_eq_true_eq] at hselect
  exact .started (hselect.1 ▸ hmem) hstart

theorem startPending_performed (now : Time) (jobIds : List String) :
    Performed (.startPendingJobsForDrain now jobIds) jobs
      (startPendingJobsForDrain now jobIds jobs) :=
  performed_sweep id _ _ jobIds (rowStep_trans rfl)
    startPending_change (.inl rfl)

/-- Every started job was a pending row that the caller named. -/
theorem startPending_returned (hjob : job ∈ (startPendingJobsForDrain now jobIds jobs).answer) :
    ∃ queued ∈ jobs, queued.status = .pending ∧ queued.id ∈ jobIds ∧
      queued.start now = .ok job := by
  obtain ⟨queued, hqueued, middle, hstep, jobId, hmem, hselect, hstart⟩ :=
    (swept_sweep id _ _ [] jobIds jobs).origin (RowStep.keep _)
      (rowStep_trans rfl) startPending_change hjob
  simp only [Bool.and_eq_true, decide_eq_true_eq] at hselect
  rcases hstep.leaves rfl with rfl | ⟨-, hleft⟩
  · exact ⟨middle, hqueued, hselect.2, hselect.1 ▸ hmem, hstart⟩
  · exact absurd hselect.2 hleft

theorem cancelPending_performed (now : Time) (cancellations : List QueuePendingCancellation) :
    Performed (.cancelPendingJobsForDrain now cancellations) jobs
      (cancelPendingJobsForDrain now cancellations jobs) := by
  refine performed_sweep QueuePendingCancellation.jobId _ _ cancellations
    (rowStep_trans rfl) ?_ (.inr rfl)
  intro cancellation hmem job next hselect hcancel
  simp only [Bool.and_eq_true, decide_eq_true_eq] at hselect
  exact .cancelledPending cancellation hmem hselect.1 hselect.2 hcancel

theorem cancelStaleRunning_performed (clock : Time) (jobIds : List String)
    (now staleAfter : Time) (reason : String) :
    Performed (.cancelStaleRunningJobs clock jobIds now staleAfter reason) jobs
      (cancelStaleRunningJobs clock jobIds now staleAfter reason jobs) := by
  refine performed_sweep id _ _ jobIds (rowStep_trans rfl) ?_ (.inr rfl)
  intro jobId hmem job next hselect hcancel
  simp only [Bool.and_eq_true, decide_eq_true_eq] at hselect
  exact .reaped (hselect.1 ▸ hmem) hselect.2 hcancel

theorem requeueDeferredRunning_performed (requeues : List QueueDeferredRequeue) :
    Performed (.requeueDeferredRunningJobsForDrain requeues) jobs
      (requeueDeferredRunningJobsForDrain requeues jobs) := by
  refine performed_sweep QueueDeferredRequeue.jobId _ _ requeues
    (rowStep_trans rfl) ?_ (.inl rfl)
  intro requeue hmem job next hselect hchange
  simp only [Bool.and_eq_true, decide_eq_true_eq] at hselect
  unfold requeueDeferred at hchange
  split at hchange
  · cases hchange
    exact .keep _ job
  next hcancel =>
    exact .deferred requeue hmem hselect.1 (by simpa using hcancel) hchange

/-! ## Single edits -/

/-- An edit that cannot fail. -/
theorem saveFirst_performed {select : Job → Bool} {change : Job → Job}
    (hchange : ∀ job, select job = true → RowStep op job (change job)) :
    Performed op jobs ((saveFirst select change jobs).returning Option.toList) := by
  unfold saveFirst
  split
  next rows job' hedit =>
    refine performed_first ?_ hedit (.inl rfl) (by simp [save])
    intro job next hselect hnext
    cases hnext
    exact hchange job hselect
  · exact performed_unchanged (by simp [save])

theorem completeRunningUncertain_performed (now : Time) (jobId reason : String) :
    Performed (.completeRunningUncertain now jobId reason) jobs
      ((completeRunningUncertain now jobId reason jobs).returning Option.toList) := by
  unfold completeRunningUncertain
  split
  next rows completed hedit =>
    refine performed_first ?_ hedit (.inr rfl) (by simp [saveTrimmed])
    intro job next hselect hnext
    simp only [Bool.and_eq_true, decide_eq_true_eq] at hselect
    split at hnext
    · cases hnext
    next hcancel =>
      cases hnext
      exact .uncertain hselect.1 hselect.2 (by simpa using hcancel)
  · exact performed_unchanged (by simp [save])
  next job hearly =>
    -- the early return: the job that carries a cancellation request is a stored row
    obtain ⟨queued, hqueued, -, hreturned⟩ := modifyFirst_error hearly
    split at hreturned
    · cases hreturned
      exact performed_unchanged (by simpa [save] using hqueued)
    · cases hreturned

theorem cancelAudited_rowStep (hcancel : cancelAudited now expected reason proof job = .ok next) :
    RowStep (.finalizeAuditedReceiptlessCancel now expectedJobs expected reason proof)
      job next := by
  unfold cancelAudited at hcancel
  split at hcancel
  · cases hcancel
  next hexpected =>
    obtain rfl := not_not.mp hexpected
    split at hcancel
    · cases hcancel
    next hguard =>
      simp only [ne_eq, not_or, not_not, Bool.not_eq_true, Option.isNone_eq_false_iff] at hguard
      exact .auditedCancel hguard.1 hguard.2 (orConflict_ok hcancel)

theorem finalizeAudited_performed
    (hfinalize : finalizeAuditedReceiptlessCancel now expectedJobs expected reason proof jobs = .ok
      saved) :
    Performed (.finalizeAuditedReceiptlessCancel now expectedJobs expected reason proof) jobs
      (saved.returning Option.toList) := by
  unfold finalizeAuditedReceiptlessCancel at hfinalize
  split at hfinalize
  · cases hfinalize
  · split at hfinalize
    next rows cancelled hedit =>
      cases hfinalize
      exact performed_first (fun _ _ _ hcancel => cancelAudited_rowStep hcancel) hedit
        (.inl rfl) (by simp [save])
    · cases hfinalize
      exact performed_unchanged (by simp [save])
    · cases hfinalize

theorem reclassifyCompleted_performed (expected : Job) (reason : String) :
    Performed (.reclassifyCompletedUncertain expected reason) jobs
      ((reclassifyCompletedUncertain expected reason jobs).returning Option.toList) := by
  unfold reclassifyCompletedUncertain
  split
  next rows completed hedit =>
    refine performed_first ?_ hedit (.inr rfl) (by simp [saveTrimmed])
    intro job next hselect hnext
    simp only [Bool.and_eq_true, decide_eq_true_eq] at hselect
    obtain ⟨-, rfl⟩ := hselect
    split at hnext
    · cases hnext
    next hcompleted =>
      cases hnext
      exact .reclassified (not_not.mp hcompleted)
  all_goals exact performed_unchanged (by simp [save])

theorem map_eq_ok {ε α β : Type} {f : α → β} {result : Except ε α} {b : β}
    (hmap : result.map f = .ok b) : ∃ a, result = .ok a ∧ f a = b := by
  cases result with
  | error error => cases hmap
  | ok a => exact ⟨a, rfl, Except.ok.inj hmap⟩

/-- Every durable operation that succeeds rewrites rows by its row steps,
appends at most the job it submits, and saves the rows as they are or trimmed. -/
theorem perform_spec {saved : Saved (List Job)} (hperform : perform op jobs = .ok saved) :
    Performed op jobs saved := by
  cases op with
  | enqueue store now job =>
    cases hperform
    exact enqueue_performed store now job jobs
  | enqueueRecoveryIfUnowned store job cutoff =>
    cases hperform
    exact enqueueRecovery_performed store job cutoff jobs
  | update job =>
    obtain ⟨saved, hupdate, rfl⟩ := map_eq_ok hperform
    exact update_performed hupdate
  | requestCancel now jobId reason proof =>
    obtain ⟨saved, hrequest, rfl⟩ := map_eq_ok hperform
    exact requestCancel_performed hrequest
  | recoverStaleRunningJobsForDrain now =>
    cases hperform
    exact recover_performed now _ fun _ _ => rfl
  | recoverSelectedRunningJobsForDrain now jobIds =>
    cases hperform
    exact recover_performed now _ fun _ hselected => hselected
  | trimTerminalJobsForDrain =>
    cases hperform
    exact performed_rows (rowSteps_refl _ jobs) (.inr rfl) (by simp)
  | cancelOrphanPendingJobsForDrain now requestStatus =>
    cases hperform
    exact cancelOrphanPending_performed now requestStatus
  | startPendingJobsForDrain now jobIds =>
    cases hperform
    exact startPending_performed now jobIds
  | cancelPendingJobsForDrain now cancellations =>
    cases hperform
    exact cancelPending_performed now cancellations
  | cancelStaleRunningJobs clock jobIds now staleAfter reason =>
    cases hperform
    exact cancelStaleRunning_performed clock jobIds now staleAfter reason
  | requeueDeferredRunningJobsForDrain requeues =>
    cases hperform
    exact requeueDeferredRunning_performed requeues
  | requeueDeferredDaemonWorker requeue =>
    cases hperform
    refine saveFirst_performed fun job hselect => ?_
    simp only [Bool.and_eq_true, decide_eq_true_eq] at hselect
    exact .daemonDeferred hselect.1 hselect.2
  | requeueRunningAfterReboot jobId reason =>
    cases hperform
    refine saveFirst_performed fun job hselect => ?_
    simp only [Bool.and_eq_true, decide_eq_true_eq, Option.isNone_iff_eq_none] at hselect
    exact .rebooted hselect.1.1 hselect.1.2 hselect.2
  | finalizeDeferredDaemonWorker jobId =>
    cases hperform
    refine saveFirst_performed fun job hselect => ?_
    simp only [Bool.and_eq_true, decide_eq_true_eq, Option.isNone_iff_eq_none] at hselect
    exact .deferFinalized hselect.1.1.1 hselect.1.1.2 hselect.1.2 hselect.2
  | completeRunningUncertain now jobId reason =>
    cases hperform
    exact completeRunningUncertain_performed now jobId reason
  | finalizeAuditedReceiptlessCancel now expectedJobs expected reason proof =>
    obtain ⟨saved, hfinalize, rfl⟩ := map_eq_ok hperform
    exact finalizeAudited_performed hfinalize
  | reclassifyCompletedUncertain expected reason =>
    cases hperform
    exact reclassifyCompleted_performed expected reason

end Shipyard.Queue
