import Mathlib.Data.List.Induction
import Shipyard.Queue.Lifecycle

/-!
# What a pending job carries

A job that returns to pending through the scheduler's deferral loses its start time and
the results of targets in progress. The boot pass and the finalisation of a deferred
daemon worker write the same transition out field by field and leave both in place, so
the pending jobs of a run are fresh exactly if these two only meet fresh jobs.
-/

namespace Shipyard.Queue

open Lib List

/-- Not started, and without a result of a target in progress. -/
def Fresh (job : Job) : Prop :=
  job.startedAt = none ∧ ∀ result ∈ job.results.values, result.isTerminal = true

instance (job : Job) : Decidable (Fresh job) := inferInstanceAs (Decidable (_ ∧ _))

def PendingFresh (jobs : List Job) : Prop := ∀ job ∈ jobs, job.status = .pending → Fresh job

instance (jobs : List Job) : Decidable (PendingFresh jobs) :=
  inferInstanceAs (Decidable (∀ job ∈ jobs, _))

/-- A submitted job comes from its constructor, and a client writes a pending job only
as `queue bump` does, from a pending job with another priority. -/
def WritesFresh : QueueOp → Prop
  | .enqueue _ _ job | .enqueueRecoveryIfUnowned _ job _ | .update job =>
    job.status = .pending → Fresh job
  | _ => True

/-- The running job that an operation returns to pending field by field. -/
def requeuedInPlace (jobs : List Job) : QueueOp → Option Job
  | .requeueRunningAfterReboot jobId _ =>
    jobs.find? fun job =>
      job.id = jobId && job.status = .running && job.cancelRequestedAt.isNone
  | .finalizeDeferredDaemonWorker jobId =>
    jobs.find? fun job =>
      job.id = jobId && job.status = .running && job.cancelRequestedAt.isNone &&
        job.schedulerDeferReason.isSome
  | _ => none

/-- The queue file after one operation; a refused one saves nothing. -/
def afterOp (jobs : List Job) (op : QueueOp) : List Job :=
  match perform op jobs with
  | .ok saved => saved.stored
  | .error _ => jobs

def afterOps (jobs : List Job) (ops : List QueueOp) : List Job := ops.foldl afterOp jobs

/-! ## Single edits -/

/-- An edit of the first row that is selected, if there is one. -/
theorem saveFirst_cases (select : Job → Bool) (change : Job → Job) (jobs : List Job) :
    jobs.find? select = none ∧ saveFirst select change jobs = save jobs none ∨
      ∃ before job after, jobs = before ++ job :: after ∧ (∀ row ∈ before, select row = false) ∧
        jobs.find? select = some job ∧
        saveFirst select change jobs =
          save (before ++ change job :: after) (some (change job)) := by
  unfold saveFirst
  split
  next rows changed hedit =>
    obtain ⟨before, job, after, rfl, hbefore, hselect, hchange, rfl⟩ := modifyFirst_some hedit
    cases hchange
    refine .inr ⟨before, job, after, rfl, hbefore, ?_, rfl⟩
    rw [find?_append, find?_eq_none.mpr fun row hrow => by simp [hbefore row hrow],
      find?_cons_of_pos hselect]
    rfl
  next hedit =>
    refine .inl ⟨find?_eq_none.mpr fun row hrow => ?_, rfl⟩
    simp [modifyFirst_none hedit row hrow]

variable {jobs : List Job} {op : QueueOp}

/-- Fresh pending jobs after an edit that makes its job pending and changes nothing that
freshness reads. -/
theorem pendingFresh_saveFirst_iff {select : Job → Bool} {change : Job → Job}
    (hpending : ∀ job, (change job).status = .pending)
    (hchange : ∀ job, Fresh (change job) ↔ Fresh job) (hjobs : PendingFresh jobs) :
    PendingFresh (saveFirst select change jobs).stored ↔
      ∀ job ∈ jobs.find? select, Fresh job := by
  rcases saveFirst_cases select change jobs with
    ⟨hnone, hsaved⟩ | ⟨before, job, after, rfl, _, hfind, hsaved⟩
  · rw [hsaved, hnone]
    exact iff_of_true hjobs fun _ hjob => absurd hjob (Option.not_mem_none _)
  · rw [hsaved, hfind]
    simp only [Option.mem_def, Option.some.injEq, forall_eq']
    constructor
    · intro hafter
      have hchanged := hafter (change job) (mem_append_right before mem_cons_self)
      exact (hchange job).mp (hchanged (hpending job))
    · intro hfresh row hrow hstatus
      rcases mem_append.mp hrow with hbefore | hrest
      · exact hjobs row (mem_append_left _ hbefore) hstatus
      · rcases mem_cons.mp hrest with rfl | hafter
        · exact (hchange job).mpr hfresh
        · exact hjobs row (mem_append_right before (mem_cons_of_mem _ hafter)) hstatus

/-! ## One operation -/

/-- A row step of another operation makes only fresh jobs pending. -/
theorem RowStep.fresh {job next : Job} (hstep : RowStep op job next)
    (hother : ∀ jobId, op ≠ .finalizeDeferredDaemonWorker jobId ∧
      ∀ reason, op ≠ .requeueRunningAfterReboot jobId reason) (hwrites : WritesFresh op)
    (hjob : job.status = .pending → Fresh job) (hpending : next.status = .pending) :
    Fresh next := by
  cases hstep with
  | keep => exact hjob hpending
  | backfilled => exact hjob hpending
  | updated => exact hwrites hpending
  | superseded _ _ hcancel | orphaned _ _ hcancel | cancelledPending _ _ _ _ hcancel
  | reaped _ _ hcancel | auditedCancel _ _ hcancel =>
    obtain ⟨_, rfl⟩ := Job.cancelWithReasonAndProof_eq_ok.mp hcancel
    cases hpending
  | cancelRequested _ hrequest =>
    rcases Job.requestCancel_eq_ok hrequest with ⟨_, hcancel⟩ | ⟨hrunning, _, _, rfl⟩
    · obtain ⟨_, rfl⟩ := Job.cancelWithReasonAndProof_eq_ok.mp hcancel
      cases hpending
    · exact hjob hpending
  | started _ hstart =>
    obtain ⟨_, rfl⟩ := Job.start_eq_ok.mp hstart
    cases hpending
  | deferred requeue _ _ _ hdefer =>
    obtain ⟨_, rfl⟩ := Job.deferForScheduler_eq_ok.mp hdefer
    refine ⟨rfl, fun result hresult => ?_⟩
    obtain ⟨entry, hentry, rfl⟩ := mem_map.mp hresult
    exact (mem_filter.mp hentry).2
  | daemonDeferred _ hrunning =>
    unfold deferDaemonWorker at hpending
    split at hpending <;> exact absurd (hrunning.symm.trans hpending) nofun
  | rebooted => exact absurd rfl ((hother _).2 _)
  | deferFinalized => exact absurd rfl (hother _).1
  | recovered | uncertain => cases hpending
  | reclassified hcompleted =>
    exact absurd (hcompleted.symm.trans hpending) nofun

/-- The other operations keep the pending jobs fresh. -/
theorem pendingFresh_of_perform {saved : Saved (List Job)}
    (hother : ∀ jobId, op ≠ .finalizeDeferredDaemonWorker jobId ∧
      ∀ reason, op ≠ .requeueRunningAfterReboot jobId reason) (hwrites : WritesFresh op)
    (hperform : perform op jobs = .ok saved) (hjobs : PendingFresh jobs) :
    PendingFresh saved.stored := by
  intro row hrow hpending
  have hop := perform_spec hperform
  rcases hop.exists_origin (hop.stored_subset row hrow) with ⟨job, hjob, hstep⟩ | hsubmitted
  · exact hstep.fresh hother hwrites (hjobs job hjob) hpending
  · cases op with
    | enqueue store now job =>
      obtain rfl := Option.some.inj hsubmitted
      exact hwrites hpending
    | enqueueRecoveryIfUnowned store job cutoff =>
      obtain rfl := Option.some.inj hsubmitted
      exact hwrites hpending
    | _ => cases hsubmitted

/-- One operation keeps the pending jobs fresh exactly if the job it requeues field by
field is fresh. -/
theorem pendingFresh_afterOp_iff (hwrites : WritesFresh op) (hjobs : PendingFresh jobs) :
    PendingFresh (afterOp jobs op) ↔ ∀ job ∈ requeuedInPlace jobs op, Fresh job := by
  have hkept : (∀ jobId, op ≠ .finalizeDeferredDaemonWorker jobId ∧
      ∀ reason, op ≠ .requeueRunningAfterReboot jobId reason) →
      PendingFresh (afterOp jobs op) := by
    intro hother
    unfold afterOp
    split
    next saved hperform => exact pendingFresh_of_perform hother hwrites hperform hjobs
    · exact hjobs
  cases op with
  | requeueRunningAfterReboot jobId reason =>
    exact pendingFresh_saveFirst_iff (fun _ => rfl) (fun _ => Iff.rfl) hjobs
  | finalizeDeferredDaemonWorker jobId =>
    exact pendingFresh_saveFirst_iff (fun _ => rfl) (fun _ => Iff.rfl) hjobs
  | _ =>
    exact iff_of_true (hkept fun _ => ⟨nofun, nofun⟩)
      fun _ hjob => absurd hjob (Option.not_mem_none _)

/-! ## Whole runs -/

/-- Every state of a run has fresh pending jobs. -/
def RunPendingFresh (jobs : List Job) (ops : List QueueOp) : Prop :=
  ∀ before after, ops = before ++ after → PendingFresh (afterOps jobs before)

/-- Every job that a run requeues field by field is fresh. -/
def RequeuesFresh (jobs : List Job) (ops : List QueueOp) : Prop :=
  ∀ before op after, ops = before ++ op :: after →
    ∀ job ∈ requeuedInPlace (afterOps jobs before) op, Fresh job

theorem runPendingFresh_iff {ops : List QueueOp} (hops : ∀ op ∈ ops, WritesFresh op)
    (hjobs : PendingFresh jobs) : RunPendingFresh jobs ops ↔ RequeuesFresh jobs ops := by
  constructor
  · rintro hrun before op after rfl
    have hbefore := hrun before (op :: after) rfl
    have hafter := hrun (before ++ [op]) after (by simp)
    rw [afterOps, foldl_append] at hafter
    exact (pendingFresh_afterOp_iff (hops op (by simp)) hbefore).mp hafter
  · intro hrequeues before
    -- each state of the run follows from the one before it
    induction before using List.reverseRecOn with
    | nil => exact fun _ _ => hjobs
    | append_singleton before op ih =>
      rintro after rfl
      have hbefore := ih (op :: after) (by simp)
      rw [afterOps, foldl_append]
      exact (pendingFresh_afterOp_iff (hops op (by simp)) hbefore).mpr
        (hrequeues before op after (by simp))

/-! ## Against the scheduler's deferral -/

theorem retain_terminal_eq_self_iff (results : SortedMap String TargetResult) :
    (results.retain fun _ result => result.isTerminal) = results ↔
      ∀ result ∈ results.values, result.isTerminal = true := by
  have hentries : (results.retain fun _ result => result.isTerminal) = results ↔
      (results.retain fun _ result => result.isTerminal).entries = results.entries := by
    constructor
    · exact fun heq => congrArg SortedMap.entries heq
    · intro heq
      cases results
      simp only [SortedMap.retain] at heq ⊢
      simp only [heq]
  rw [hentries, SortedMap.retain, filter_eq_self]
  simp only [SortedMap.values, mem_map, forall_exists_index, and_imp,
    forall_apply_eq_imp_iff₂]

/-- A job that was returned to pending with everything else in place, against the deferral
with the same reason and time. -/
theorem deferForScheduler_eq_inPlace_iff {job : Job} {reason : String}
    {deferUntil : Option Time} (hrunning : job.status = .running) :
    job.deferForScheduler reason deferUntil = .ok { job with
      schedulerDeferReason := some reason
      schedulerDeferCount := saturatingSucc job.schedulerDeferCount
      schedulerDeferUntil := deferUntil
      status := .pending } ↔ Fresh job ∧ job.completedAt = none := by
  rw [Job.deferForScheduler_eq_ok]
  simp only [hrunning, Job.mk.injEq, true_and, Fresh]
  rw [← retain_terminal_eq_self_iff]
  constructor
  · rintro ⟨hstarted, hcompleted, hresults⟩
    exact ⟨⟨hstarted, hresults.symm⟩, hcompleted⟩
  · rintro ⟨⟨hstarted, hresults⟩, hcompleted⟩
    exact ⟨hstarted, hcompleted, hresults.symm⟩

theorem toOption_eq_some_iff {transition : Except JobTransitionError Job} {job : Job} :
    some job = transition.toOption ↔ transition = .ok job := by
  cases transition with
  | error => exact iff_of_false nofun nofun
  | ok next => exact ⟨fun heq => congrArg Except.ok (Option.some.inj heq).symm,
      fun heq => congrArg some (Except.ok.inj heq).symm⟩

/-- The job that the boot pass returns is the deferred one exactly for a fresh job. -/
theorem rebooted_eq_deferred_iff {jobs : List Job} {jobId reason : String} {job : Job}
    (hfind : requeuedInPlace jobs (.requeueRunningAfterReboot jobId reason) = some job) :
    (requeueRunningAfterReboot jobId reason jobs).answer =
        (job.deferForScheduler reason none).toOption ↔ Fresh job ∧ job.completedAt = none := by
  have hselect := find?_some hfind
  simp only [Bool.and_eq_true, decide_eq_true_eq] at hselect
  rcases saveFirst_cases _ (requeuedAfterReboot reason) jobs with
    ⟨hnone, _⟩ | ⟨before, found, after, rfl, _, hfound, hsaved⟩
  · exact absurd (hnone.symm.trans hfind) nofun
  · obtain rfl : found = job := Option.some.inj (hfound.symm.trans hfind)
    rw [requeueRunningAfterReboot, hsaved, save, toOption_eq_some_iff]
    exact deferForScheduler_eq_inPlace_iff hselect.1.2

/-- So is the job that a daemon worker defers and its supervisor finalises. -/
theorem finalized_eq_deferred_iff {jobs : List Job} {requeue : QueueDeferredRequeue} {job : Job}
    (hfind : jobs.find? (fun job => job.id = requeue.jobId && job.status = .running) = some job)
    (hcancel : job.cancelRequestedAt = none) :
    (finalizeDeferredDaemonWorker requeue.jobId
        (requeueDeferredDaemonWorker requeue jobs).stored).answer =
        (job.deferForScheduler requeue.reason requeue.deferUntil).toOption ↔
      Fresh job ∧ job.completedAt = none := by
  have hselect := find?_some hfind
  simp only [Bool.and_eq_true, decide_eq_true_eq] at hselect
  have hdeferred : deferDaemonWorker requeue job = { job with
      schedulerDeferReason := some requeue.reason
      schedulerDeferCount := saturatingSucc job.schedulerDeferCount
      schedulerDeferUntil := requeue.deferUntil } := by
    rw [deferDaemonWorker, if_pos (by rw [hcancel]; rfl)]
  rcases saveFirst_cases _ (deferDaemonWorker requeue) jobs with
    ⟨hnone, _⟩ | ⟨before, found, after, rfl, hbefore, hfound, hsaved⟩
  · exact absurd (hnone.symm.trans hfind) nofun
  · obtain rfl : found = job := Option.some.inj (hfound.symm.trans hfind)
    -- the finalisation meets the row that was just deferred
    have hnext : (before ++ deferDaemonWorker requeue found :: after).find? (fun job =>
        job.id = requeue.jobId && job.status = .running && job.cancelRequestedAt.isNone &&
          job.schedulerDeferReason.isSome) = some (deferDaemonWorker requeue found) := by
      have hskipped : before.find? (fun job =>
          job.id = requeue.jobId && job.status = .running && job.cancelRequestedAt.isNone &&
            job.schedulerDeferReason.isSome) = none := by
        refine find?_eq_none.mpr fun row hrow => ?_
        rw [hbefore row hrow]
        simp
      rw [find?_append, hskipped, Option.none_or, find?_cons_of_pos]
      simp [hdeferred, hselect, hcancel]
    rcases saveFirst_cases _ (fun job : Job => { job with status := .pending })
      (before ++ deferDaemonWorker requeue found :: after) with
      ⟨hnone, _⟩ | ⟨_, last, _, _, _, hlast, hfinal⟩
    · exact absurd (hnone.symm.trans hnext) nofun
    · obtain rfl : last = deferDaemonWorker requeue found :=
        Option.some.inj (hlast.symm.trans hnext)
      rw [requeueDeferredDaemonWorker, hsaved, finalizeDeferredDaemonWorker, save, hfinal, save,
        toOption_eq_some_iff, hdeferred]
      exact deferForScheduler_eq_inPlace_iff hselect.2

/-- Along a run from the empty queue, every pending job is fresh exactly if every job that
the run requeues field by field is fresh; and each of the two field by field requeues
leaves what the scheduler's deferral leaves exactly for a fresh job that never completed. -/
theorem pending_jobs_are_fresh_iff (ops : List QueueOp) (hops : ∀ op ∈ ops, WritesFresh op) :
    (RunPendingFresh [] ops ↔ RequeuesFresh [] ops) ∧
    (∀ jobs jobId reason job,
      requeuedInPlace jobs (.requeueRunningAfterReboot jobId reason) = some job →
      ((requeueRunningAfterReboot jobId reason jobs).answer =
          (job.deferForScheduler reason none).toOption ↔
        Fresh job ∧ job.completedAt = none)) ∧
    ∀ jobs requeue job,
      jobs.find? (fun job => job.id = requeue.jobId && job.status = .running) = some job →
      job.cancelRequestedAt = none →
      ((finalizeDeferredDaemonWorker requeue.jobId
          (requeueDeferredDaemonWorker requeue jobs).stored).answer =
          (job.deferForScheduler requeue.reason requeue.deferUntil).toOption ↔
        Fresh job ∧ job.completedAt = none) :=
  ⟨runPendingFresh_iff hops fun _ hjob => absurd hjob not_mem_nil,
    fun _ _ _ _ hfind => rebooted_eq_deferred_iff hfind,
    fun _ _ _ hfind hcancel => finalized_eq_deferred_iff hfind hcancel⟩

/-- A job that is submitted and started. -/
def startedOps : List QueueOp :=
  [.enqueue none 0 (.create "sy-1" "abc" "main" ["mac"] .full .normal 0),
    .startPendingJobsForDrain 1 ["sy-1"]]

/-- Without a field by field requeue the pending jobs of a run are fresh. -/
theorem pending_jobs_are_fresh_until_the_start : RunPendingFresh [] startedOps := by
  have hops : ∀ op ∈ startedOps, WritesFresh op := by
    simp [startedOps, WritesFresh, Fresh, Job.create, SortedMap.empty, SortedMap.values]
  refine (pending_jobs_are_fresh_iff startedOps hops).1.mpr ?_
  intro before op after hsplit job hjob
  have hmem : op ∈ startedOps := hsplit ▸ mem_append_right before mem_cons_self
  simp only [startedOps, mem_cons, not_mem_nil, or_false] at hmem
  rcases hmem with rfl | rfl <;> cases hjob

/-- After a reboot the job is pending and still has its start time; the deferral would
have cleared it. -/
theorem rebooted_job_keeps_its_start :
    let jobs := afterOps [] startedOps
    let rebooted := afterOps [] (startedOps ++ [.requeueRunningAfterReboot "sy-1" "reboot"])
    let finalized := afterOps [] (startedOps ++
      [.requeueDeferredDaemonWorker ⟨"sy-1", "busy", none⟩, .finalizeDeferredDaemonWorker "sy-1"])
    rebooted.map (fun job => (job.status, job.startedAt)) = [(.pending, some 1)] ∧
      finalized.map (fun job => (job.status, job.startedAt)) = [(.pending, some 1)] ∧
      ¬ PendingFresh rebooted ∧ ¬ PendingFresh finalized ∧
      jobs.map (fun job => ((job.deferForScheduler "reboot" none).toOption.map
        fun deferred => (deferred.status, deferred.startedAt))) = [some (.pending, none)] := by
  decide +kernel

end Shipyard.Queue
