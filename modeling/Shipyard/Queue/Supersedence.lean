import Mathlib.Data.List.Induction
import Shipyard.Queue.Lifecycle

/-!
# Pending jobs of one workload

A submission cancels the pending jobs of its workload, so that the newest job
replaces them. A job that runs is not cancelled. Three operations return running
jobs to pending without another look at their workload, so a requeued job can
stand beside the newer job that was to replace it.
-/

namespace Shipyard.Queue

open Lib List

def pendingWorkloads (jobs : List Job) : List Workload :=
  (jobs.filter fun job => job.status = .pending).map workload

/-- At most one job is pending for each workload. -/
def OnePendingEach (jobs : List Job) : Prop :=
  ∀ key, jobs.countP (fun job => job.status = .pending && workload job = key) ≤ 1

variable {jobs : List Job} {op : QueueOp}

theorem onePendingEach_iff : OnePendingEach jobs ↔ (pendingWorkloads jobs).Nodup := by
  rw [nodup_iff_count_le_one]
  refine forall_congr' fun key => ?_
  rw [pendingWorkloads, List.count, countP_map, countP_filter]
  refine Iff.of_eq (congrArg (· ≤ 1) (countP_congr fun job _ => ?_))
  simp [and_comm]

/-! ## Rows that an operation returns to pending -/

/-- The row that a deferral of this id makes pending. -/
def deferredRow (jobs : List Job) (jobId : String) : Option Job :=
  (jobs.find? fun job => job.id = jobId && job.status = .running).filter
    fun job => job.cancelRequestedAt.isNone

/-- The running rows that an operation makes pending. -/
def returnedToPending (jobs : List Job) : QueueOp → List Job
  | .requeueDeferredRunningJobsForDrain requeues =>
    (requeues.map QueueDeferredRequeue.jobId).eraseDups.filterMap (deferredRow jobs)
  | .requeueRunningAfterReboot jobId _ =>
    (jobs.find? fun job =>
      job.id = jobId && job.status = .running && job.cancelRequestedAt.isNone).toList
  | .finalizeDeferredDaemonWorker jobId =>
    (jobs.find? fun job =>
      job.id = jobId && job.status = .running && job.cancelRequestedAt.isNone &&
        job.schedulerDeferReason.isSome).toList
  | _ => []

/-- The rows an operation returns to pending are of different workloads, and of
none that has a pending row already. -/
structure RequeuesApart (jobs : List Job) (op : QueueOp) : Prop where
  distinct : ((returnedToPending jobs op).map workload).Nodup
  apart : ∀ job ∈ returnedToPending jobs op, ∀ queued ∈ jobs, queued.status = .pending →
    workload queued ≠ workload job

theorem requeuesApart_of_none (hnone : returnedToPending jobs op = []) : RequeuesApart jobs op where
  distinct := by rw [hnone]; exact nodup_nil
  apart := by rw [hnone]; intro job hjob; cases hjob

theorem requeuesApart_iff (hone : OnePendingEach jobs) : RequeuesApart jobs op ↔
      (pendingWorkloads jobs ++ (returnedToPending jobs op).map workload).Nodup := by
  rw [onePendingEach_iff] at hone
  rw [nodup_append]
  constructor
  · intro hrequeues
    refine ⟨hone, hrequeues.distinct, ?_⟩
    intro key hkey other hother
    obtain ⟨queued, hqueued, rfl⟩ := mem_map.mp hkey
    obtain ⟨hmem, hpending⟩ := mem_filter.mp hqueued
    obtain ⟨job, hjob, rfl⟩ := mem_map.mp hother
    exact hrequeues.apart job hjob queued hmem (of_decide_eq_true hpending)
  · rintro ⟨-, hdistinct, hapart⟩
    refine ⟨hdistinct, fun job hjob queued hqueued hpending => ?_⟩
    exact hapart _ (mem_map_of_mem (mem_filter.mpr ⟨hqueued, decide_eq_true hpending⟩))
      _ (mem_map_of_mem hjob)

/-! ## Requeueing -/

section Requeue

variable {jobs : List Job}

theorem pendingWorkloads_append (left right : List Job) :
    pendingWorkloads (left ++ right) = pendingWorkloads left ++ pendingWorkloads right := by
  rw [pendingWorkloads, filter_append, map_append]
  rfl

theorem pendingWorkloads_cons (job : Job) (rest : List Job) :
    pendingWorkloads (job :: rest) =
      (if job.status = .pending then [workload job] else []) ++ pendingWorkloads rest := by
  unfold pendingWorkloads
  rw [filter_cons]
  split <;> simp_all

/-- A running row that becomes pending adds its workload. -/
theorem pendingWorkloads_requeue {before after : List Job} {job next : Job}
    (hrunning : job.status = .running) (hpending : next.status = .pending)
    (hworkload : workload next = workload job) :
    (pendingWorkloads (before ++ next :: after)).Perm
      (pendingWorkloads (before ++ job :: after) ++ [workload job]) := by
  simp only [pendingWorkloads_append, pendingWorkloads_cons, hrunning, hpending, hworkload,
    reduceCtorEq, if_true, if_false, nil_append]
  rw [append_assoc]
  exact Perm.append_left _ (perm_append_comm)

theorem find?_of_split {α : Type} {select : α → Bool} {before : List α} {row : α}
    (hbefore : ∀ other ∈ before, select other = false) (hrow : select row = true)
    (after : List α) :
    (before ++ row :: after).find? select = some row := by
  rw [find?_append, find?_eq_none.mpr (by simpa using hbefore), find?_cons, hrow]
  rfl

/-- A requeue of the first selected row. -/
theorem pendingWorkloads_saveFirst {select : Job → Bool} {change : Job → Job}
    (hselect : ∀ job, select job = true → job.status = .running)
    (hchange : ∀ job, (change job).status = .pending ∧ workload (change job) = workload job) :
    (pendingWorkloads (saveFirst select change jobs).stored).Perm
      (pendingWorkloads jobs ++ (jobs.find? select).toList.map workload) := by
  unfold saveFirst
  split
  next rows next hedit =>
    obtain ⟨before, job, after, rfl, hbefore, hrow, hnext, rfl⟩ := modifyFirst_some hedit
    obtain rfl := Except.ok.inj hnext
    rw [find?_of_split hbefore hrow _]
    exact pendingWorkloads_requeue (hselect job hrow) (hchange job).1 (hchange job).2
  next hedit =>
    rw [find?_eq_none.mpr (by simpa using modifyFirst_none hedit)]
    simp [save]

variable (requeue : QueueDeferredRequeue)

/-- A deferral of a running row without a cancellation request makes it
pending; a row with one stays. -/
theorem requeueDeferred_of_running {job : Job} (hrunning : job.status = .running) :
    ∃ next, requeueDeferred requeue job = .ok next ∧ next.id = job.id ∧
      workload next = workload job ∧
      (job.cancelRequestedAt.isSome ∧ next = job ∨
        job.cancelRequestedAt.isNone ∧ next.status = .pending) := by
  unfold requeueDeferred
  cases hcancel : job.cancelRequestedAt with
  | some requested => exact ⟨job, rfl, rfl, rfl, .inl ⟨rfl, rfl⟩⟩
  | none =>
    exact ⟨_, Job.deferForScheduler_eq_ok.mpr ⟨hrunning, rfl⟩, rfl, rfl, .inr ⟨rfl, rfl⟩⟩

/-- One turn of the sweep adds the workload of the row it makes pending, and
leaves the rows of other ids as they are. -/
theorem editFirst_requeueDeferred (jobs : List Job) :
    (pendingWorkloads (editFirst (fun job => job.id = requeue.jobId && job.status = .running)
        (requeueDeferred requeue) jobs)).Perm
      (pendingWorkloads jobs ++ (deferredRow jobs requeue.jobId).toList.map workload) ∧
    ∀ jobId, jobId ≠ requeue.jobId →
      deferredRow (editFirst (fun job => job.id = requeue.jobId && job.status = .running)
        (requeueDeferred requeue) jobs) jobId = deferredRow jobs jobId := by
  unfold editFirst
  cases hedit : modifyFirst (fun job => job.id = requeue.jobId && job.status = .running)
      (requeueDeferred requeue) jobs with
  | error error =>
    -- A selected row is running, and a deferral of a running row does not fail.
    obtain ⟨job, -, hselect, herror⟩ := modifyFirst_error hedit
    simp only [Bool.and_eq_true, decide_eq_true_eq] at hselect
    obtain ⟨next, hnext, -⟩ := requeueDeferred_of_running requeue hselect.2
    rw [hnext] at herror
    cases herror
  | ok edited =>
    cases edited with
    | none =>
      have hfind : jobs.find? (fun job => job.id = requeue.jobId && job.status = .running) =
          none := find?_eq_none.mpr (by simpa using modifyFirst_none hedit)
      simp [deferredRow, hfind]
    | some pair =>
      obtain ⟨rows, row⟩ := pair
      obtain ⟨before, job, after, rfl, hbefore, hselect, hchange, rfl⟩ :=
        modifyFirst_some hedit
      have hfind := find?_of_split hbefore hselect after
      simp only [Bool.and_eq_true, decide_eq_true_eq] at hselect
      obtain ⟨next, hnext, hid, hworkload, hcase⟩ :=
        requeueDeferred_of_running requeue hselect.2
      obtain rfl := Except.ok.inj (hnext.symm.trans hchange)
      refine ⟨?_, fun jobId hne => ?_⟩
      · rw [deferredRow, hfind]
        rcases hcase with ⟨hcancel, hsame⟩ | ⟨hcancel, hpending⟩
        · rw [hsame, Option.filter_some, if_neg (by simp [Option.isSome_iff_ne_none.mp hcancel])]
          simp
        · rw [Option.filter_some, if_pos hcancel]
          exact pendingWorkloads_requeue hselect.2 hpending hworkload
      · have hjob : job.id ≠ jobId := fun heq => hne (heq.symm.trans hselect.1)
        simp [deferredRow, find?_append, hjob, hid]

/-- The sweep makes pending what it finds for the ids it has not seen. -/
theorem pendingWorkloads_sweep (seen : List String) (requeues : List QueueDeferredRequeue)
    (jobs : List Job) :
    (pendingWorkloads (sweep QueueDeferredRequeue.jobId
        (fun requeue job => job.id = requeue.jobId && job.status = .running)
        requeueDeferred seen requeues jobs).1).Perm
      (pendingWorkloads jobs ++
        ((((requeues.map QueueDeferredRequeue.jobId).filter (· ∉ seen)).eraseDups.filterMap
          (deferredRow jobs)).map workload)) := by
  induction requeues generalizing seen jobs with
  | nil => simp [sweep]
  | cons requeue rest ih =>
    rw [map_cons, filter_cons]
    by_cases hseen : requeue.jobId ∈ seen
    · rw [sweep, if_pos hseen, if_neg (by simpa using hseen)]
      exact ih seen jobs
    · obtain ⟨hperm, hothers⟩ := editFirst_requeueDeferred requeue jobs
      rw [sweep_rows_cons hseen, if_pos (by simpa using hseen), eraseDups_cons]
      -- The ids that are left are those that are new after this one.
      have hrest : ((rest.map QueueDeferredRequeue.jobId).filter (· ∉ seen)).filter
          (fun jobId => !jobId == requeue.jobId) =
          (rest.map QueueDeferredRequeue.jobId).filter (· ∉ requeue.jobId :: seen) := by
        rw [filter_filter]
        refine filter_congr fun jobId _ => ?_
        rw [Bool.eq_iff_iff]
        simp
      have hleft := filterMap_congr (l := ((rest.map QueueDeferredRequeue.jobId).filter
          (· ∉ requeue.jobId :: seen)).eraseDups) fun jobId hmem => hothers jobId (by
        simp only [mem_eraseDups, mem_filter, mem_cons, not_or,
          decide_eq_true_eq] at hmem
        exact hmem.2.1)
      have hstep := ih (requeue.jobId :: seen)
        (editFirst (fun job => job.id = requeue.jobId && job.status = .running)
          (requeueDeferred requeue) jobs)
      rw [hleft] at hstep
      rw [hrest]
      refine hstep.trans ((hperm.append_right _).trans ?_)
      rw [append_assoc, ← map_append]
      refine Perm.append_left _ (List.Perm.map _ ?_)
      cases hrow : deferredRow jobs requeue.jobId <;> simp [hrow]

end Requeue

/-! ## One operation -/

/-- The rows of an operation, saved. A refused operation saves nothing. -/
def queueAfter (jobs : List Job) (op : QueueOp) : List Job :=
  match perform op jobs with
  | .ok saved => saved.stored
  | .error _ => jobs

/-- Submissions of scoped jobs, starts, requeues, cancellations and completions.
A worker completes its job by writing a value that is not pending. -/
def covers : QueueOp → Bool
  | .enqueue _ _ job => job.workloadScope.isSome
  | .enqueueRecoveryIfUnowned _ _ _ => false
  | .update job => job.status ≠ .pending && job.workloadScope.isSome
  | _ => true

/-- Every row that is not terminal has a workload scope. -/
def LiveScoped (jobs : List Job) : Prop :=
  ∀ job ∈ jobs, isTerminalJob job.status = false → job.workloadScope.isSome

section Step

variable {jobs : List Job} {op : QueueOp} {job next : Job}

theorem RowStep.liveScoped (hstep : RowStep op job next) (hcovers : covers op = true)
    (hjob : isTerminalJob job.status = false → job.workloadScope.isSome)
    (hlive : isTerminalJob next.status = false) : next.workloadScope.isSome := by
  have hscope : isTerminalJob job.status = false := by
    by_contra hterminal
    rw [hstep.status_of_terminal (by simpa using hterminal)] at hlive
    exact hterminal hlive
  cases hstep.change.2 with
  | updated hop =>
    rw [hop, covers, Bool.and_eq_true] at hcovers
    exact hcovers.2
  | cancelled _ hcancelled =>
    rw [hcancelled] at hlive
    cases hlive
  | backfilled _ hscope => exact hscope
  | moved hworkload =>
    rw [show next.workloadScope = job.workloadScope from congrArg Workload.scope hworkload]
    exact hjob hscope

theorem LiveScoped.queueAfter (hscoped : LiveScoped jobs) (hcovers : covers op = true) :
    LiveScoped (queueAfter jobs op) := by
  unfold Queue.queueAfter
  split
  next saved hperform =>
    have hop := perform_spec hperform
    intro row hrow hlive
    rcases hop.exists_origin (hop.stored_subset row hrow) with ⟨job, hjob, hstep⟩ | hsubmitted
    · exact hstep.liveScoped hcovers (hscoped job hjob) hlive
    · cases op with
      | enqueue store now newer =>
        cases hsubmitted
        exact hcovers
      | enqueueRecoveryIfUnowned => cases hcovers
      | _ => cases hsubmitted
  · exact hscoped

/-- An operation that submits nothing and returns nothing to pending. -/
def staysQuiet : QueueOp → Bool
  | .enqueue _ _ _ | .enqueueRecoveryIfUnowned _ _ _ => false
  | .requeueDeferredRunningJobsForDrain _ | .requeueRunningAfterReboot _ _
  | .finalizeDeferredDaemonWorker _ => false
  | _ => true

/-- A row that is pending after a quiet operation was pending before. -/
theorem RowStep.pending_of_quiet (hstep : RowStep op job next) (hcovers : covers op = true)
    (hquiet : staysQuiet op = true) (hpending : next.status = .pending) :
    job.status = .pending ∧ workload next = workload job := by
  have hupdate : ∀ value, op = .update value → value.status ≠ .pending := by
    rintro value rfl
    rw [covers, Bool.and_eq_true, decide_eq_true_eq] at hcovers
    exact hcovers.1
  have hrequeue : requeues job.id op = false := by
    cases op with
    | requeueDeferredRunningJobsForDrain | requeueRunningAfterReboot
    | finalizeDeferredDaemonWorker => cases hquiet
    | _ => rfl
  refine ⟨hstep.pending_before hpending hrequeue hupdate, ?_⟩
  cases hstep.change.2 with
  | updated hop => exact absurd hpending (hupdate next hop)
  | cancelled _ hcancelled => cases hcancelled.symm.trans hpending
  | backfilled hop =>
    cases op with
    | enqueue | enqueueRecoveryIfUnowned => cases hquiet
    | _ => cases hop
  | moved hworkload => exact hworkload

/-- Rows that only lose their pending status lose workloads. -/
theorem pendingWorkloads_sublist {R : Job → Job → Prop} {kept : List Job}
    (hrows : List.Forall₂ R jobs kept)
    (hpending : ∀ job next, R job next → next.status = .pending →
      job.status = .pending ∧ workload next = workload job) :
    (pendingWorkloads kept).Sublist (pendingWorkloads jobs) := by
  induction hrows with
  | nil => exact List.Sublist.refl _
  | cons hrow _ ih =>
    rw [pendingWorkloads_cons, pendingWorkloads_cons]
    refine List.Sublist.append ?_ ih
    split
    next hnext =>
      obtain ⟨hjob, hworkload⟩ := hpending _ _ hrow hnext
      rw [if_pos hjob, hworkload]
    · exact nil_sublist _

/-- Trimming keeps the pending rows. -/
theorem pendingWorkloads_trimTerminal (rows : List Job) :
    pendingWorkloads (trimTerminal rows).1 = pendingWorkloads rows := by
  have hlive (jobs : List Job) : pendingWorkloads jobs = pendingWorkloads (liveJobs jobs) := by
    rw [pendingWorkloads, pendingWorkloads, liveJobs, filter_filter]
    refine congrArg _ (filter_congr fun job _ => ?_)
    cases hstatus : job.status <;> simp [isTerminalJob]
  rw [hlive, liveJobs_trimTerminal, ← hlive]

theorem Performed.pendingWorkloads {saved : Saved (List Job)} (hop : Performed op jobs saved) :
    pendingWorkloads saved.stored = pendingWorkloads saved.rows := by
  rcases hop.stored with hsame | htrimmed
  · rw [hsame]
  · rw [htrimmed, pendingWorkloads_trimTerminal]

theorem sameWorkloadScope_iff {left right : Job} :
    sameWorkloadScope left right = true ↔ left.workloadScope = right.workloadScope := by
  unfold sameWorkloadScope
  cases left.workloadScope <;> cases right.workloadScope <;> simp

/-- A row that a submission leaves pending is of another workload. -/
theorem pending_of_cancelSuperseded {now : Time} {newer queued : Job}
    (hpending : (cancelSuperseded now newer queued).status = .pending) :
    cancelSuperseded now newer queued = queued ∧ workload queued ≠ workload newer := by
  by_cases hsame : sameWorkloadScope queued newer && queued.branch = newer.branch &&
      queued.status = .pending && queued.targetNames = newer.targetNames &&
      queued.mode = newer.mode
  · -- A pending row can be cancelled.
    have hstatus : queued.status = .pending := by
      simp only [Bool.and_eq_true, decide_eq_true_eq] at hsame
      exact hsame.1.1.2
    rw [cancelSuperseded, if_pos hsame, Job.cancelWithReason,
      Job.cancelWithReasonAndProof_eq_ok.mpr ⟨by rw [hstatus]; rfl, rfl⟩] at hpending
    cases hpending
  · rw [cancelSuperseded, if_neg hsame] at hpending ⊢
    refine ⟨rfl, fun hworkload => hsame ?_⟩
    simp only [workload, Workload.mk.injEq] at hworkload
    simp [sameWorkloadScope_iff, hworkload, hpending]

theorem backfillPendingWorkloadScopes_of_liveScoped (hscoped : LiveScoped jobs)
    (store : Option QueueRequestStore) : backfillPendingWorkloadScopes store jobs = jobs := by
  refine (map_congr_left fun job hjob => ?_).trans (map_id jobs)
  split
  next hpending =>
    have hscope := hscoped job hjob (by rw [hpending]; rfl)
    cases store <;> simp [backfillWorkloadScope, hscope]
  · rfl

/-- Submission replaces the pending row of its workload. -/
theorem onePendingEach_enqueue (hscoped : LiveScoped jobs) (hone : OnePendingEach jobs)
    (store : Option QueueRequestStore) (now : Time) (newer : Job) :
    OnePendingEach (enqueue store now newer jobs).stored := by
  rw [onePendingEach_iff] at hone ⊢
  have hrows : (enqueue store now newer jobs).stored =
      cancelSupersededPending now newer jobs ++ [newer] := by
    rw [enqueue, backfillPendingWorkloadScopes_of_liveScoped hscoped]
    rfl
  have hkept : (pendingWorkloads (cancelSupersededPending now newer jobs)).Sublist
      (pendingWorkloads jobs) := by
    refine pendingWorkloads_sublist (forall₂_map_right_iff.mpr
      (forall₂_same.mpr fun job _ => rfl)) (R := fun job next =>
        next = cancelSuperseded now newer job) ?_
    rintro job next rfl hpending
    obtain ⟨hsame, -⟩ := pending_of_cancelSuperseded hpending
    exact ⟨hsame ▸ hpending, congrArg workload hsame⟩
  have hreplaced : workload newer ∉ pendingWorkloads (cancelSupersededPending now newer jobs) := by
    intro hmem
    obtain ⟨row, hrow, hworkload⟩ := mem_map.mp hmem
    obtain ⟨hrow, hpending⟩ := mem_filter.mp hrow
    obtain ⟨queued, -, rfl⟩ := mem_map.mp hrow
    obtain ⟨hsame, hother⟩ := pending_of_cancelSuperseded (of_decide_eq_true hpending)
    exact hother (hsame ▸ hworkload)
  rw [hrows, pendingWorkloads_append, pendingWorkloads_cons]
  split
  · refine nodup_append.mpr ⟨hone.sublist hkept, nodup_singleton _, ?_⟩
    rintro key hkey other hother rfl
    exact hreplaced (mem_singleton.mp hother ▸ hkey)
  · rw [show pendingWorkloads [] = [] from rfl, append_nil, append_nil]
    exact hone.sublist hkept

/-- A quiet operation returns nothing to pending. -/
theorem returnedToPending_of_quiet (hquiet : staysQuiet op = true) :
    returnedToPending jobs op = [] := by
  cases op <;> first | rfl | cases hquiet

theorem onePendingEach_of_quiet (hone : OnePendingEach jobs) (hcovers : covers op = true)
    (hquiet : staysQuiet op = true) : OnePendingEach (queueAfter jobs op) := by
  unfold queueAfter
  split
  next saved hperform =>
    have hop := perform_spec hperform
    obtain ⟨kept, hsteps, hrows⟩ := hop.rewritten
    have hsaved : saved.rows = kept := by
      rcases hrows with hrows | ⟨job, hsubmitted, -⟩
      · exact hrows
      · cases op with
        | enqueue | enqueueRecoveryIfUnowned => cases hquiet
        | _ => cases hsubmitted
    rw [onePendingEach_iff] at hone ⊢
    rw [hop.pendingWorkloads, hsaved]
    exact hone.sublist (pendingWorkloads_sublist hsteps fun job next hstep =>
      hstep.pending_of_quiet hcovers hquiet)
  · exact hone

/-- While at most one job of each workload is pending, an operation keeps it so
exactly when its requeues are apart. -/
theorem onePendingEach_queueAfter_iff (hscoped : LiveScoped jobs) (hone : OnePendingEach jobs)
    (hcovers : covers op = true) :
    OnePendingEach (queueAfter jobs op) ↔ RequeuesApart jobs op := by
  rw [requeuesApart_iff hone]
  have hmany : ∀ after, (pendingWorkloads after).Perm
      (pendingWorkloads jobs ++ (returnedToPending jobs op).map workload) →
      (OnePendingEach after ↔
        (pendingWorkloads jobs ++ (returnedToPending jobs op).map workload).Nodup) := by
    intro after hperm
    rw [onePendingEach_iff]
    exact hperm.nodup_iff
  by_cases hquiet : staysQuiet op = true
  · refine iff_of_true (onePendingEach_of_quiet hone hcovers hquiet) ?_
    rw [returnedToPending_of_quiet hquiet, map_nil, append_nil]
    exact onePendingEach_iff.mp hone
  · cases op with
    | enqueue store now newer =>
      refine iff_of_true (onePendingEach_enqueue hscoped hone store now newer) ?_
      have hnone : returnedToPending jobs (.enqueue store now newer) = [] := rfl
      rw [hnone, map_nil, append_nil]
      exact onePendingEach_iff.mp hone
    | enqueueRecoveryIfUnowned => cases hcovers
    | requeueDeferredRunningJobsForDrain requeues =>
      refine hmany _ ?_
      have hsweep := pendingWorkloads_sweep [] requeues jobs
      have hunseen : (requeues.map QueueDeferredRequeue.jobId).filter (· ∉ []) =
          requeues.map QueueDeferredRequeue.jobId := by simp
      rw [hunseen] at hsweep
      exact hsweep
    | requeueRunningAfterReboot jobId reason =>
      refine hmany _ (pendingWorkloads_saveFirst ?_ fun job => ⟨rfl, rfl⟩)
      intro job hselect
      simp only [Bool.and_eq_true, decide_eq_true_eq] at hselect
      exact hselect.1.2
    | finalizeDeferredDaemonWorker jobId =>
      refine hmany _ (pendingWorkloads_saveFirst ?_ fun job => ⟨rfl, rfl⟩)
      intro job hselect
      simp only [Bool.and_eq_true, decide_eq_true_eq] at hselect
      exact hselect.1.1.2
    | _ => exact absurd rfl hquiet

end Step

/-! ## Whole runs -/

/-- The queue that a sequence of operations makes of the empty one. -/
def run (ops : List QueueOp) : List Job :=
  ops.foldl queueAfter []

theorem run_concat (ops : List QueueOp) (op : QueueOp) :
    run (ops ++ [op]) = queueAfter (run ops) op := by
  rw [run, foldl_append]
  rfl

theorem liveScoped_run {ops : List QueueOp} (hcovered : ∀ op ∈ ops, covers op = true) :
    LiveScoped (run ops) := by
  induction ops using List.reverseRecOn with
  | nil =>
    intro job hjob
    cases hjob
  | append_singleton before op ih =>
    rw [run_concat]
    exact (ih fun other hother => hcovered other (mem_append_left _ hother)).queueAfter
      (hcovered op (mem_append_right _ (mem_singleton_self op)))

theorem onePendingEach_run_concat_iff {before ops : List QueueOp}
    (hcovered : ∀ op ∈ ops, covers op = true) (hbefore : before ++ [op] <+: ops)
    (hone : OnePendingEach (run before)) :
    OnePendingEach (run (before ++ [op])) ↔ RequeuesApart (run before) op := by
  rw [run_concat]
  refine onePendingEach_queueAfter_iff (liveScoped_run fun other hother => ?_) hone ?_
  · exact hcovered other (hbefore.subset (mem_append_left _ hother))
  · exact hcovered op (hbefore.subset (mem_append_right _ (mem_singleton_self op)))

/-- Along a run at most one job of each workload is pending exactly when every
requeue of the run returns jobs whose workloads have no pending job. -/
theorem one_pending_iff_requeues_apart (ops : List QueueOp)
    (hcovered : ∀ op ∈ ops, covers op = true) :
    (∀ before, before <+: ops → OnePendingEach (run before)) ↔
      ∀ before op, before ++ [op] <+: ops → RequeuesApart (run before) op := by
  constructor
  · intro hone before op hbefore
    have hstart : before <+: ops := (prefix_append before [op]).trans hbefore
    exact (onePendingEach_run_concat_iff hcovered hbefore (hone before hstart)).mp
      (hone _ hbefore)
  · intro hrequeues before hbefore
    induction before using List.reverseRecOn with
    | nil =>
      intro key
      exact Nat.zero_le 1
    | append_singleton before op ih =>
      have hone := ih ((prefix_append before [op]).trans hbefore)
      exact (onePendingEach_run_concat_iff hcovered hbefore hone).mpr
        (hrequeues before op hbefore)

/-- A job of the scope `shipyard`. -/
def scopedJob (id branch : String) : Job :=
  { Job.create id "abc" branch ["mac"] .full .normal 0 with workloadScope := some "shipyard" }

/-- A running job of another branch is returned to pending. -/
def apartRun : List QueueOp :=
  [.enqueue none 0 (scopedJob "sy-1" "main"), .startPendingJobsForDrain 1 ["sy-1"],
    .enqueue none 2 (scopedJob "sy-2" "next"), .requeueRunningAfterReboot "sy-1" "reboot"]

/-- A newer job of the same workload is submitted while the first one runs. -/
def supersededRun : List QueueOp :=
  [.enqueue none 0 (scopedJob "sy-1" "main"), .startPendingJobsForDrain 1 ["sy-1"],
    .enqueue none 2 (scopedJob "sy-2" "main"), .requeueRunningAfterReboot "sy-1" "reboot"]

theorem apartRun_one_pending :
    (∀ op ∈ apartRun, covers op = true) ∧
      ∀ before, before <+: apartRun → OnePendingEach (run before) := by
  refine ⟨by decide, (one_pending_iff_requeues_apart apartRun (by decide)).mpr ?_⟩
  intro before op hbefore
  rw [apartRun, prefix_iff_eq_append, append_assoc] at hbefore
  match before, hbefore with
  | [], hop =>
    obtain rfl : op = _ := by simpa using hop
    exact requeuesApart_of_none rfl
  | [_], hop =>
    obtain ⟨-, rfl⟩ : _ ∧ op = _ := by simpa using hop
    exact requeuesApart_of_none rfl
  | [_, _], hop =>
    obtain ⟨-, -, rfl⟩ : _ ∧ _ ∧ op = _ := by simpa using hop
    exact requeuesApart_of_none rfl
  | [_, _, _], hop =>
    obtain ⟨rfl, rfl, rfl, rfl⟩ : _ = _ ∧ _ = _ ∧ _ = _ ∧ op = _ := by simpa using hop
    exact ⟨by decide +kernel, by decide +kernel⟩
  | _ :: _ :: _ :: _ :: _, hop => simp at hop

/-- After the requeue both jobs of the workload are pending. -/
theorem supersededRun_two_pending :
    (∀ op ∈ supersededRun, covers op = true) ∧
      (run supersededRun).countP (fun job =>
        job.status = .pending && workload job = workload (scopedJob "sy-2" "main")) = 2 ∧
      ¬OnePendingEach (run supersededRun) := by
  have hcount : (run supersededRun).countP (fun job =>
      job.status = .pending && workload job = workload (scopedJob "sy-2" "main")) = 2 := by
    decide +kernel
  refine ⟨by decide, hcount, fun hone => ?_⟩
  have hle := hone (workload (scopedJob "sy-2" "main"))
  omega

end Shipyard.Queue
