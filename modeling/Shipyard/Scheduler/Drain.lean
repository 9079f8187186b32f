import Shipyard.Scheduler.SamePr
import Shipyard.Queue.Lifecycle
import Mathlib.Data.List.Pairwise

/-!
# Applying an admission pass

The applying half of a drain pass. It works on the queue in three locked
sections: cancel what the plan rejected, reap the running jobs that the plan
took for dead, and start what was admitted. Other processes may change the
queue before each section in any way but starting jobs, which needs the drain
lock. No started job shares an exclusive claim or a pull request with a job that
runs after the pass.
-/

namespace Shipyard.Scheduler

open HostPool Lib Queue List

/-! ## The queue and other processes -/

/-- The stored rows. A job is named by its id. -/
structure JobTable where
  rows : List Job
  distinct : (rows.map Job.id).Nodup

def RunningIn (rows : List Job) (jobId : String) : Prop :=
  ∃ job ∈ rows, job.id = jobId ∧ job.status = .running

/-- A change of the queue that starts no job. -/
def NoStart (before after : List Job) : Prop :=
  ∀ jobId, RunningIn after jobId → RunningIn before jobId

/-- What other processes do to the queue while the pass does not hold its lock. -/
structure OtherProcesses where
  change : JobTable → JobTable
  noStart : ∀ table, NoStart table.rows (change table).rows

/-- Whether an operation can make a job running that was not. -/
def startsJob (jobs : List Job) : QueueOp → Bool
  | .startPendingJobsForDrain _ _ => true
  | .update job =>
    job.status = .running &&
      !jobs.any fun queued => queued.id = job.id && queued.status = .running
  | .enqueue _ _ job => job.status = .running
  | .enqueueRecoveryIfUnowned _ job _ => job.status = .running
  | _ => false

section RowSteps

variable {op : QueueOp} {jobs : List Job} {saved : Saved (List Job)}

theorem running_before {job next : Job} (hstep : RowStep op job next) (hjob : job ∈ jobs)
    (hstarts : startsJob jobs op = false) (hrunning : next.status = .running) :
    RunningIn jobs next.id := by
  have hkept : job.status = .running → RunningIn jobs next.id :=
    fun hrunning => ⟨job, hjob, hstep.id_eq, hrunning⟩
  cases hstep.change.2 with
  | updated hop =>
    simp only [hop, startsJob, hrunning, decide_true, Bool.true_and, Bool.not_eq_false',
      any_eq_true, Bool.and_eq_true, decide_eq_true_eq] at hstarts
    obtain ⟨queued, hqueued, hid, hstatus⟩ := hstarts
    exact ⟨queued, hqueued, hid, hstatus⟩
  | cancelled _ hcancelled => cases hcancelled.symm.trans hrunning
  | backfilled _ _ hsame => exact hkept (hsame.symm.trans hrunning)
  | moved _ hstatus =>
    cases hstatus with
    | same hsame => exact hkept (hsame.symm.trans hrunning)
    | started hop =>
      rw [hop] at hstarts
      cases hstarts
    | completed hbefore | requeued _ hbefore => exact hkept hbefore

/-- Every queue operation that does not start a job is such a change. -/
theorem noStart_of_performed (hop : Performed op jobs saved)
    (hstarts : startsJob jobs op = false) : NoStart jobs saved.stored := by
  rintro jobId ⟨row, hrow, rfl, hrunning⟩
  rcases hop.exists_origin (hop.stored_subset row hrow) with ⟨job, hjob, hstep⟩ | hsubmitted
  · exact running_before hstep hjob hstarts hrunning
  · cases op with
    | enqueue | enqueueRecoveryIfUnowned =>
      obtain rfl := Option.some.inj hsubmitted
      simp [startsJob, hrunning] at hstarts
    | _ => cases hsubmitted

end RowSteps

/-! ## The three locked sections -/

namespace JobTable

theorem distinct_of_performed {op : QueueOp} {saved : Saved (List Job)} (table : JobTable)
    (hop : Performed op table.rows saved) (hfresh : enqueuesFresh table.rows op = true) :
    (saved.stored.map Job.id).Nodup :=
  hop.stored_ids_nodup (hop.rows_ids_nodup hfresh table.distinct)

def cancelPending (now : Time) (cancellations : List QueuePendingCancellation)
    (table : JobTable) : JobTable where
  rows := (cancelPendingJobsForDrain now cancellations table.rows).stored
  distinct := table.distinct_of_performed (cancelPending_performed now cancellations) rfl

def cancelStaleRunning (clock : Time) (jobIds : List String) (now : Time) (table : JobTable) :
    JobTable where
  rows := (cancelStaleRunningJobs clock jobIds now defaultRunningJobStaleAfter
    staleRunningCancelReason table.rows).stored
  distinct := table.distinct_of_performed (cancelStaleRunning_performed clock jobIds now
    defaultRunningJobStaleAfter staleRunningCancelReason) rfl

def startPending (now : Time) (jobIds : List String) (table : JobTable) : JobTable where
  rows := (startPendingJobsForDrain now jobIds table.rows).stored
  distinct := table.distinct_of_performed (startPending_performed now jobIds) rfl

end JobTable

def alreadyMergedCancelReason : String := "PR already merged"

def admitPassCancellations (pass : RequestBackedAdmitPass) : List QueuePendingCancellation :=
  (pass.plan.orphaned.map fun orphan => { jobId := orphan.jobId, reason := orphan.reason }) ++
    (pass.samePrShipAdmission.pendingCancellations.map fun cancellation =>
      { jobId := cancellation.jobId, reason := cancellation.reason }) ++
    (pass.alreadyMergedCancellations.map fun cancellation =>
      { jobId := cancellation.jobId
        reason := alreadyMergedCancelReason
        proof := some
          { cause := .alreadyMerged
            repository := cancellation.repository
            pullRequest := cancellation.pr
            headSha := cancellation.headSha } })

/-- The clock readings of one pass: one in each locked section, and the one that
decides staleness. -/
structure DrainClock where
  cancelAt : Time
  staleAt : Time
  reapAt : Time
  startAt : Time

structure AppliedAdmitPass where
  started : List Job
  cancelled : List Job
  skippedStartsDueToRunningRequestErrors : Bool
  skippedStartsDueToRevivedStaleRunning : Bool
  staleRunningCancelled : List Job

/-- Apply a pass; `beforeReap` and `beforeStart` act between the locked sections. -/
def applyAdmitPassForDrain (clock : DrainClock) (beforeReap beforeStart : OtherProcesses)
    (pass : RequestBackedAdmitPass) (queue : JobTable) : AppliedAdmitPass × JobTable :=
  let cancellations := admitPassCancellations pass
  let cancelled := (cancelPendingJobsForDrain clock.cancelAt cancellations queue.rows).answer
  let queue := beforeReap.change (queue.cancelPending clock.cancelAt cancellations)
  let staleRunningIds := pass.samePrShipAdmission.staleReaped
  let staleRunningCancelled := (cancelStaleRunningJobs clock.reapAt staleRunningIds clock.staleAt
    defaultRunningJobStaleAfter staleRunningCancelReason queue.rows).answer
  let queue := queue.cancelStaleRunning clock.reapAt staleRunningIds clock.staleAt
  let revived := decide (staleRunningCancelled.length < staleRunningIds.length)
  let requestErrors := !pass.runningRequestErrors.isEmpty
  if requestErrors || revived then
    (⟨[], cancelled, requestErrors, revived, staleRunningCancelled⟩, queue)
  else
    let queue := beforeStart.change queue
    let started := (startPendingJobsForDrain clock.startAt pass.plan.admitted queue.rows).answer
    (⟨started, cancelled, requestErrors, revived, staleRunningCancelled⟩,
      queue.startPending clock.startAt pass.plan.admitted)

/-! ## Jobs apart from each other -/

/-- The exclusive claims that a job's request names. -/
def claimsOf (store : QueueRequestStore) (jobId : String) : List String :=
  match loadResourcePlan jobId store with
  | .ok (some plan) => plan.exclusiveClaims
  | _ => []

/-- The pull request of a ship job. -/
def shipKeyOf (store : QueueRequestStore) (jobId : String) : Option ShipKey :=
  (loadShipKey jobId store).map Prod.fst

/-- Two jobs that share neither an exclusive claim nor a pull request. -/
structure Apart (store : QueueRequestStore) (jobId otherId : String) : Prop where
  claims : (claimsOf store jobId).Disjoint (claimsOf store otherId)
  pullRequest : ∀ key, shipKeyOf store jobId = some key → shipKeyOf store otherId ≠ some key

section Plan

variable {planned : JobTable} {store : QueueRequestStore} {pools : List HostPoolConfig}
  {leases : List HostPoolLease} {vmSlots : List VmSlotCapacity} {now : Time}

theorem pendingAdmissionRequest_jobId (job : Job) :
    (pendingAdmissionRequest store job).jobId = job.id := by
  unfold pendingAdmissionRequest
  split <;> rfl

theorem claimsOf_pending {job : Job} {plan : JobResourcePlan}
    (hplan : (pendingAdmissionRequest store job).resourcePlan = some plan) :
    claimsOf store job.id = plan.exclusiveClaims := by
  unfold pendingAdmissionRequest at hplan
  split at hplan
  next resourcePlan hload =>
    obtain rfl := Option.some.inj hplan
    simp only [claimsOf, hload]
  all_goals cases hplan

theorem shipKeyOf_eq_some {jobId : String} {key : ShipKey}
    (hkey : shipKeyOf store jobId = some key) :
    ∃ owned, loadShipKey jobId store = some (key, owned) := by
  obtain ⟨⟨key', owned⟩, hload, rfl⟩ := Option.map_eq_some_iff.mp hkey
  exact ⟨owned, hload⟩

theorem mem_consideredPending {jobs : List Job} {admission : SamePrShipAdmission} {job : Job}
    (hjob : job ∈ consideredPending jobs admission now) :
    job ∈ jobs ∧ job.status = .pending ∧ job.id ∉ admission.excluded := by
  rw [consideredPending, mem_filter, mem_filter, sortedPendingJobs,
    mem_insertionSort, mem_filter] at hjob
  obtain ⟨⟨⟨hmem, hpending⟩, hstays⟩, -⟩ := hjob
  exact ⟨hmem, by simpa using hpending, by simpa using hstays⟩

/-- The admitted jobs of a pass: pending rows that the same-PR rules leave in and
whose claims are apart from those of the counted running jobs and of each other. -/
theorem admitted_spec (planned : JobTable) (store : QueueRequestStore)
    (pools : List HostPoolConfig) (leases : List HostPoolLease) (vmSlots : List VmSlotCapacity)
    (now : Time) :
    ∃ admitted : List Job,
      (planAdmitPassFromJobsWithVmSlots planned.rows store pools leases vmSlots now).plan.admitted =
        admitted.map Job.id ∧
      (∀ job ∈ admitted, job ∈ planned.rows ∧ job.status = .pending ∧
        job.id ∉ (samePrShipAdmission planned.rows store now
          defaultRunningJobStaleAfter).excluded) ∧
      (∀ job ∈ admitted, ∀ running ∈ accountedRunning planned.rows
        (samePrShipAdmission planned.rows store now defaultRunningJobStaleAfter),
          ∀ plan, runningPlan store running = .inl plan →
            (claimsOf store job.id).Disjoint plan.exclusiveClaims) ∧
      admitted.Pairwise fun earlier later =>
        (claimsOf store later.id).Disjoint (claimsOf store earlier.id) := by
  obtain ⟨requests, hsub, hids, hapart, hpairs⟩ := admitLoop_spec pools leases vmSlots now
    ((consideredPending planned.rows (samePrShipAdmission planned.rows store now
      defaultRunningJobStaleAfter) now).map (pendingAdmissionRequest store))
    ⟨{}, ((accountedRunning planned.rows (samePrShipAdmission planned.rows store now
      defaultRunningJobStaleAfter)).map (runningPlan store)).filterMap Sum.getLeft?⟩
  obtain ⟨admitted, hconsidered, rfl⟩ := sublist_map_iff.mp hsub
  have hplan : ∀ job ∈ admitted, ∃ plan,
      (pendingAdmissionRequest store job).resourcePlan = some plan := by
    intro job hjob
    obtain ⟨plan, hplan, -⟩ := hapart _ (mem_map_of_mem hjob)
    exact ⟨plan, hplan⟩
  refine ⟨admitted, ?_, fun job hjob => mem_consideredPending (hconsidered.subset hjob), ?_, ?_⟩
  · have hmap : (admitted.map (pendingAdmissionRequest store)).map (·.jobId) =
        admitted.map Job.id := by
      rw [map_map]
      exact map_congr_left fun job _ => pendingAdmissionRequest_jobId job
    rw [hmap] at hids
    exact hids
  · intro job hjob running hrunning plan hloaded
    obtain ⟨own, hown, hdisjoint⟩ := hapart _ (mem_map_of_mem hjob)
    rw [claimsOf_pending hown]
    apply hdisjoint
    rw [mem_filterMap]
    exact ⟨.inl plan, hloaded ▸ mem_map_of_mem hrunning, rfl⟩
  · rw [pairwise_map] at hpairs
    refine hpairs.imp_of_mem ?_
    intro earlier later hearlier hlater hdisjoint
    obtain ⟨first, hfirst⟩ := hplan earlier hearlier
    obtain ⟨second, hsecond⟩ := hplan later hlater
    rw [claimsOf_pending hfirst, claimsOf_pending hsecond]
    exact hdisjoint first second hfirst hsecond

/-- Two admitted jobs are apart. -/
theorem admitted_apart {jobId otherId : String}
    (hjob : jobId ∈ (planAdmitPassFromJobsWithVmSlots planned.rows store pools leases vmSlots
      now).plan.admitted)
    (hother : otherId ∈ (planAdmitPassFromJobsWithVmSlots planned.rows store pools leases vmSlots
      now).plan.admitted) (hne : otherId ≠ jobId) : Apart store jobId otherId := by
  obtain ⟨admitted, hids, hstays, -, hpairs⟩ :=
    admitted_spec planned store pools leases vmSlots now
  rw [hids, mem_map] at hjob hother
  obtain ⟨job, hjob, rfl⟩ := hjob
  obtain ⟨other, hother, rfl⟩ := hother
  constructor
  case claims =>
    have hsymm : Std.Symm fun earlier later : Job =>
        (claimsOf store later.id).Disjoint (claimsOf store earlier.id) :=
      ⟨fun _ _ hdisjoint => hdisjoint.symm⟩
    exact hpairs.forall hother hjob fun heq => hne (heq ▸ rfl)
  case pullRequest =>
    intro key hkey hkey'
    obtain ⟨owned, hload⟩ := shipKeyOf_eq_some hkey
    obtain ⟨owned', hload'⟩ := shipKeyOf_eq_some hkey'
    obtain ⟨hmem, hpending, hin⟩ := hstays job hjob
    obtain ⟨hmem', hpending', hin'⟩ := hstays other hother
    apply hne
    rw [pending_ship_unique hmem hmem' hpending hpending' hload hload' hin hin']

/-- An admitted job is apart from every running job that is not to be reaped,
when the requests of all of them are known. -/
theorem admitted_apart_running {jobId otherId : String}
    (herrors : (planAdmitPassFromJobsWithVmSlots planned.rows store pools leases vmSlots
      now).runningRequestErrors = [])
    (hjob : jobId ∈ (planAdmitPassFromJobsWithVmSlots planned.rows store pools leases vmSlots
      now).plan.admitted) (hother : RunningIn planned.rows otherId)
    (hlive : otherId ∉ (samePrShipAdmission planned.rows store now
      defaultRunningJobStaleAfter).staleReaped) : Apart store jobId otherId := by
  obtain ⟨admitted, hids, hstays, hclaims, -⟩ :=
    admitted_spec planned store pools leases vmSlots now
  rw [hids, mem_map] at hjob
  obtain ⟨job, hjob, rfl⟩ := hjob
  obtain ⟨other, hmem, rfl, hrunning⟩ := hother
  have haccounted : other ∈ accountedRunning planned.rows
      (samePrShipAdmission planned.rows store now defaultRunningJobStaleAfter) := by
    rw [accountedRunning, mem_filter]
    exact ⟨hmem, by simp [hrunning, hlive]⟩
  constructor
  case claims =>
    cases hplan : runningPlan store other with
    | inr error =>
      -- an unknown plan is reported as an error
      have hnone := filterMap_eq_nil_iff.mp herrors _ (mem_map_of_mem haccounted)
      rw [hplan] at hnone
      cases hnone
    | inl plan =>
      have hdisjoint := hclaims job hjob other haccounted plan hplan
      have hknown : claimsOf store other.id = plan.exclusiveClaims := by
        unfold runningPlan at hplan
        split at hplan
        next loaded hload =>
          obtain rfl := Sum.inl.inj hplan
          simp only [claimsOf, hload]
        all_goals cases hplan
      rw [hknown]
      exact hdisjoint
  case pullRequest =>
    intro key hkey hkey'
    obtain ⟨owned, hload⟩ := shipKeyOf_eq_some hkey
    obtain ⟨owned', hload'⟩ := shipKeyOf_eq_some hkey'
    obtain ⟨hmem', hpending, hin⟩ := hstays job hjob
    exact hlive (running_ship_reaped hmem' hmem hpending hrunning hload hload' hin)

end Plan

/-! ## Reaping and starting -/

section Sections

variable {table : JobTable}

/-- What reaping returns: cancelled rows of the named ids, one for each. -/
theorem reaped_spec (clock : Time) (jobIds : List String) (now staleAfter : Time)
    (reason : String) (jobs : List Job) :
    ((cancelStaleRunningJobs clock jobIds now staleAfter reason jobs).answer.map Job.id).Sublist
      jobIds ∧
    ∀ reaped ∈ (cancelStaleRunningJobs clock jobIds now staleAfter reason jobs).answer,
      reaped.status = .cancelled ∧
        reaped ∈ (cancelStaleRunningJobs clock jobIds now staleAfter reason jobs).rows := by
  have hcancelled : ∀ (request : String) (row row' : Job),
      (row.id = request && row.isStaleRunning now staleAfter) = true →
        row.cancelWithReason clock (some reason) = .ok row' →
          row'.id = request ∧ row'.status = .cancelled := by
    intro request row row' hselect hcancel
    simp only [Bool.and_eq_true, decide_eq_true_eq] at hselect
    obtain ⟨-, rfl⟩ := Job.cancelWithReasonAndProof_eq_ok.mp hcancel
    exact ⟨hselect.1, rfl⟩
  have hswept := swept_sweep id
    (fun jobId job => job.id = jobId && job.isStaleRunning now staleAfter)
    (fun _ job => job.cancelWithReason clock (some reason)) [] jobIds jobs
  constructor
  · have hsub : ((cancelStaleRunningJobs clock jobIds now staleAfter reason jobs).answer.map
        Job.id).Sublist (jobIds.map id) :=
      hswept.returned_sublist fun request row row' hselect hcancel =>
        (hcancelled request row row' hselect hcancel).1
    rwa [map_id] at hsub
  · intro reaped hreaped
    constructor
    · obtain ⟨queued, -, middle, -, request, -, hselect, hcancel⟩ :=
        hswept.origin (R := fun _ _ => True) (fun _ => trivial) (fun _ _ _ _ _ => trivial)
          (fun _ _ _ _ _ _ => trivial) hreaped
      exact (hcancelled request middle reaped hselect hcancel).2
    · refine hswept.returned_mem ?_ hreaped
      intro request row row' hselect hcancel other
      have hstatus := (hcancelled request row row' hselect hcancel).2
      simp [Job.isStaleRunning, hstatus]

variable {jobIds : List String} {now : Time} {jobId : String}

/-- When as many jobs were reaped as were named, none of them runs any more. -/
theorem not_running_of_reaped {clock : Time}
    (hall : jobIds.length ≤ (cancelStaleRunningJobs clock jobIds now defaultRunningJobStaleAfter
      staleRunningCancelReason table.rows).answer.length) (hmem : jobId ∈ jobIds) :
    ¬RunningIn (table.cancelStaleRunning clock jobIds now).rows jobId := by
  obtain ⟨hsub, hrows⟩ := reaped_spec clock jobIds now defaultRunningJobStaleAfter
    staleRunningCancelReason table.rows
  have hids := hsub.eq_of_length_le (by simpa using hall)
  rw [← hids] at hmem
  obtain ⟨reaped, hreaped, hid⟩ := mem_map.mp hmem
  rintro ⟨row, hrow, hsame, hrunning⟩
  have hop : Performed _ table.rows _ := cancelStaleRunning_performed clock jobIds now
    defaultRunningJobStaleAfter staleRunningCancelReason
  have hequal : row = reaped := inj_on_of_nodup_map (hop.rows_ids_nodup rfl table.distinct)
    (hop.stored_subset row hrow) (hrows reaped hreaped).2 (hsame.trans hid.symm)
  rw [hequal, (hrows reaped hreaped).1] at hrunning
  cases hrunning

theorem running_before_start (hrunning : RunningIn (table.startPending now jobIds).rows jobId) :
    RunningIn table.rows jobId ∨ jobId ∈ jobIds := by
  have hop : Performed _ table.rows _ := startPending_performed now jobIds
  obtain ⟨row, hrow, rfl, hstatus⟩ := hrunning
  rcases hop.exists_origin (hop.stored_subset row hrow) with ⟨job, hjob, hstep⟩ | hsubmitted
  · have hid := hstep.id_eq
    rcases hstep.leaves rfl with rfl | ⟨hpending, -⟩
    · exact .inl ⟨row, hjob, rfl, hstatus⟩
    · right
      cases hstep with
      | keep =>
        rw [hpending] at hstatus
        cases hstatus
      | backfilled _ hop => cases hop
      | recovered _ hselected => cases hselected
      | started hmem => exact hid ▸ hmem
  · cases hsubmitted

theorem started_ids {job : Job}
    (hjob : job ∈ (startPendingJobsForDrain now jobIds table.rows).answer) : job.id ∈ jobIds := by
  obtain ⟨queued, -, -, hmem, hstart⟩ := startPending_returned hjob
  obtain ⟨-, rfl⟩ := Job.start_eq_ok.mp hstart
  exact hmem

theorem started_ids_ne (now : Time) (jobIds : List String) :
    (startPendingJobsForDrain now jobIds table.rows).answer.Pairwise
      fun job other => job.id ≠ other.id := by
  rw [← pairwise_map]
  refine (swept_sweep id _ _ [] jobIds table.rows).returned_nodup ?_
  intro jobId job next hselect hstart
  simp only [Bool.and_eq_true, decide_eq_true_eq] at hselect
  obtain ⟨-, rfl⟩ := Job.start_eq_ok.mp hstart
  exact hselect.1

end Sections

/-! ## The whole pass -/

/-- The started jobs are apart from each other and from every other job that
runs after the pass. -/
structure ExclusiveStarts (store : QueueRequestStore) (started after : List Job) : Prop where
  amongStarted : started.Pairwise fun job other => Apart store job.id other.id
  besideRunning : ∀ job ∈ started, ∀ other ∈ after, other.status = .running →
    other.id ≠ job.id → Apart store job.id other.id

/-- No job that a drain pass starts shares an exclusive claim or a pull request
with another one that it starts or that runs after it, whatever other processes
do to the queue between planning and the locked sections of the pass except
starting jobs. -/
theorem drain_pass_starts_are_exclusive (planned : JobTable) (store : QueueRequestStore)
    (pools : List HostPoolConfig) (leases : List HostPoolLease) (vmSlots : List VmSlotCapacity)
    (now : Time) (clock : DrainClock) (beforeApply beforeReap beforeStart : OtherProcesses) :
    let pass := planAdmitPassFromJobsWithVmSlots planned.rows store pools leases vmSlots now
    let applied := applyAdmitPassForDrain clock beforeReap beforeStart pass
      (beforeApply.change planned)
    ExclusiveStarts store applied.1.started applied.2.rows := by
  intro pass applied
  simp only [applied, applyAdmitPassForDrain]
  split
  · exact ⟨.nil, by simp⟩
  next hstarts =>
    simp only [Bool.or_eq_true, Bool.not_eq_true', isEmpty_eq_false_iff, ne_eq,
      decide_eq_true_eq, not_or, not_not, not_lt] at hstarts
    obtain ⟨herrors, hreaped⟩ := hstarts
    -- a job that runs after the pass was admitted, or ran when the pass was planned
    have hapart : ∀ jobId ∈ pass.plan.admitted, ∀ otherId ≠ jobId,
        RunningIn (JobTable.startPending clock.startAt pass.plan.admitted (beforeStart.change
          (JobTable.cancelStaleRunning clock.reapAt pass.samePrShipAdmission.staleReaped
            clock.staleAt (beforeReap.change (JobTable.cancelPending clock.cancelAt
              (admitPassCancellations pass) (beforeApply.change planned)))))).rows otherId →
          Apart store jobId otherId := by
      intro jobId hjob otherId hne hrunning
      rcases running_before_start hrunning with hbefore | hadmitted
      · have hreap := beforeStart.noStart _ otherId hbefore
        have hlive : otherId ∉ pass.samePrShipAdmission.staleReaped :=
          fun hmem => not_running_of_reaped hreaped hmem hreap
        have hcancel := noStart_of_performed (cancelStaleRunning_performed _ _ _ _ _) rfl _ hreap
        have happly := beforeReap.noStart _ otherId hcancel
        have hplanned := noStart_of_performed (cancelPending_performed _ _) rfl _ happly
        exact admitted_apart_running herrors hjob (beforeApply.noStart _ otherId hplanned) hlive
      · exact admitted_apart hjob hadmitted hne
    constructor
    case amongStarted =>
      refine (started_ids_ne clock.startAt pass.plan.admitted).imp_of_mem ?_
      intro job other hjob hother hne
      exact admitted_apart (started_ids hjob) (started_ids hother) (Ne.symm hne)
    case besideRunning =>
      intro job hjob other hother hrunning hne
      exact hapart job.id (started_ids hjob) other.id hne ⟨other, hother, rfl, hrunning⟩

end Shipyard.Scheduler
