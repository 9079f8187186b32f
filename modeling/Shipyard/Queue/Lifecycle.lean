import Shipyard.Lib.Machine
import Shipyard.Queue.Perform

/-!
# The life of a stored job

Consequences of the row steps for whole runs: identifiers stay unique, a
terminal status never changes, and a row leaves the queue only when trimming
drops it while it is terminal.
-/

namespace Shipyard.Queue

open Lib List

variable {op : QueueOp} {job next : Job} {jobs : List Job} {saved : Saved (List Job)}

/-! ## Facts about one row step -/

/-- What a submission compares: workload scope, branch, targets and mode. -/
structure Workload where
  scope : Option String
  branch : String
  targetNames : List String
  mode : ValidationMode
deriving DecidableEq, Repr

def workload (job : Job) : Workload :=
  ⟨job.workloadScope, job.branch, job.targetNames, job.mode⟩

/-- The operations that return a running job with this id to pending. -/
def requeues (id : String) : QueueOp → Bool
  | .requeueDeferredRunningJobsForDrain requests => id ∈ requests.map QueueDeferredRequeue.jobId
  | .requeueRunningAfterReboot jobId _ => jobId = id
  | .finalizeDeferredDaemonWorker jobId => jobId = id
  | _ => false

/-- How the status of a row changes, where the row is not replaced or cancelled. -/
inductive StatusChange (op : QueueOp) (job next : Job) : Prop where
  | same (hsame : next.status = job.status)
  | started {now : Time} {jobIds : List String} (hop : op = .startPendingJobsForDrain now jobIds)
      (hpending : job.status = .pending) (hrunning : next.status = .running)
  | completed (hrunning : job.status = .running) (hcompleted : next.status = .completed)
  | requeued (hrequeues : requeues job.id op = true) (hrunning : job.status = .running)
      (hpending : next.status = .pending)

/-- The shapes of a row step. -/
inductive RowChange (op : QueueOp) (job next : Job) : Prop where
  | updated (hop : op = .update next) (haccepts : AcceptsUpdate next job)
  | cancelled (hlive : isTerminalJob job.status = false) (hcancelled : next.status = .cancelled)
  | backfilled (hop : (submitted op).isSome) (hscope : next.workloadScope.isSome)
      (hsame : next.status = job.status)
  | moved (hworkload : workload next = workload job) (hstatus : StatusChange op job next)

theorem rowChange_of_cancel {now : Time} {reason : Option String} {proof : Option CancellationProof}
    (hcancel : job.cancelWithReasonAndProof now reason proof = .ok next) :
    job.id = next.id ∧ RowChange op job next := by
  obtain ⟨hlive, rfl⟩ := Job.cancelWithReasonAndProof_eq_ok.mp hcancel
  exact ⟨rfl, .cancelled hlive rfl⟩

theorem RowStep.change (hstep : RowStep op job next) :
    job.id = next.id ∧ RowChange op job next := by
  cases hstep with
  | keep | reclassified => exact ⟨rfl, .moved rfl (.same rfl)⟩
  | backfilled _ hop => exact ⟨rfl, .backfilled hop rfl rfl⟩
  | superseded _ _ hcancel =>
    obtain ⟨hlive, rfl⟩ := Job.cancelWithReasonAndProof_eq_ok.mp hcancel
    exact ⟨rfl, .cancelled hlive rfl⟩
  | orphaned _ _ hcancel | cancelledPending _ _ _ _ hcancel | reaped _ _ hcancel
  | auditedCancel _ _ hcancel => exact rowChange_of_cancel hcancel
  | updated hid haccepts => exact ⟨hid, .updated rfl haccepts⟩
  | cancelRequested _ hrequest =>
    rcases Job.requestCancel_eq_ok hrequest with ⟨-, hcancel⟩ | ⟨-, -, _, rfl⟩
    · exact rowChange_of_cancel hcancel
    · exact ⟨rfl, .moved rfl (.same rfl)⟩
  | recovered _ _ hrunning | uncertain _ hrunning =>
    exact ⟨rfl, .moved rfl (.completed hrunning rfl)⟩
  | started _ hstart =>
    obtain ⟨hpending, rfl⟩ := Job.start_eq_ok.mp hstart
    exact ⟨rfl, .moved rfl (.started rfl hpending rfl)⟩
  | deferred requeue hmem hid _ hdefer =>
    obtain ⟨hrunning, rfl⟩ := Job.deferForScheduler_eq_ok.mp hdefer
    have hnamed := mem_map.mpr ⟨requeue, hmem, hid.symm⟩
    exact ⟨rfl, .moved rfl (.requeued (decide_eq_true hnamed) hrunning rfl)⟩
  | daemonDeferred =>
    unfold deferDaemonWorker
    split <;> exact ⟨rfl, .moved rfl (.same rfl)⟩
  | rebooted hid hrunning | deferFinalized hid hrunning =>
    exact ⟨rfl, .moved rfl (.requeued (decide_eq_true hid.symm) hrunning rfl)⟩

theorem RowStep.id_eq (hstep : RowStep op job next) : job.id = next.id := hstep.change.1

theorem StatusChange.live_or_same (hstatus : StatusChange op job next) :
    isTerminalJob job.status = false ∨ next.status = job.status := by
  cases hstatus with
  | same hsame => exact .inr hsame
  | started _ hbefore | completed hbefore | requeued _ hbefore => exact .inl (by rw [hbefore]; rfl)

/-- A terminal status is final. -/
theorem RowStep.status_of_terminal (hstep : RowStep op job next)
    (hterminal : isTerminalJob job.status = true) : next.status = job.status := by
  cases hstep.change.2 with
  | updated _ haccepts => exact (haccepts.sameTerminal hterminal).symm
  | cancelled hlive => exact absurd hterminal (by simp [hlive])
  | backfilled _ _ hsame => exact hsame
  | moved _ hstatus => exact hstatus.live_or_same.resolve_left (by simp [hterminal])

/-- A job that is pending after a row step was pending before it, unless a
requeue operation named it or an update wrote the pending value. -/
theorem RowStep.pending_before (hstep : RowStep op job next) (hpending : next.status = .pending)
    (hrequeue : requeues job.id op = false)
    (hupdate : ∀ value, op = .update value → value.status ≠ .pending) :
    job.status = .pending := by
  cases hstep.change.2 with
  | updated hop => exact absurd hpending (hupdate next hop)
  | cancelled _ hcancelled => cases hcancelled.symm.trans hpending
  | backfilled _ _ hsame => exact hsame.symm.trans hpending
  | moved _ hstatus =>
    cases hstatus with
    | same hsame => exact hsame.symm.trans hpending
    | started _ hbefore => exact hbefore
    | completed _ hcompleted => cases hcompleted.symm.trans hpending
    | requeued hrequeues => cases hrequeue.symm.trans hrequeues

/-! ## Trimming -/

def terminalJobs (jobs : List Job) : List Job := jobs.filter fun job => isTerminalJob job.status

def liveJobs (jobs : List Job) : List Job := jobs.filter fun job => !isTerminalJob job.status

/-- The terminal jobs that trimming keeps behind the live ones. -/
def keptJobs (jobs : List Job) : List Job :=
  (sortRecentCompleted (terminalJobs jobs)).take keepCompleted

theorem mem_keptJobs (hjob : job ∈ keptJobs jobs) : job ∈ terminalJobs jobs :=
  (perm_insertionSort _ _).subset (mem_of_mem_take hjob)

theorem liveJobs_trimTerminal (jobs : List Job) :
    liveJobs (trimTerminal jobs).1 = liveJobs jobs := by
  have hnone : liveJobs (keptJobs jobs) = [] :=
    filter_eq_nil_iff.mpr fun job hjob => by simpa using (mem_filter.mp (mem_keptJobs hjob)).2
  calc liveJobs (trimTerminal jobs).1
      = liveJobs (liveJobs jobs) ++ liveJobs (keptJobs jobs) := filter_append _ _
    _ = liveJobs jobs := by rw [hnone, append_nil]; simp [liveJobs]

theorem terminalJobs_trimTerminal (jobs : List Job) :
    terminalJobs (trimTerminal jobs).1 = keptJobs jobs := by
  have hall : terminalJobs (keptJobs jobs) = keptJobs jobs :=
    filter_eq_self.mpr fun job hjob => (mem_filter.mp (mem_keptJobs hjob)).2
  calc terminalJobs (trimTerminal jobs).1
      = terminalJobs (liveJobs jobs) ++ terminalJobs (keptJobs jobs) := filter_append _ _
    _ = keptJobs jobs := by rw [hall]; simp [terminalJobs, liveJobs]

theorem trimTerminal_subperm (jobs : List Job) : (trimTerminal jobs).1.Subperm jobs := by
  have hkept : (keptJobs jobs).Subperm (terminalJobs jobs) :=
    (take_sublist _ _).subperm.trans (perm_insertionSort _ _).subperm
  have hsplit : (liveJobs jobs ++ terminalJobs jobs).Perm jobs :=
    perm_append_comm.trans (filter_append_perm _ jobs)
  exact ((subperm_append_left _).mpr hkept).trans hsplit.subperm

/-- Jobs in the recent-completed order: the newest first, those of one time as they stood. -/
structure RecentOrder (jobs sorted : List Job) : Prop where
  perm : sorted.Perm jobs
  newest : sorted.Pairwise fun left right => completedSortTime right ≤ completedSortTime left
  stable : ∀ time, sorted.filter (fun job => completedSortTime job = time) =
    jobs.filter fun job => completedSortTime job = time

theorem sortRecentCompleted_spec (jobs : List Job) :
    RecentOrder jobs (sortRecentCompleted jobs) where
  perm := perm_insertionSort _ jobs
  newest :=
    have : Std.Total fun left right : Job => completedSortTime right ≤ completedSortTime left :=
      ⟨fun _ _ => le_total _ _⟩
    have : IsTrans Job fun left right => completedSortTime right ≤ completedSortTime left :=
      ⟨fun _ _ _ hleft hright => hright.trans hleft⟩
    pairwise_insertionSort _ jobs
  stable time := by
    have hsame : (jobs.filter fun job => completedSortTime job = time).Pairwise
        fun left right => completedSortTime right ≤ completedSortTime left := by
      refine pairwise_of_forall_mem_list fun left hleft right hright => ?_
      rw [of_decide_eq_true (mem_filter.mp hleft).2, of_decide_eq_true (mem_filter.mp hright).2]
    have hsublist := (sublist_insertionSort hsame filter_sublist).filter
      fun job => completedSortTime job = time
    rw [filter_filter] at hsublist
    simp only [Bool.and_self] at hsublist
    exact (hsublist.eq_of_length ((perm_insertionSort _ jobs).filter _).length_eq.symm).symm

theorem mem_trimmed {id : String} : id ∈ (trimTerminal jobs).2 ↔
    id ∈ (terminalJobs jobs).map Job.id ∧ id ∉ (keptJobs jobs).map Job.id := by
  rw [trimTerminal, mem_insertionSort, mem_dedup, mem_filter, decide_eq_true_eq]
  rfl

/-- Trimming keeps the live jobs in their order and, of the terminal ones, the first 25 in
the recent-completed order. It returns the ids of the others, each once, and trims nothing
when it is repeated. -/
theorem trim_keeps_live_and_newest (hids : (jobs.map Job.id).Nodup) :
    liveJobs (trimTerminal jobs).1 = liveJobs jobs ∧
    (∃ sorted, RecentOrder (terminalJobs jobs) sorted ∧
      terminalJobs (trimTerminal jobs).1 = sorted.take (min 25 (terminalJobs jobs).length)) ∧
    (trimTerminal jobs).2.Nodup ∧
    (∀ id, id ∈ (trimTerminal jobs).2 ↔
      ∃ job ∈ jobs, job.id = id ∧ job ∉ (trimTerminal jobs).1) ∧
    trimTerminal (trimTerminal jobs).1 = ((trimTerminal jobs).1, []) := by
  have horder := sortRecentCompleted_spec (terminalJobs jobs)
  refine ⟨liveJobs_trimTerminal jobs, ⟨_, horder, ?_⟩, ?_, fun id => ?_, ?_⟩
  · rw [terminalJobs_trimTerminal, ← horder.perm.length_eq, ← take_eq_take_min]
    rfl
  · exact (perm_insertionSort _ _).nodup_iff.mpr (nodup_dedup _)
  · rw [mem_trimmed, mem_map]
    constructor
    · rintro ⟨⟨job, hjob, rfl⟩, hgone⟩
      obtain ⟨hmem, hterminal⟩ := mem_filter.mp hjob
      refine ⟨job, hmem, rfl, fun hstays => hgone (mem_map_of_mem ?_)⟩
      rw [← terminalJobs_trimTerminal]
      exact mem_filter.mpr ⟨hstays, hterminal⟩
    · rintro ⟨job, hmem, rfl, hgone⟩
      obtain ⟨hlive, hkept⟩ := not_or.mp (mt mem_append.mpr hgone)
      refine ⟨⟨job, mem_filter.mpr ⟨hmem, ?_⟩, rfl⟩, fun hid => ?_⟩
      · by_contra hlives
        exact hlive (mem_filter.mpr ⟨hmem, by simpa using hlives⟩)
      · obtain ⟨other, hother, hid⟩ := mem_map.mp hid
        have hsame := inj_on_of_nodup_map hids (mem_filter.mp (mem_keptJobs hother)).1 hmem hid
        exact hkept (hsame ▸ hother)
  · -- the kept jobs are in order, and no more than are kept
    have hsorted : sortRecentCompleted (keptJobs jobs) = keptJobs jobs :=
      (horder.newest.sublist (take_sublist _ _)).insertionSort_eq
    have hkept : keptJobs (trimTerminal jobs).1 = keptJobs jobs := by
      rw [keptJobs, terminalJobs_trimTerminal, hsorted, keptJobs, take_take, min_self]
    refine Prod.ext ?_ (eq_nil_iff_forall_not_mem.mpr fun id hid => ?_)
    · exact congrArg₂ _ (liveJobs_trimTerminal jobs) hkept
    · rw [mem_trimmed, terminalJobs_trimTerminal, hkept] at hid
      exact hid.2 hid.1

/-- Twenty-six cancelled jobs, the later ones newer. -/
def crowdedQueue : List Job :=
  (range 26).map fun n =>
    { Job.create (toString n) "abc" "main" ["mac"] .full .normal n with status := .cancelled }

theorem trim_drops_oldest_of_crowdedQueue : (terminalJobs crowdedQueue).length = 26 ∧
    ∃ job ∈ crowdedQueue, job.id = "0" ∧ job ∉ (trimTerminal crowdedQueue).1 :=
  ⟨by decide +kernel,
    ((trim_keeps_live_and_newest (by decide +kernel)).2.2.2.1 "0").mp (by decide +kernel)⟩

theorem trimTerminal_ids_nodup (hnodup : (jobs.map Job.id).Nodup) :
    ((trimTerminal jobs).1.map Job.id).Nodup := by
  obtain ⟨kept, hperm, hsublist⟩ := trimTerminal_subperm jobs
  exact (hperm.map Job.id).nodup_iff.mp ((hsublist.map Job.id).nodup hnodup)

theorem Performed.stored_subset (hop : Performed op jobs saved) :
    ∀ row ∈ saved.stored, row ∈ saved.rows := by
  intro row hrow
  rcases hop.stored with hsame | htrimmed
  · exact hsame ▸ hrow
  · exact (trimTerminal_subperm _).subset (htrimmed ▸ hrow)

variable {row : Job}

/-- What is not stored any more was dropped by trimming, while terminal. -/
theorem Performed.dropped (hop : Performed op jobs saved) (hrow : row ∈ saved.rows)
    (hgone : row ∉ saved.stored) :
    saved.stored = (trimTerminal saved.rows).1 ∧ isTerminalJob row.status = true := by
  rcases hop.stored with hsame | htrimmed
  · exact absurd (hsame ▸ hrow) hgone
  · refine ⟨htrimmed, ?_⟩
    by_contra hlive
    exact hgone (htrimmed ▸ mem_append_left _ (mem_filter.mpr ⟨hrow, by simpa using hlive⟩))

/-! ## Unique identifiers -/

/-- Every stored row has a successor among the rows of the operation. -/
theorem Performed.exists_successor (hop : Performed op jobs saved) (hjob : job ∈ jobs) :
    ∃ row ∈ saved.rows, RowStep op job row := by
  obtain ⟨kept, hsteps, hrows⟩ := hop.rewritten
  obtain ⟨row, hrow, hstep⟩ := forall₂_exists_right hsteps hjob
  refine ⟨row, ?_, hstep⟩
  rcases hrows with hrows | ⟨_, -, hrows, -⟩
  · exact hrows ▸ hrow
  · exact hrows ▸ mem_append_left _ hrow

/-- Every row of the operation comes from a stored row or was submitted. -/
theorem Performed.exists_origin (hop : Performed op jobs saved) (hrow : row ∈ saved.rows) :
    (∃ job ∈ jobs, RowStep op job row) ∨ submitted op = some row := by
  obtain ⟨kept, hsteps, hrows⟩ := hop.rewritten
  rcases hrows with hrows | ⟨job, hjob, hrows, -⟩
  · exact .inl (forall₂_exists_left hsteps (hrows ▸ hrow))
  · rcases mem_append.mp (hrows ▸ hrow) with hkept | hnew
    · exact .inl (forall₂_exists_left hsteps hkept)
    · exact .inr (mem_singleton.mp hnew ▸ hjob)

/-- Submission of an id that no stored job has. -/
def enqueuesFresh (jobs : List Job) : QueueOp → Bool
  | .enqueue _ _ job => job.id ∉ jobs.map Job.id
  | _ => true

theorem Performed.rows_ids_nodup (hop : Performed op jobs saved)
    (hfresh : enqueuesFresh jobs op = true) (hnodup : (jobs.map Job.id).Nodup) :
    (saved.rows.map Job.id).Nodup := by
  obtain ⟨kept, hsteps, hrows⟩ := hop.rewritten
  have hids : jobs.map Job.id = kept.map Job.id :=
    forall₂_map_eq (fun _ _ hstep => hstep.id_eq) hsteps
  rcases hrows with hrows | ⟨job, hjob, hrows, howner⟩
  · rw [hrows, ← hids]
    exact hnodup
  · have hnew : job.id ∉ jobs.map Job.id := by
      cases op with
      | enqueue store now newer =>
        cases hjob
        simpa [enqueuesFresh] using hfresh
      | enqueueRecoveryIfUnowned => exact howner rfl
      | _ => cases hjob
    rw [hrows, map_append, ← hids]
    exact nodup_append.mpr ⟨hnodup, nodup_singleton _, by
      intro id hid other hother
      rw [mem_singleton.mp hother]
      exact fun heq => hnew (heq ▸ hid)⟩

theorem Performed.stored_ids_nodup (hop : Performed op jobs saved)
    (hrows : (saved.rows.map Job.id).Nodup) : (saved.stored.map Job.id).Nodup := by
  rcases hop.stored with hsame | htrimmed
  · rw [hsame]
    exact hrows
  · rw [htrimmed]
    exact trimTerminal_ids_nodup hrows

/-! ## Runs of the durable queue -/

/-- The queue file under durable operations. A refused operation saves nothing. -/
def durableQueue : Machine (List Job) QueueOp where
  init jobs := jobs = []
  exec jobs op :=
    match perform op jobs with
    | .ok saved => some saved.stored
    | .error _ => some jobs

/-- A step of the queue performs its operation or leaves the queue as it was. -/
theorem durableQueue_exec {jobs' : List Job} (hexec : durableQueue.exec jobs op = some jobs') :
    jobs' = jobs ∨ ∃ saved, perform op jobs = .ok saved ∧ jobs' = saved.stored := by
  simp only [durableQueue] at hexec
  split at hexec
  next saved hperform => exact .inr ⟨saved, hperform, (Option.some.inj hexec).symm⟩
  · exact .inl (Option.some.inj hexec).symm

/-- The condition on runs: submitted ids are not stored already. -/
abbrev FreshIds (jobs : List Job) (op : QueueOp) : Prop := enqueuesFresh jobs op = true

theorem ids_nodup_of_reachable (hreach : durableQueue.ReachableWhen FreshIds jobs) :
    (jobs.map Job.id).Nodup := by
  refine hreach.invariant (I := fun jobs => (jobs.map Job.id).Nodup) (fun jobs hinit => ?_) ?_
  · rw [show jobs = [] from hinit]
    exact nodup_nil
  · intro jobs op jobs' hnodup hfresh hexec
    rcases durableQueue_exec hexec with rfl | ⟨saved, hperform, rfl⟩
    · exact hnodup
    · have hop := perform_spec hperform
      exact hop.stored_ids_nodup (hop.rows_ids_nodup hfresh hnodup)

/-- With unique ids, the row of an id after an operation is the row step of the
row before. -/
theorem Performed.rowStep_of_id_eq (hop : Performed op jobs saved) (hfresh : FreshIds jobs op)
    (hnodup : (jobs.map Job.id).Nodup) (hjob : job ∈ jobs) (hrow : row ∈ saved.rows)
    (hid : row.id = job.id) : RowStep op job row := by
  obtain ⟨successor, hsuccessor, hstep⟩ := hop.exists_successor hjob
  have hrows := hop.rows_ids_nodup hfresh hnodup
  have hsame : row = successor :=
    inj_on_of_nodup_map hrows hrow hsuccessor (hid.trans hstep.id_eq)
  exact hsame ▸ hstep

/-- Runs in which a job with this id is stored all along. -/
def StoredRun (id : String) : List Job → List Job → Prop :=
  Relation.ReflTransGen fun jobs jobs' =>
    durableQueue.StepWhen FreshIds jobs jobs' ∧ id ∈ jobs'.map Job.id

/-- Along such a run the terminal status of the job stays. -/
theorem status_of_storedRun {later : List Job}
    (hreach : durableQueue.ReachableWhen FreshIds jobs) (hjob : job ∈ jobs)
    (hterminal : isTerminalJob job.status = true) (hrun : StoredRun job.id jobs later) :
    durableQueue.ReachableWhen FreshIds later ∧
      ∃ job' ∈ later, job'.id = job.id ∧ job'.status = job.status := by
  induction hrun with
  | refl => exact ⟨hreach, job, hjob, rfl, rfl⟩
  | tail _ hlast ih =>
    obtain ⟨hmiddle, current, hcurrent, hid, hstatus⟩ := ih
    obtain ⟨⟨op, hfresh, hexec⟩, hstays⟩ := hlast
    refine ⟨hmiddle.step hfresh hexec, ?_⟩
    rcases durableQueue_exec hexec with rfl | ⟨saved, hperform, rfl⟩
    · exact ⟨current, hcurrent, hid, hstatus⟩
    · have hop := perform_spec hperform
      obtain ⟨row, hrow, hrowId⟩ := mem_map.mp hstays
      have hstep := hop.rowStep_of_id_eq hfresh (ids_nodup_of_reachable hmiddle) hcurrent
        (hop.stored_subset row hrow) (hrowId.trans hid.symm)
      refine ⟨row, hrow, hrowId, ?_⟩
      rw [hstep.status_of_terminal (by rwa [hstatus]), hstatus]

/-- In every run from the empty queue: a completed or cancelled job keeps its
status as long as it is stored; a job leaves only through trimming, in a state
in which its row is terminal; and a row that is not terminal is always saved. -/
theorem terminal_is_final_and_only_trimming_drops
    (hreach : durableQueue.ReachableWhen FreshIds jobs) :
    (∀ job ∈ jobs, isTerminalJob job.status = true → ∀ later, StoredRun job.id jobs later →
      ∀ job' ∈ later, job'.id = job.id → job'.status = job.status) ∧
    ∀ op saved, FreshIds jobs op → perform op jobs = .ok saved →
      (∀ job ∈ jobs, job.id ∉ saved.stored.map Job.id →
        saved.stored = (trimTerminal saved.rows).1 ∧
          ∃ row ∈ saved.rows, row.id = job.id ∧ isTerminalJob row.status = true) ∧
      ∀ row ∈ saved.rows, isTerminalJob row.status = false → row ∈ saved.stored := by
  refine ⟨fun job hjob hterminal later hrun job' hjob' hid => ?_, ?_⟩
  · obtain ⟨hlater, stored, hstored, hstoredId, hstatus⟩ :=
      status_of_storedRun hreach hjob hterminal hrun
    have hsame : job' = stored :=
      inj_on_of_nodup_map (ids_nodup_of_reachable hlater) hjob' hstored
        (hid.trans hstoredId.symm)
    rw [hsame, hstatus]
  · intro op saved hfresh hperform
    have hop := perform_spec hperform
    refine ⟨fun job hjob hgone => ?_, fun row hrow hlive => ?_⟩
    · obtain ⟨row, hrow, hstep⟩ := hop.exists_successor hjob
      have hdropped : row ∉ saved.stored := by
        intro hstored
        exact hgone (hstep.id_eq ▸ mem_map_of_mem hstored)
      obtain ⟨htrimmed, hterminal⟩ := hop.dropped hrow hdropped
      exact ⟨htrimmed, row, hrow, hstep.id_eq.symm, hterminal⟩
    · by_contra hgone
      have hterminal := (hop.dropped hrow hgone).2
      rw [hlive] at hterminal
      cases hterminal

/-- A job that is submitted, started and recovered after its worker died. -/
def sampleRun : List QueueOp :=
  [.enqueue none 0 (.create "sy-1" "abc" "main" ["mac"] .full .normal 0),
    .startPendingJobsForDrain 1 ["sy-1"],
    .recoverStaleRunningJobsForDrain 2]

theorem terminal_is_final_in_sampleRun :
    ∃ jobs, durableQueue.execAll FreshIds [] sampleRun = some jobs ∧
      (∃ job ∈ jobs, isTerminalJob job.status = true) ∧
      ∀ op saved, FreshIds jobs op → perform op jobs = .ok saved →
        ∀ row ∈ saved.rows, isTerminalJob row.status = false → row ∈ saved.stored := by
  refine ⟨_, rfl, by decide, ?_⟩
  intro op saved hfresh hperform
  have hreach : durableQueue.ReachableWhen FreshIds _ := .of_execAll rfl
    (show durableQueue.execAll FreshIds [] sampleRun = some _ from rfl)
  exact ((terminal_is_final_and_only_trimming_drops hreach).2 op saved hfresh hperform).2

end Shipyard.Queue
