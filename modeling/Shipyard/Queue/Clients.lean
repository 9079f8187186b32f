import Shipyard.Queue.Lifecycle

/-!
# Clients of the queue and their stale snapshots

Several processes share the queue file. Each of their steps is one locked
operation, but a client that reads a job, computes a new value and writes it
back with `update` takes the lock twice. The snapshots that clients hold are
part of the state; `update` writes a value computed from one of them.

A stale write can undo a start: `queue bump` reads a pending job, the drain
owner starts it, and the bump writes the pending value back. Without such a
write, a running job returns to pending only through a requeue operation.
-/

namespace Shipyard.Queue

open Lib List

/-- The queue file, and the job values that clients have read. -/
structure ClientState where
  jobs : List Job
  snapshots : List Job
deriving DecidableEq

inductive ClientLabel where
  | get (jobId : String)
  | getPending
  | update (snapshot job : Job)
  | durable (op : QueueOp)

/-- The durable operation of a step; reading performs none. -/
def ClientLabel.op : ClientLabel → Option QueueOp
  | .get _ => none
  | .getPending => none
  | .update _ job => some (.update job)
  | .durable op => some op

/-- Perform an operation and hand its returned jobs to the clients. -/
def ClientState.perform (s : ClientState) (op : QueueOp) : ClientState :=
  match Queue.perform op s.jobs with
  | .ok saved => ⟨saved.stored, s.snapshots ++ saved.answer⟩
  | .error _ => s

/-- An update writes a value computed from an earlier snapshot of the same id;
it is not available as an unrestricted durable operation. -/
def clientStep (s : ClientState) : ClientLabel → Option ClientState
  | .get jobId => some { s with snapshots := s.snapshots ++ (get jobId s.jobs).toList }
  | .getPending => some { s with snapshots := s.snapshots ++ getPending s.jobs }
  | .update snapshot job =>
    if snapshot ∈ s.snapshots ∧ job.id = snapshot.id then some (s.perform (.update job))
    else none
  | .durable (.update _) => none
  | .durable op => some (s.perform op)

def clients : Machine ClientState ClientLabel where
  init s := s.jobs = [] ∧ s.snapshots = []
  exec := clientStep

/-- The value `queue bump` writes back, computed from what `get` returned. -/
def bumpedJob (jobId : String) (priority : Priority) (found : Option Job) : Except String Job :=
  match found with
  | none => .error ("Job " ++ jobId ++ " not found")
  | some job =>
    if job.status ≠ .pending then
      .error ("Can only bump pending jobs (current: " ++ job.status.debug ++ ")")
    else .ok (job.withPriority priority)

variable {label : ClientLabel} {saved : Saved (List Job)} {jobs : List Job} {id : String}

/-- A client step reads rows into the snapshots, is refused, or performs the
operation of its label. -/
theorem clientStep_cases {s s' : ClientState} (hstep : clientStep s label = some s') :
    (s'.jobs = s.jobs ∧ ∀ job ∈ s'.snapshots, job ∈ s.snapshots ∨ job ∈ s.jobs) ∨
      ∃ op saved, label.op = some op ∧ perform op s.jobs = .ok saved ∧
        s' = ⟨saved.stored, s.snapshots ++ saved.answer⟩ := by
  have hread : ∀ read : List Job, (∀ job ∈ read, job ∈ s.jobs) →
      ∀ job ∈ s.snapshots ++ read, job ∈ s.snapshots ∨ job ∈ s.jobs := by
    intro read hread job hjob
    exact (mem_append.mp hjob).imp_right (hread job)
  have hperform : ∀ op, label.op = some op → s' = s.perform op →
      (s'.jobs = s.jobs ∧ ∀ job ∈ s'.snapshots, job ∈ s.snapshots ∨ job ∈ s.jobs) ∨
        ∃ op saved, label.op = some op ∧ perform op s.jobs = .ok saved ∧
          s' = ⟨saved.stored, s.snapshots ++ saved.answer⟩ := by
    intro op hop hs'
    unfold ClientState.perform at hs'
    split at hs'
    next saved hsaved => exact .inr ⟨op, saved, hop, hsaved, hs'⟩
    · subst hs'
      exact .inl ⟨rfl, fun _ hjob => .inl hjob⟩
  cases label with
  | get jobId =>
    cases hstep
    refine .inl ⟨rfl, hread _ fun job hjob => ?_⟩
    exact mem_of_find?_eq_some (Option.mem_toList.mp hjob)
  | getPending =>
    cases hstep
    refine .inl ⟨rfl, hread _ fun job hjob => ?_⟩
    exact (mem_filter.mp ((perm_insertionSort _ _).mem_iff.mp hjob)).1
  | update snapshot job =>
    simp only [clientStep] at hstep
    split at hstep
    · exact hperform _ rfl (Option.some.inj hstep).symm
    · cases hstep
  | durable op =>
    cases op with
    | update job => cases hstep
    | _ => exact hperform _ rfl (Option.some.inj hstep).symm

/-! ## Returning to pending -/

/-- The operations that submit a job with this id. -/
def submits (id : String) (op : QueueOp) : Bool :=
  match submitted op with
  | some job => job.id = id
  | none => false

/-- An accepted update replaces the row that `get` finds. -/
theorem update_accepted {job : Job} (hperform : perform (.update job) jobs = .ok saved) :
    ∃ queued, get job.id jobs = some queued ∧ AcceptsUpdate job queued := by
  obtain ⟨_, hupdate, -⟩ := map_eq_ok hperform
  unfold update at hupdate
  split at hupdate
  next rows replaced hedit =>
    obtain ⟨before, queued, after, rfl, hbefore, hid, hreplace, -⟩ := modifyFirst_some hedit
    refine ⟨queued, ?_, (replaceQueued_ok hreplace).2⟩
    exact find?_eq_some_iff_append.mpr ⟨hid, before, after, rfl, by simpa using hbefore⟩
  all_goals cases hupdate

/-- An update does not write a pending value over a stored job that is running. -/
def writesStarted (jobs : List Job) : QueueOp → Bool
  | .update job =>
    match get job.id jobs with
    | some queued => !(queued.status = .running && job.status = .pending)
    | none => true
  | _ => true

/-- An operation that neither submits nor requeues a job, and does not write a
pending value over a running one, makes it pending only if it was before. -/
theorem perform_pending {op : QueueOp} (hperform : perform op jobs = .ok saved)
    (hstarted : writesStarted jobs op = true) (hsubmits : submits id op = false)
    (hrequeues : requeues id op = false)
    (hbefore : ∀ job ∈ jobs, job.id = id → job.status ≠ .pending) :
    ∀ row ∈ saved.rows, row.id = id → row.status ≠ .pending := by
  intro row hrow hid hpending
  rcases (perform_spec hperform).exists_origin hrow with ⟨job, hjob, hrowStep⟩ | hsubmitted
  · have hjobId : job.id = id := hrowStep.id_eq.trans hid
    refine hbefore job hjob hjobId (hrowStep.pending_before hpending (hjobId ▸ hrequeues) ?_)
    -- an accepted update meets a row that is not pending: a terminal one has the
    -- written status, and over a running one no pending value is written
    rintro value rfl hvalue
    have hvalueId : value.id = id := by
      cases hrowStep with
      | keep => exact absurd hpending (hbefore row hjob hid)
      | backfilled _ hop => cases hop
      | updated => exact hid
      | recovered _ hselected => cases hselected
    obtain ⟨queued, hget, haccepts⟩ := update_accepted hperform
    have hqueuedId : queued.id = id := by
      rw [← hvalueId]
      simpa using find?_some hget
    have hnotPending := hbefore queued (mem_of_find?_eq_some hget) hqueuedId
    cases hstatus : queued.status with
    | pending => exact hnotPending hstatus
    | running => simp [writesStarted, hget, hstatus, hvalue] at hstarted
    | completed | cancelled =>
      have hsame := haccepts.sameTerminal (by rw [hstatus]; rfl)
      rw [hstatus, hvalue] at hsame
      cases hsame
  · simp [submits, hsubmitted, hid] at hsubmits

/-- No update writes a pending value over a stored job that is running. -/
def KeepsStarted (s : ClientState) (label : ClientLabel) : Prop :=
  label.op.all (writesStarted s.jobs) = true

/-- A step that neither submits nor requeues a job makes it pending only if it
was pending before. -/
theorem clientStep_pending {s s' : ClientState} (hkeeps : KeepsStarted s label)
    (hstep : clientStep s label = some s')
    (hlabel : ∀ op, label.op = some op → submits id op = false ∧ requeues id op = false)
    (hbefore : ∀ job ∈ s.jobs, job.id = id → job.status ≠ .pending) :
    ∀ job ∈ s'.jobs, job.id = id → job.status ≠ .pending := by
  intro row hrow
  rcases clientStep_cases hstep with ⟨hjobs, -⟩ | ⟨op, saved, hop, hperform, rfl⟩
  · exact hbefore row (hjobs ▸ hrow)
  · obtain ⟨hsubmits, hrequeues⟩ := hlabel op hop
    have hstarted : writesStarted s.jobs op = true := by simpa [KeepsStarted, hop] using hkeeps
    exact perform_pending hperform hstarted hsubmits hrequeues hbefore row
      ((perform_spec hperform).stored_subset row hrow)

/-- A stored job with this id is running, none is pending, and afterwards one
is pending. -/
def BecomesPending (id : String) (jobs jobs' : List Job) : Prop :=
  (∃ job ∈ jobs, job.id = id ∧ job.status = .running) ∧
    (∀ job ∈ jobs, job.id = id → job.status ≠ .pending) ∧
    ∃ job ∈ jobs', job.id = id ∧ job.status = .pending

instance (id : String) (jobs jobs' : List Job) : Decidable (BecomesPending id jobs jobs') :=
  inferInstanceAs (Decidable (_ ∧ _ ∧ _))

/-- The label of a step that returns a job with this id to pending on purpose. -/
def ClientLabel.requeues (id : String) (label : ClientLabel) : Bool :=
  label.op.any (Queue.requeues id)

def ClientLabel.submits (id : String) (label : ClientLabel) : Bool :=
  label.op.any (Queue.submits id)

/-- While no update writes a pending value over a running job, a running job
becomes pending only by one of the three requeue operations: in each step, and
along every run that neither requeues nor submits it. -/
theorem running_becomes_pending_only_by_requeue (id : String) :
    (∀ s label s', KeepsStarted s label → clients.exec s label = some s' →
      BecomesPending id s.jobs s'.jobs → label.submits id = false →
        label.requeues id = true) ∧
    ∀ s s', clients.RunWhen (fun s label => KeepsStarted s label ∧
        label.submits id = false ∧ label.requeues id = false) s s' →
      (∀ job ∈ s.jobs, job.id = id → job.status ≠ .pending) →
      ∀ job ∈ s'.jobs, job.id = id → job.status ≠ .pending := by
  have hstep : ∀ s label s', KeepsStarted s label → clients.exec s label = some s' →
      label.submits id = false → label.requeues id = false →
      (∀ job ∈ s.jobs, job.id = id → job.status ≠ .pending) →
      ∀ job ∈ s'.jobs, job.id = id → job.status ≠ .pending := by
    intro s label s' hkeeps hexec hsubmits hrequeues hbefore
    refine clientStep_pending hkeeps hexec (fun op hop => ?_) hbefore
    simpa [ClientLabel.submits, ClientLabel.requeues, hop] using And.intro hsubmits hrequeues
  constructor
  · rintro s label s' hkeeps hexec ⟨-, hbefore, job, hjob, hid, hpending⟩ hsubmits
    by_contra hrequeues
    exact hstep s label s' hkeeps hexec hsubmits (by simpa using hrequeues) hbefore
      job hjob hid hpending
  · intro s s' hrun hbefore
    refine hrun.preserves
      (I := fun s => ∀ job ∈ s.jobs, job.id = id → job.status ≠ .pending) ?_ hbefore
    rintro middle label later hbefore ⟨hkeeps, hsubmits, hrequeues⟩ hexec
    exact hstep _ label _ hkeeps hexec hsubmits hrequeues hbefore

/-- A submitted job, and the same job after its start. -/
def submittedJob : Job := .create "sy-1" "abc" "main" ["mac"] .full .normal 0

def startedJob : Job := { submittedJob with status := .running, startedAt := some 1 }

/-- A pending job is read by `queue bump` before the drain owner starts it. -/
def bumpRace : List ClientLabel :=
  [.durable (.enqueue none 0 submittedJob), .get "sy-1",
    .durable (.startPendingJobsForDrain 1 ["sy-1"])]

/-- The queue after the start; a client still holds the pending snapshot. -/
def afterStart : ClientState := ⟨[startedJob], [submittedJob, submittedJob, startedJob]⟩

/-- The boot pass is one of the operations that may return the started job. -/
theorem reboot_requeues_started_job :
    ∃ s', clients.exec afterStart (.durable (.requeueRunningAfterReboot "sy-1" "reboot")) =
        some s' ∧ BecomesPending "sy-1" afterStart.jobs s'.jobs ∧
      (ClientLabel.durable (.requeueRunningAfterReboot "sy-1" "reboot")).requeues "sy-1" := by
  have hbecomes : BecomesPending "sy-1" afterStart.jobs
      (afterStart.perform (.requeueRunningAfterReboot "sy-1" "reboot")).jobs := by decide
  exact ⟨_, rfl, hbecomes,
    (running_becomes_pending_only_by_requeue "sy-1").1 afterStart _ _ rfl rfl hbecomes rfl⟩

/-- The bump that read the job while pending undoes the start in between. -/
theorem bump_undoes_start :
    clients.execAll (fun _ _ => True) ⟨[], []⟩ bumpRace = some afterStart ∧
      ∃ bumped s', bumpedJob "sy-1" .high (some submittedJob) = .ok bumped ∧
        clients.exec afterStart (.update submittedJob bumped) = some s' ∧
        BecomesPending "sy-1" afterStart.jobs s'.jobs ∧
        (ClientLabel.update submittedJob bumped).requeues "sy-1" = false := by
  have hbecomes : BecomesPending "sy-1" afterStart.jobs
      (afterStart.perform (.update (submittedJob.withPriority .high))).jobs := by decide
  exact ⟨by decide, _, _, rfl, rfl, hbecomes, rfl⟩

end Shipyard.Queue
