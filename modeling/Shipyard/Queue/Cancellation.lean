import Shipyard.Queue.Clients

/-!
# The cancellation fence

A running job that carries a cancellation request is to stay running, with the
time of the request, until it is cancelled; its proof is not to be replaced.
The fence is checked separately in `update`, in the requeue operations and in
uncertain completion. Stale-running recovery does not look at it, and `update`
compares the cancellation fields but not the status.
-/

namespace Shipyard.Queue

open Lib List

/-- One transition method applied to a snapshot. -/
inductive JobMove : Job → Job → Prop where
  | start {job next : Job} (now : Time) (hstart : job.start now = .ok next) : JobMove job next
  | complete {job next : Job} (now : Time) (hcomplete : job.complete now = .ok next) :
      JobMove job next
  | cancel {job next : Job} (now : Time) (reason : Option String)
      (hcancel : job.cancelWithReason now reason = .ok next) : JobMove job next
  | withResult {job : Job} (result : TargetResult) : JobMove job (job.withResult result)
  | withPriority {job : Job} (priority : Priority) : JobMove job (job.withPriority priority)
  | deferForScheduler {job next : Job} (reason : String) (deferUntil : Option Time)
      (hdefer : job.deferForScheduler reason deferUntil = .ok next) : JobMove job next

/-- A value obtained from a snapshot by the transition methods. -/
def Derived : Job → Job → Prop := Relation.ReflTransGen JobMove

/-- What callers respect: an update writes a value derived from its snapshot,
and a submitted job is new, with an id that is not stored. -/
def CallerOk (s : ClientState) : ClientLabel → Prop
  | .update snapshot job => Derived snapshot job
  | .durable (.enqueue _ _ job) =>
    job.cancelRequestedAt = none ∧ job.cancellationProof = none ∧
      job.id ∉ s.jobs.map Job.id
  | .durable (.enqueueRecoveryIfUnowned _ job _) =>
    job.cancelRequestedAt = none ∧ job.cancellationProof = none
  | _ => True

/-- A running job whose cancellation was requested. -/
def fenced (job : Job) : Bool := job.status = .running && job.cancelRequestedAt.isSome

/-- No recovery selects a fenced job, and no update writes a pending or
completed value over one. -/
def keepsFence (s : ClientState) : ClientLabel → Bool
  | .update _ job =>
    match get job.id s.jobs with
    | some queued =>
      !(fenced queued && (job.status = .pending || job.status = .completed))
    | none => true
  | .durable op => s.jobs.all fun job => !(selectsRecovery op job && fenced job)
  | _ => true

/-- A recorded proof comes with the time of its request. -/
def ProofRequested (job : Job) : Prop :=
  job.cancellationProof.isSome → job.cancelRequestedAt.isSome

theorem proofRequested_of_requested {job : Job} (hrequested : job.cancelRequestedAt.isSome) :
    ProofRequested job := fun _ => hrequested

variable {job next : Job}

variable {proof : Option CancellationProof} {reason : Option String}

theorem cancelled_proofRequested {now : Time}
    (hcancel : job.cancelWithReasonAndProof now reason proof = .ok next) : ProofRequested next := by
  obtain ⟨-, rfl⟩ := Job.cancelWithReasonAndProof_eq_ok.mp hcancel
  exact proofRequested_of_requested (by simp)

theorem JobMove.proofRequested (hmove : JobMove job next) (hjob : ProofRequested job) :
    ProofRequested next := by
  cases hmove with
  | start _ hstart =>
    obtain ⟨-, rfl⟩ := Job.start_eq_ok.mp hstart
    exact hjob
  | complete _ hcomplete =>
    obtain ⟨-, rfl⟩ := Job.complete_eq_ok.mp hcomplete
    exact hjob
  | cancel _ _ hcancel => exact cancelled_proofRequested hcancel
  | withResult => exact hjob
  | withPriority => exact hjob
  | deferForScheduler _ _ hdefer =>
    obtain ⟨-, rfl⟩ := Job.deferForScheduler_eq_ok.mp hdefer
    exact hjob

theorem Derived.proofRequested {snapshot job : Job} (hderived : Derived snapshot job)
    (hsnapshot : ProofRequested snapshot) : ProofRequested job := by
  induction hderived with
  | refl => exact hsnapshot
  | tail _ hmove ih => exact hmove.proofRequested ih

variable {op : QueueOp}

/-- Row steps keep proofs requested, where an updated value does. -/
theorem RowStep.proofRequested (hstep : RowStep op job next)
    (hupdate : ∀ value, op = .update value → ProofRequested value) (hjob : ProofRequested job) :
    ProofRequested next := by
  cases hstep with
  | keep | backfilled | recovered | rebooted | deferFinalized | uncertain | reclassified =>
    exact hjob
  | superseded _ _ hcancel | orphaned _ _ hcancel | cancelledPending _ _ _ _ hcancel
  | reaped _ _ hcancel | auditedCancel _ _ hcancel => exact cancelled_proofRequested hcancel
  | updated => exact hupdate _ rfl
  | cancelRequested _ hrequest =>
    rcases Job.requestCancel_eq_ok hrequest with ⟨-, hcancel⟩ | ⟨-, -, _, rfl⟩
    · exact cancelled_proofRequested hcancel
    · exact proofRequested_of_requested (by simp)
  | started _ hstart =>
    obtain ⟨-, rfl⟩ := Job.start_eq_ok.mp hstart
    exact hjob
  | deferred _ _ _ _ hdefer =>
    obtain ⟨-, rfl⟩ := Job.deferForScheduler_eq_ok.mp hdefer
    exact hjob
  | daemonDeferred =>
    unfold deferDaemonWorker
    split <;> exact hjob

/-- The row is cancelled, or still running with the same request time and with
every recorded proof. -/
def KeepsRequest (job row : Job) : Prop :=
  row.status = .cancelled ∨ (row.status = .running ∧
    row.cancelRequestedAt = job.cancelRequestedAt ∧
    ∀ proof, job.cancellationProof = some proof → row.cancellationProof = some proof)

theorem keepsRequest_cancelled {job queued next : Job} {now : Time}
    (hcancel : queued.cancelWithReasonAndProof now reason proof = .ok next) :
    KeepsRequest job next := by
  obtain ⟨-, rfl⟩ := Job.cancelWithReasonAndProof_eq_ok.mp hcancel
  exact .inl rfl

/-- Every operation but recovery and update keeps the fence by itself. -/
theorem RowStep.keepsRequest (hstep : RowStep op job next) (hrunning : job.status = .running)
    (hrequested : job.cancelRequestedAt.isSome) (hrecovery : selectsRecovery op job = false)
    (hupdate : ∀ value, op = .update value → value.id = job.id → value.status ≠ .pending ∧
      value.status ≠ .completed) : KeepsRequest job next := by
  have hsame : ∀ row : Job, row.status = job.status →
      row.cancelRequestedAt = job.cancelRequestedAt →
      row.cancellationProof = job.cancellationProof → KeepsRequest job row := by
    intro row hstatus htime hproof
    exact .inr ⟨hstatus.trans hrunning, htime, fun proof hjob => hproof.trans hjob⟩
  have hunfenced : job.cancelRequestedAt = none → KeepsRequest job next := by
    intro hnone
    rw [hnone] at hrequested
    cases hrequested
  cases hstep with
  | keep | backfilled => exact hsame _ rfl rfl rfl
  | superseded _ hpending | orphaned _ hpending | cancelledPending _ _ _ hpending =>
    rw [hpending] at hrunning
    cases hrunning
  | updated hid haccepts =>
    obtain ⟨htime, -, hproof⟩ := haccepts.sameCancellation hrunning hrequested
    obtain ⟨hpending, hcompleted⟩ := hupdate _ rfl hid.symm
    cases hstatus : next.status with
    | pending => exact absurd hstatus hpending
    | running => exact hsame next (hstatus.trans hrunning.symm) htime hproof
    | completed => exact absurd hstatus hcompleted
    | cancelled => exact .inl hstatus
  | cancelRequested _ hrequest =>
    rcases Job.requestCancel_eq_ok hrequest with ⟨-, hcancel⟩ | ⟨-, hconflict, _, rfl⟩
    · exact keepsRequest_cancelled hcancel
    · refine .inr ⟨hrunning, ?_, fun proof hproof => ?_⟩
      · obtain ⟨time, htime⟩ := Option.isSome_iff_exists.mp hrequested
        simp [htime]
      · exact Job.or_of_not_proofConflict hconflict hproof
  | recovered _ hselected =>
    rw [hrecovery] at hselected
    cases hselected
  | started _ hstart =>
    rw [(Job.start_eq_ok.mp hstart).1] at hrunning
    cases hrunning
  | reaped _ _ hcancel | auditedCancel _ _ hcancel => exact keepsRequest_cancelled hcancel
  | deferred _ _ _ hnone | rebooted _ _ hnone | deferFinalized _ _ hnone
  | uncertain _ _ hnone => exact hunfenced hnone
  | daemonDeferred =>
    unfold deferDaemonWorker
    split <;> exact hsame _ rfl rfl rfl
  | reclassified hcompleted =>
    rw [hcompleted] at hrunning
    cases hrunning

/-! ## Runs -/

/-- The condition on runs: what callers respect, and the fence. -/
def Fenced (s : ClientState) (label : ClientLabel) : Prop :=
  CallerOk s label ∧ keepsFence s label = true

/-- Ids are unique, and stored and held proofs are requested. -/
structure ClientInv (s : ClientState) : Prop where
  nodup : (s.jobs.map Job.id).Nodup
  stored : ∀ job ∈ s.jobs, ProofRequested job
  held : ∀ job ∈ s.snapshots, ProofRequested job

variable {label : ClientLabel}

theorem CallerOk.freshIds {s : ClientState} (hcaller : CallerOk s label) (hop : label.op = some op)
    : FreshIds s.jobs op := by
  cases op with
  | enqueue store now job =>
    cases label with
    | durable op =>
      cases hop
      exact decide_eq_true hcaller.2.2
    | _ => cases hop
  | _ => rfl

theorem CallerOk.submitted_proofRequested {s : ClientState} {job : Job} (hcaller : CallerOk s label)
    (hop : label.op = some op) (hjob : submitted op = some job) : ProofRequested job := by
  have hnew : job.cancellationProof = none := by
    cases op with
    | enqueue store now submitted =>
      cases label with
      | durable op =>
        cases hop
        cases hjob
        exact hcaller.2.1
      | _ => cases hop
    | enqueueRecoveryIfUnowned store submitted cutoff =>
      cases label with
      | durable op =>
        cases hop
        cases hjob
        exact hcaller.2
      | _ => cases hop
    | _ => cases hjob
  intro hsome
  rw [hnew] at hsome
  cases hsome

variable {s s' : ClientState}

/-- A value that an enabled update writes has its proof requested. -/
theorem ClientInv.update_proofRequested (hinv : ClientInv s) (hcaller : CallerOk s label)
    (hstep : clientStep s label = some s') (hop : label.op = some op) :
    ∀ value, op = .update value → ProofRequested value := by
  rintro value rfl
  cases label with
  | update snapshot job =>
    cases hop
    simp only [clientStep] at hstep
    split at hstep
    next henabled => exact hcaller.proofRequested (hinv.held snapshot henabled.1)
    · cases hstep
  | durable op =>
    cases hop
    cases hstep
  | _ => cases hop

theorem ClientInv.step (hinv : ClientInv s) (hcaller : CallerOk s label)
    (hstep : clientStep s label = some s') : ClientInv s' := by
  rcases clientStep_cases hstep with ⟨hjobs, hsnapshots⟩ | ⟨op, saved, hop, hperform, rfl⟩
  · refine ⟨hjobs ▸ hinv.nodup, hjobs ▸ hinv.stored, fun job hjob => ?_⟩
    exact (hsnapshots job hjob).elim (hinv.held job) (hinv.stored job)
  · have hperformed := perform_spec hperform
    have hupdate := hinv.update_proofRequested hcaller hstep hop
    have hrows := hperformed.rows_ids_nodup (hcaller.freshIds hop) hinv.nodup
    have horigin : ∀ row, (∃ job ∈ s.jobs, RowStep op job row) ∨ submitted op = some row →
        ProofRequested row := by
      rintro row (⟨job, hjob, hrowStep⟩ | hsubmitted)
      · exact hrowStep.proofRequested hupdate (hinv.stored job hjob)
      · exact hcaller.submitted_proofRequested hop hsubmitted
    refine ⟨hperformed.stored_ids_nodup hrows, fun row hrow => ?_, fun job hjob => ?_⟩
    · exact horigin row (hperformed.exists_origin (hperformed.stored_subset row hrow))
    · rcases mem_append.mp hjob with hheld | hreturned
      · exact hinv.held job hheld
      · exact horigin job (hperformed.returned job hreturned)

theorem clientInv_of_reachable {s : ClientState} (hreach : clients.ReachableWhen Fenced s) :
    ClientInv s := by
  refine hreach.invariant (fun s hinit => ?_) fun s label s' hinv hok hexec =>
    hinv.step hok.1 hexec
  obtain ⟨hjobs, hsnapshots⟩ := hinit
  exact ⟨by simp [hjobs], by simp [hjobs], by simp [hsnapshots]⟩

/-- One operation under the fence: the row of a fenced job keeps the request. -/
theorem fenced_keepsRequest {saved : Saved (List Job)} {job row : Job} (hinv : ClientInv s)
    (hok : Fenced s label) (henabled : clientStep s label = some s') (hop : label.op = some op)
    (hperform : perform op s.jobs = .ok saved) (hjob : job ∈ s.jobs) (hfenced : fenced job = true)
    (hrow : row ∈ saved.rows) (hid : row.id = job.id) : KeepsRequest job row := by
  have hstep := (perform_spec hperform).rowStep_of_id_eq (hok.1.freshIds hop) hinv.nodup hjob
    hrow hid
  have hrunning : job.status = .running ∧ job.cancelRequestedAt.isSome := by
    simpa [fenced] using hfenced
  refine hstep.keepsRequest hrunning.1 hrunning.2 ?_ ?_
  · cases label with
    | durable op =>
      cases hop
      have hall := all_eq_true.mp hok.2 job hjob
      simpa [hfenced] using hall
    | update =>
      cases hop
      rfl
    | _ => cases hop
  · rintro value rfl hvalueId
    cases label with
    | update snapshot written =>
      cases hop
      obtain ⟨queued, hget, -⟩ := update_accepted hperform
      have hqueued : queued = job := by
        refine inj_on_of_nodup_map hinv.nodup (mem_of_find?_eq_some hget) hjob ?_
        exact (by simpa using find?_some hget : queued.id = value.id).trans hvalueId
      have hkeeps := hok.2
      simp only [keepsFence, hget, hqueued, hfenced] at hkeeps
      simpa using hkeeps
    | durable op =>
      cases hop
      cases henabled
    | _ => cases hop

/-- Runs in which a job with this id is stored all along. -/
def StoredClientRun (id : String) : ClientState → ClientState → Prop :=
  Relation.ReflTransGen fun s s' => clients.StepWhen Fenced s s' ∧ id ∈ s'.jobs.map Job.id

theorem KeepsRequest.trans {a b c : Job} (hab : KeepsRequest a b)
    (hcancelled : b.status = .cancelled → c.status = .cancelled)
    (hbc : b.status = .running → KeepsRequest b c) : KeepsRequest a c := by
  rcases hab with hb | ⟨hrunning, htime, hproof⟩
  · exact .inl (hcancelled hb)
  · rcases hbc hrunning with hc | ⟨hc, htime', hproof'⟩
    · exact .inl hc
    · exact .inr ⟨hc, htime'.trans htime, fun proof ha => hproof' proof (hproof proof ha)⟩

/-- Along a run under the fence, the row of a fenced job keeps the request. -/
theorem keepsRequest_of_run {job : Job} (hreach : clients.ReachableWhen Fenced s)
    (hjob : job ∈ s.jobs) (hfenced : fenced job = true) (hrun : StoredClientRun job.id s s') :
    clients.ReachableWhen Fenced s' ∧
      ∃ row ∈ s'.jobs, row.id = job.id ∧ KeepsRequest job row := by
  have hjobState : job.status = .running ∧ job.cancelRequestedAt.isSome := by
    simpa [fenced] using hfenced
  induction hrun with
  | refl => exact ⟨hreach, job, hjob, rfl, .inr ⟨hjobState.1, rfl, fun _ hproof => hproof⟩⟩
  | tail _ hlast ih =>
    obtain ⟨hmiddle, current, hcurrent, hid, hkeeps⟩ := ih
    obtain ⟨⟨label, hok, hexec⟩, hstays⟩ := hlast
    refine ⟨hmiddle.step hok hexec, ?_⟩
    have hinv := clientInv_of_reachable hmiddle
    rcases clientStep_cases hexec with ⟨hjobs, -⟩ | ⟨op, saved, hop, hperform, rfl⟩
    · exact ⟨current, hjobs ▸ hcurrent, hid, hkeeps⟩
    · obtain ⟨row, hrow, hrowId⟩ := mem_map.mp hstays
      have hperformed := perform_spec hperform
      have hsame : row.id = current.id := hrowId.trans hid.symm
      have hrowStep := hperformed.rowStep_of_id_eq (hok.1.freshIds hop) hinv.nodup hcurrent
        (hperformed.stored_subset row hrow) hsame
      refine ⟨row, hrow, hrowId, hkeeps.trans (fun hcancelled => ?_) fun hrunning => ?_⟩
      · rw [hrowStep.status_of_terminal (by rw [hcancelled]; rfl), hcancelled]
      · have htime : current.cancelRequestedAt = job.cancelRequestedAt := by
          rcases hkeeps with hcancelled | ⟨-, htime, -⟩
          · rw [hrunning] at hcancelled
            cases hcancelled
          · exact htime
        have hcurrentFenced : fenced current = true := by
          simp [fenced, hrunning, htime, hjobState.2]
        exact fenced_keepsRequest hinv hok hexec hop hperform hcurrent hcurrentFenced
          (hperformed.stored_subset row hrow) hsame

/-- In every run under the fence, from the moment a running job carries a
cancellation request: each operation leaves its row running with the same
request time or cancelled, and so does every later state in which the job is
still stored; and the proof of a running job is never replaced or erased. -/
theorem cancellation_fence_holds {s : ClientState} (hreach : clients.ReachableWhen Fenced s) :
    (∀ label s' op saved, Fenced s label → clients.exec s label = some s' →
      label.op = some op → perform op s.jobs = .ok saved →
      ∀ job ∈ s.jobs, fenced job = true → ∀ row ∈ saved.rows, row.id = job.id →
        KeepsRequest job row) ∧
    (∀ job ∈ s.jobs, fenced job = true → ∀ s', StoredClientRun job.id s s' →
      ∀ row ∈ s'.jobs, row.id = job.id → KeepsRequest job row) ∧
    ∀ job ∈ s.jobs, job.status = .running → ∀ proof, job.cancellationProof = some proof →
      ∀ s', StoredClientRun job.id s s' → ∀ row ∈ s'.jobs, row.id = job.id →
        row.status = .running → row.cancellationProof = some proof := by
  have hinv := clientInv_of_reachable hreach
  have hruns : ∀ job ∈ s.jobs, fenced job = true → ∀ s', StoredClientRun job.id s s' →
      ∀ row ∈ s'.jobs, row.id = job.id → KeepsRequest job row := by
    intro job hjob hfenced s' hrun row hrow hid
    obtain ⟨hlater, current, hcurrent, hcurrentId, hkeeps⟩ :=
      keepsRequest_of_run hreach hjob hfenced hrun
    have hsame : row = current := inj_on_of_nodup_map
      (clientInv_of_reachable hlater).nodup hrow hcurrent (hid.trans hcurrentId.symm)
    exact hsame ▸ hkeeps
  refine ⟨?_, hruns, ?_⟩
  · intro label s' op saved hok hexec hop hperform job hjob hfenced row hrow hid
    exact fenced_keepsRequest hinv hok hexec hop hperform hjob hfenced hrow hid
  · intro job hjob hrunning proof hproof s' hrun row hrow hid hrowRunning
    have hrequested := hinv.stored job hjob (by rw [hproof]; rfl)
    have hfenced : fenced job = true := by simp [fenced, hrunning, hrequested]
    rcases hruns job hjob hfenced s' hrun row hrow hid with hcancelled | ⟨-, -, hproofs⟩
    · rw [hrowRunning] at hcancelled
      cases hcancelled
    · exact hproofs proof hproof

/-- The started job after a cancellation request. -/
def requestedJob : Job :=
  { startedJob with cancellationReason := some "stop", cancelRequestedAt := some 2 }

def cancelRun : List ClientLabel :=
  [.durable (.enqueue none 0 submittedJob), .durable (.startPendingJobsForDrain 1 ["sy-1"]),
    .durable (.requestCancel 2 "sy-1" (some "stop") none)]

def afterRequest : ClientState := ⟨[requestedJob], [submittedJob, startedJob, requestedJob]⟩

/-- A second request meets the conditions and keeps the time of the first. -/
theorem second_request_keeps_fence :
    clients.ReachableWhen Fenced afterRequest ∧
      ∀ saved, perform (.requestCancel 5 "sy-1" none none) afterRequest.jobs = .ok saved →
        ∀ row ∈ saved.rows, row.id = "sy-1" → KeepsRequest requestedJob row := by
  have hempty : clients.ReachableWhen Fenced ⟨[], []⟩ := .start ⟨rfl, rfl⟩
  have hsubmit : clients.ReachableWhen Fenced ⟨[submittedJob], [submittedJob]⟩ :=
    hempty.step (l := .durable (.enqueue none 0 submittedJob)) ⟨⟨rfl, rfl, by simp⟩, rfl⟩
      (by decide)
  have hstart : clients.ReachableWhen Fenced ⟨[startedJob], [submittedJob, startedJob]⟩ :=
    hsubmit.step (l := .durable (.startPendingJobsForDrain 1 ["sy-1"])) ⟨trivial, rfl⟩ (by decide)
  have hrequest : clients.ReachableWhen Fenced afterRequest :=
    hstart.step (l := .durable (.requestCancel 2 "sy-1" (some "stop") none)) ⟨trivial, rfl⟩
      (by decide)
  refine ⟨hrequest, fun saved hperform row hrow hid => ?_⟩
  exact (cancellation_fence_holds hrequest).1
    (.durable (.requestCancel 5 "sy-1" none none)) _ _ saved ⟨trivial, by decide⟩ rfl rfl
    hperform requestedJob (by decide) rfl row hrow hid

/-- Recovery completes the fenced job; an update with a value derived from the
snapshot that carries the request completes it, or returns it to pending. -/
theorem recovery_and_update_break_fence :
    clients.execAll (fun _ _ => True) ⟨[], []⟩ cancelRun = some afterRequest ∧
      requestedJob ∈ afterRequest.jobs ∧ fenced requestedJob = true ∧
      (∃ s', clients.exec afterRequest (.durable (.recoverStaleRunningJobsForDrain 3)) = some s' ∧
        ∃ row ∈ s'.jobs, row.id = "sy-1" ∧ row.status = .completed) ∧
      (∃ value s', Derived requestedJob value ∧
        clients.exec afterRequest (.update requestedJob value) = some s' ∧
        ∃ row ∈ s'.jobs, row.id = "sy-1" ∧ row.status = .completed) ∧
      ∃ value s', Derived requestedJob value ∧
        clients.exec afterRequest (.update requestedJob value) = some s' ∧
        ∃ row ∈ s'.jobs, row.id = "sy-1" ∧ row.status = .pending := by
  have hcompleted : Derived requestedJob
      { requestedJob with status := .completed, completedAt := some 3 } :=
    .single (.complete 3 rfl)
  have hdeferred : Derived requestedJob
      { requestedJob with
        status := .pending
        startedAt := none
        schedulerDeferReason := some "busy"
        schedulerDeferCount := 1 } :=
    .single (.deferForScheduler "busy" none rfl)
  refine ⟨by decide, by decide, rfl, ⟨_, rfl, ?_⟩, ⟨_, _, hcompleted, rfl, ?_⟩,
    ⟨_, _, hdeferred, rfl, ?_⟩⟩
  · decide
  · decide
  · decide

end Shipyard.Queue
