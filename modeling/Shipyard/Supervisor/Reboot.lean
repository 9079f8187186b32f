import Shipyard.Supervisor.BootPass

/-!
# Requeueing after a reboot

A leftover intent marker is trusted without reading the receipt again. While no
supervisor stops between the queue write and the completion of the marker, the
invariant holds, so the boot pass moves a job at most once and never touches one
that has a live worker. A stop at exactly that point leaves the marker on a
pending job; the job is started again, and the next boot pass takes its live
worker away.
-/

namespace Shipyard.Supervisor

open Lib Queue Option

/-! ## Every step -/

/-- The queue write of a boot requeue is done and its marker is not completed. -/
def requeueOpen (s : State) : Bool :=
  (s.pass.bind Pass.current).any fun current => current.2 = .requeued

variable {s s' : State} {jobId : String} {stamp : Time → String}

theorem not_midRequeue_of_closed (hclosed : requeueOpen s = false) (jobId : String) :
    ¬MidRequeue s jobId := by
  rintro ⟨pass, marker, hpass, hcurrent, -⟩
  simp [requeueOpen, hpass, hcurrent] at hclosed

/-- No supervisor stops and no host reboots between the queue write of a boot
requeue and the completion of its marker. -/
def keepsRequeueWhole (s : State) : Label → Bool
  | .stopDaemon => !requeueOpen s
  | .reboot _ => !requeueOpen s
  | _ => true

abbrev KeepsRequeueWhole (s : State) (label : Label) : Prop := keepsRequeueWhole s label = true

theorem writesStarted_update {job : Job} (hstatus : job.status ≠ .pending) (jobs : List Job) :
    writesStarted jobs (.update job) = true := by
  simp only [writesStarted]
  split <;> simp [hstatus]

theorem Inv.client (hinv : Inv s) {op : QueueOp} (hallowed : clientAllowed s op = true) :
    Inv { s with
      jobs := (applyOp op s.jobs).1
      known := (submitted op).toList.map Job.id ++ s.known } := by
  simp only [clientAllowed, Bool.and_eq_true] at hallowed
  obtain ⟨⟨hrequeue, hstarted⟩, hfresh⟩ := hallowed
  have hnew : ∀ job, submitted op = some job → job.id ∉ s.known := by
    intro job hjob
    rw [hjob] at hfresh
    exact of_decide_eq_true hfresh
  have hjobIds : enqueuesFresh s.jobs op = true := by
    cases op with
    | enqueue store now job =>
      refine decide_eq_true fun hmem => ?_
      obtain ⟨queued, hqueued, hid⟩ := List.mem_map.mp hmem
      exact hnew job rfl (hid ▸ hinv.jobsKnown queued hqueued)
    | _ => rfl
  exact hinv.quiet { hinv.still with
    known := fun _ hknown => List.mem_append_right _ hknown
    jobIds := applyOp_jobIds hjobIds hinv.jobIds
    jobsKnown := by
      intro job hjob
      rcases applyOp_ids hjob with ⟨before, hbefore, hid⟩ | hsubmitted
      · exact List.mem_append_right _ (hid ▸ hinv.jobsKnown before hbefore)
      · rw [hsubmitted]
        exact List.mem_append_left _ (by simp)
    notPending := by
      intro jobId hguarded hbefore
      refine applyOp_notPending hstarted ?_ ?_ hbefore
      · unfold submits
        split
        next job hjob =>
          refine decide_eq_false fun hid => hnew job hjob ?_
          rw [hid]
          exact hinv.guarded_known hguarded
        · rfl
      · cases op with
        | requeueDeferredRunningJobsForDrain => cases hrequeue
        | requeueRunningAfterReboot => cases hrequeue
        | finalizeDeferredDaemonWorker => cases hrequeue
        | _ => rfl }

theorem Inv.acknowledge (hinv : Inv s) {now : Time}
    (hack : Supervisor.acknowledge now jobId s = some s') : Inv s' := by
  unfold Supervisor.acknowledge at hack
  split at hack
  · cases hack
  next job _ =>
    split at hack
    · cases hack
    · split at hack
      · cases hack
      next cancelled hcancel =>
        cases hack
        obtain ⟨-, rfl⟩ := Job.cancelWithReasonAndProof_eq_ok.mp hcancel
        exact hinv.quiet (hinv.quiet_jobs rfl (writesStarted_update (by simp) _) fun _ _ => rfl)

theorem Inv.finalizeDeferred (hinv : Inv s) {daemon : Daemon} (hidle : s.idleDaemon = some daemon)
    (hmem : jobId ∈ s.terminations) :
    Inv { s with jobs := (applyOp (.finalizeDeferredDaemonWorker jobId) s.jobs).1 } := by
  refine hinv.quiet (hinv.quiet_jobs rfl rfl fun other hguarded => ?_)
  refine decide_eq_false ?_
  rintro rfl
  exact not_noIntent_of_idle hidle hguarded (hinv.intentTermination _ hmem)

/-- Every step that leaves no requeue half done keeps the invariant. -/
theorem Inv.step {label : Label} (hinv : Inv s) (hwhole : KeepsRequeueWhole s label)
    (hstep : Supervisor.step stamp s label = some s') : Inv s' := by
  cases label with
  | startDaemon bootReadable =>
    simp only [Supervisor.step] at hstep
    split at hstep
    · cases hstep
    next hdaemon =>
      cases hstep
      exact hinv.startDaemon hdaemon bootReadable
  | stopDaemon =>
    have hclosed : requeueOpen s = false := by
      simpa [KeepsRequeueWhole, keepsRequeueWhole] using hwhole
    obtain ⟨-, ⟨⟩⟩ := ite_none_right_eq_some.mp hstep
    exact hinv.stopDaemon (not_midRequeue_of_closed hclosed)
  | reboot newBoot =>
    have hclosed : requeueOpen s = false := by
      simpa [KeepsRequeueWhole, keepsRequeueWhole] using hwhole
    obtain ⟨-, ⟨⟩⟩ := ite_none_left_eq_some.mp hstep
    exact (hinv.stopDaemon (not_midRequeue_of_closed hclosed)).reboot rfl newBoot
  | beginBootPass enabled => exact hinv.beginBootPass hstep
  | bootPass now =>
    simp only [Supervisor.step] at hstep
    split at hstep
    · cases hstep
    next daemon hdaemon =>
      split at hstep
      next pass currentBoot hpass hboot =>
        cases hstep
        exact hinv.passStep hdaemon hpass hboot stamp now
      · cases hstep
  | startPending now jobIds =>
    obtain ⟨daemon, hidle, rfl⟩ := map_eq_some_iff.mp hstep
    exact hinv.startPending hidle now jobIds _
  | spawnWorker =>
    simp only [Supervisor.step] at hstep
    split at hstep
    · cases hstep
    next daemon hidle =>
      split at hstep
      · cases hstep
      next jobId unspawned hhead =>
        cases hstep
        exact hinv.spawnWorker hidle hhead
  | spawnFailed error deferUntil =>
    simp only [Supervisor.step] at hstep
    split at hstep
    · cases hstep
    next daemon hidle =>
      split at hstep
      · cases hstep
      next jobId unspawned hhead =>
        cases hstep
        exact hinv.spawnFailed hidle hhead _ deferUntil _
  | retireWorker now jobId reason =>
    obtain ⟨-, ⟨⟩⟩ := ite_none_left_eq_some.mp hstep
    have hcompleted : Inv { s with
        jobs := (applyOp (.completeRunningUncertain now jobId reason) s.jobs).1 } :=
      hinv.quiet (hinv.quiet_jobs rfl rfl fun _ _ => rfl)
    exact hcompleted.removeReceipt jobId
  | sweepReceipt jobId =>
    obtain ⟨-, ⟨⟩⟩ := ite_none_left_eq_some.mp hstep
    exact hinv.removeReceipt jobId
  | beginTermination jobId =>
    obtain ⟨halive, ⟨⟩⟩ := ite_none_left_eq_some.mp hstep
    exact hinv.quiet { hinv.still with
      terminations := by
        intro other hother
        rcases List.mem_cons.mp hother with rfl | hold
        · simp only [Bool.or_eq_true, not_or, Bool.not_eq_true', Bool.not_eq_false] at halive
          exact .inr (noIntent_of_alive hinv halive.1.2)
        · exact .inl hold }
  | proveTreeDead jobId =>
    obtain ⟨-, ⟨⟩⟩ := ite_none_left_eq_some.mp hstep
    exact hinv.removeWorker jobId _
  | finalizeDeferred jobId =>
    simp only [Supervisor.step, ite_none_left_eq_some] at hstep
    obtain ⟨hproved, hstep⟩ := hstep
    simp only [Bool.or_eq_true, not_or, isNone_iff_eq_none, decide_eq_true_eq,
      Decidable.not_not] at hproved
    obtain ⟨⟨hsome, hmem⟩, -⟩ := hproved
    obtain ⟨daemon, hidle⟩ := ne_none_iff_exists'.mp hsome
    split at hstep
    · cases hstep
      exact hinv
    · cases hstep
      exact (hinv.finalizeDeferred hidle hmem).cleanupTermination jobId
  | acknowledgeCancelled now jobId =>
    simp only [Supervisor.step, ite_none_left_eq_some] at hstep
    obtain ⟨middle, hack, rfl⟩ := map_eq_some_iff.mp hstep.2
    exact (hinv.acknowledge hack).cleanupTermination jobId
  | workerUpdate job =>
    simp only [Supervisor.step, ite_none_right_eq_some, some.injEq,
      Bool.and_eq_true, decide_eq_true_eq] at hstep
    obtain ⟨⟨-, hstatus⟩, rfl⟩ := hstep
    exact hinv.quiet (hinv.quiet_jobs rfl (writesStarted_update hstatus _) fun _ _ => rfl)
  | workerDefer requeue =>
    obtain ⟨-, ⟨⟩⟩ := ite_none_right_eq_some.mp hstep
    exact hinv.quiet (hinv.quiet_jobs rfl rfl fun _ _ => rfl)
  | workerExit jobId =>
    cases hstep
    exact hinv.removeWorker jobId s.leases
  | client op =>
    obtain ⟨hallowed, ⟨⟩⟩ := ite_none_right_eq_some.mp hstep
    exact hinv.client hallowed

theorem Inv.init (boot : String) : Inv { boot } := by
  constructor <;> simp [State.pass]

theorem inv_of_reachable (hreach : (supervisor stamp).ReachableWhen KeepsRequeueWhole s) :
    Inv s := by
  refine hreach.invariant (I := Inv) ?_ fun _ _ _ hinv hok hexec => hinv.step hok hexec
  rintro _ ⟨boot, rfl⟩
  exact .init boot

/-- In every run in which no supervisor stops between the queue write of a boot
requeue and the completion of its marker, the boot pass moves a job at most
once, and leaves the receipt and the rows of a job alone while a worker of it,
started under the current boot, lives. -/
theorem boot_pass_moves_once_and_spares_live_workers (stamp : Time → String) {s : State}
    (hreach : (supervisor stamp).ReachableWhen KeepsRequeueWhole s) :
    (∀ jobId, s.moves.count jobId ≤ 1) ∧
    ∀ now s', (supervisor stamp).exec s (.bootPass now) = some s' →
      ∀ worker ∈ s.workers, worker.boot = s.boot →
        s'.receipts worker.jobId = s.receipts worker.jobId ∧
        s'.jobs.filter (·.id = worker.jobId) = s.jobs.filter (·.id = worker.jobId) := by
  have hinv := inv_of_reachable hreach
  refine ⟨hinv.once, fun now s' hexec worker hworker _ => ?_⟩
  simp only [supervisor, step] at hexec
  split at hexec
  · cases hexec
  next daemon hdaemon =>
    split at hexec
    next pass currentBoot hpass hboot =>
      cases hexec
      exact passStep_alive hinv hdaemon hpass hworker stamp now currentBoot
    · cases hexec

/-! ## The interrupted requeue -/

/-- A job is started, and the host reboots under it. -/
def startedThenRebooted : List Label :=
  [.client (.enqueue none 0 submittedJob), .startDaemon true, .beginBootPass true, .bootPass 1,
    .startPending 2 ["sy-1"], .spawnWorker, .reboot "boot-b"]

/-- A new supervisor marks the job, releases its leases, removes its receipt
and requeues it. -/
def requeuedOnce : List Label :=
  [.startDaemon true, .beginBootPass true, .bootPass 3, .bootPass 3, .bootPass 3, .bootPass 3]

/-- A new supervisor finds nothing to requeue, and starts the pending job. -/
def startedAgain : List Label :=
  [.stopDaemon, .startDaemon true, .beginBootPass true, .bootPass 4, .startPending 5 ["sy-1"],
    .spawnWorker]

/-- A new supervisor resumes a marker up to the release of the leases. -/
def resumed : List Label :=
  [.stopDaemon, .startDaemon true, .beginBootPass true, .bootPass 6, .bootPass 6]

/-- The state after a run of labels that all meet a condition. -/
def supervisorRun (ok : State → Label → Prop) [∀ s l, Decidable (ok s l)]
    (labels : List Label) : Option State :=
  (supervisor fun _ => "").execAll ok { boot := "boot-a" } labels

theorem supervisorRun_reachable {ok : State → Label → Prop} [∀ s l, Decidable (ok s l)]
    {labels : List Label} (hsome : (supervisorRun ok labels).isSome = true) :
    (supervisor fun _ => "").ReachableWhen ok ((supervisorRun ok labels).get hsome) :=
  .of_execAll ⟨"boot-a", rfl⟩ (some_get hsome).symm

/-- The last supervisor of the interrupted run is about to remove the receipt. -/
def interrupted : State :=
  (supervisorRun (fun _ _ => True)
    (startedThenRebooted ++ requeuedOnce ++ startedAgain ++ resumed)).get (by decide)

def receiptLost : State := ((supervisor fun _ => "").exec interrupted (.bootPass 6)).get (by decide)

def requeuedTwice : State :=
  ((supervisor fun _ => "").exec receiptLost (.bootPass 6)).get (by decide)

/-- A supervisor stops right after the queue write. The next one starts the
pending job, and after one more restart the boot pass trusts the leftover
marker: it removes the receipt of the live worker and requeues the job again. -/
theorem stop_before_marker_completion_repeats_requeue :
    ∃ s, (supervisor fun _ => "").Reachable s ∧ ⟨"sy-1", "boot-b"⟩ ∈ s.workers ∧
      s.boot = "boot-b" ∧ s.receipts "sy-1" = some ⟨"sy-1", some "boot-b"⟩ ∧
      ∃ s', (supervisor fun _ => "").exec s (.bootPass 6) = some s' ∧
        s'.receipts "sy-1" = none ∧
        ∃ s'', (supervisor fun _ => "").exec s' (.bootPass 6) = some s'' ∧
          s''.jobs.map Job.status = [.pending] ∧ s''.moves.count "sy-1" = 2 :=
  ⟨interrupted, supervisorRun_reachable _, by decide, by decide, by decide,
    receiptLost, (some_get _).symm, by decide,
    requeuedTwice, (some_get _).symm, by decide, by decide⟩

/-- The same runs with the marker completed before the restart. -/
def uninterrupted : State :=
  (supervisorRun KeepsRequeueWhole
    (startedThenRebooted ++ requeuedOnce ++ .bootPass 3 :: startedAgain ++
      [.stopDaemon, .startDaemon true, .beginBootPass true])).get (by decide)

theorem completed_marker_spares_restarted_job :
    (⟨"sy-1", "boot-b"⟩ ∈ uninterrupted.workers ∧ uninterrupted.moves = ["sy-1"]) ∧
    (∀ jobId, uninterrupted.moves.count jobId ≤ 1) ∧
    ∀ now s', (supervisor fun _ => "").exec uninterrupted (.bootPass now) = some s' →
      ∀ worker ∈ uninterrupted.workers, worker.boot = uninterrupted.boot →
        s'.receipts worker.jobId = uninterrupted.receipts worker.jobId ∧
        s'.jobs.filter (·.id = worker.jobId) =
          uninterrupted.jobs.filter (·.id = worker.jobId) :=
  ⟨by decide, boot_pass_moves_once_and_spares_live_workers (fun _ => "")
    (supervisorRun_reachable _)⟩

end Shipyard.Supervisor
