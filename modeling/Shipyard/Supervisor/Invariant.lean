import Shipyard.Supervisor.Basic

/-!
# The invariant of the supervisor

An intent marker belongs to a job that is not pending and has no live worker,
except in the middle of its own requeue. Every step outside the boot pass is
quiet: it leaves the markers and the pass alone, and makes no guarded job
pending. A supervisor may start, stop or lose its host while no requeue is half
done.
-/

namespace Shipyard.Supervisor

open Lib Queue Function List Option

/-- The supervisor has not finished its boot pass. -/
def Daemon.Booting (daemon : Daemon) : Prop :=
  daemon.bootPassDone = false ∨ daemon.pass.isSome

def State.pass (s : State) : Option Pass := s.daemon.bind Daemon.pass

/-- The boot pass has requeued this job and not yet completed its marker. -/
def MidRequeue (s : State) (jobId : String) : Prop :=
  ∃ pass marker, s.pass = some pass ∧ pass.current = some (marker, .requeued) ∧
    marker.jobId = jobId

/-- No unfinished requeue is recorded for this job. -/
def NoIntent (s : State) (jobId : String) : Prop :=
  ∀ marker ∈ s.markers, marker.state = .intent → marker.jobId ≠ jobId

def NotPending (jobs : List Job) (jobId : String) : Prop :=
  ∀ job ∈ jobs, job.id = jobId → job.status ≠ .pending

/-- A boot id that does not prove a reboot. -/
def SameBoot (s : State) (bootId : Option String) : Prop := bootId = none ∨ bootId = some s.boot

/-- Jobs whose requeue is recorded or still to be decided by a boot pass. -/
def Guarded (s : State) (jobId : String) : Prop :=
  ¬NoIntent s jobId ∨
    ∃ pass, s.pass = some pass ∧ ∃ job ∈ pass.remaining, job.id = jobId

/-- The invariant of runs in which no supervisor stops in the middle of a requeue. -/
structure Inv (s : State) : Prop where
  workerBoot : ∀ worker ∈ s.workers, worker.boot = s.boot
  receiptBoot : ∀ worker ∈ s.workers, ∀ receipt, s.receipts worker.jobId = some receipt →
    SameBoot s receipt.bootId
  daemonBoot : ∀ daemon, s.daemon = some daemon → SameBoot s daemon.bootId
  unique : (s.markers.map BootRequeueMarker.jobId).Nodup
  intentAlive : ∀ worker ∈ s.workers, NoIntent s worker.jobId
  intentTermination : ∀ jobId ∈ s.terminations, NoIntent s jobId
  intentUnspawned : ∀ daemon, s.daemon = some daemon → ∀ jobId ∈ daemon.unspawned,
    NoIntent s jobId
  intentPending : ∀ marker ∈ s.markers, marker.state = .intent → ¬MidRequeue s marker.jobId →
    NotPending s.jobs marker.jobId
  bootingAlone : ∀ daemon, s.daemon = some daemon → daemon.Booting → daemon.unspawned = []
  current : ∀ pass marker stage, s.pass = some pass → pass.current = some (marker, stage) →
    marker ∈ s.markers ∧ marker.state = .intent
  moved : ∀ jobId ∈ s.moves, ∃ marker ∈ s.markers, marker.jobId = jobId ∧
    (marker.state = .requeued ∨ MidRequeue s jobId)
  once : ∀ jobId, s.moves.count jobId ≤ 1
  passPending : ∀ pass, s.pass = some pass → ∀ job ∈ pass.remaining,
    NotPending s.jobs job.id ∨ ∃ marker ∈ s.markers, marker.jobId = job.id
  jobIds : (s.jobs.map Job.id).Nodup
  jobsKnown : ∀ job ∈ s.jobs, job.id ∈ s.known
  markersKnown : ∀ marker ∈ s.markers, marker.jobId ∈ s.known
  passKnown : ∀ pass, s.pass = some pass → ∀ job ∈ pass.remaining, job.id ∈ s.known

/-! ## Durable operations -/

theorem applyOp_cases (op : QueueOp) (jobs : List Job) :
    applyOp op jobs = (jobs, []) ∨ ∃ saved, perform op jobs = .ok saved ∧
      applyOp op jobs = (saved.stored, saved.answer) := by
  unfold applyOp
  split
  next saved hperform => exact .inr ⟨saved, hperform, rfl⟩
  · exact .inl rfl

variable {jobId : String} {op : QueueOp} {jobs : List Job}

theorem applyOp_notPending (hstarted : writesStarted jobs op = true)
    (hsubmits : submits jobId op = false) (hrequeues : requeues jobId op = false)
    (hbefore : NotPending jobs jobId) : NotPending (applyOp op jobs).1 jobId := by
  rcases applyOp_cases op jobs with hsame | ⟨saved, hperform, heq⟩
  · rw [hsame]
    exact hbefore
  · rw [heq]
    intro job hjob
    exact perform_pending hperform hstarted hsubmits hrequeues hbefore job
      ((perform_spec hperform).stored_subset job hjob)

/-- Every job after an operation has the id of a job before it, or is submitted. -/
theorem applyOp_ids {job : Job} (hjob : job ∈ (applyOp op jobs).1) :
    (∃ before ∈ jobs, before.id = job.id) ∨ submitted op = some job := by
  rcases applyOp_cases op jobs with hsame | ⟨saved, hperform, heq⟩
  · rw [hsame] at hjob
    exact .inl ⟨job, hjob, rfl⟩
  · rw [heq] at hjob
    have hop := perform_spec hperform
    rcases hop.exists_origin (hop.stored_subset job hjob) with ⟨before, hbefore, hstep⟩ | hnew
    · exact .inl ⟨before, hbefore, hstep.id_eq⟩
    · exact .inr hnew

/-! ## Steps outside the boot pass -/

/-- What every step outside the boot pass, and within one life of a supervisor,
leaves as it is. A new worker and a new entry of the spawn list belong to jobs
without an intent marker, and no guarded job becomes pending. -/
structure Quiet (s s' : State) : Prop where
  boot : s'.boot = s.boot
  markers : s'.markers = s.markers
  moves : s'.moves = s.moves
  pass : s'.pass = s.pass
  known : ∀ jobId ∈ s.known, jobId ∈ s'.known
  jobIds : (s'.jobs.map Job.id).Nodup
  jobsKnown : ∀ job ∈ s'.jobs, job.id ∈ s'.known
  workers : ∀ worker ∈ s'.workers, worker ∈ s.workers ∧
      (∀ receipt, s'.receipts worker.jobId = some receipt →
        s.receipts worker.jobId = some receipt ∨ SameBoot s receipt.bootId) ∨
    worker.boot = s.boot ∧ NoIntent s worker.jobId ∧
      ∀ receipt, s'.receipts worker.jobId = some receipt → SameBoot s receipt.bootId
  terminations : ∀ jobId ∈ s'.terminations, jobId ∈ s.terminations ∨ NoIntent s jobId
  notPending : ∀ jobId, Guarded s jobId → NotPending s.jobs jobId → NotPending s'.jobs jobId
  daemon : ∀ daemon', s'.daemon = some daemon' → ∃ daemon, s.daemon = some daemon ∧
    daemon'.bootId = daemon.bootId ∧
    (∀ jobId ∈ daemon'.unspawned, jobId ∈ daemon.unspawned ∨ NoIntent s jobId) ∧
    (daemon'.Booting → daemon'.unspawned = daemon.unspawned ∧ daemon.Booting)

variable {s : State}

variable {s s' : State}

theorem Inv.quiet (hinv : Inv s) (hquiet : Quiet s s') : Inv s' := by
  have hboot : ∀ bootId, SameBoot s bootId → SameBoot s' bootId := by
    intro bootId hsame
    rwa [SameBoot, hquiet.boot]
  have hnoIntent : ∀ jobId, NoIntent s jobId → NoIntent s' jobId := by
    intro jobId hnone
    rwa [NoIntent, hquiet.markers]
  have hmid : ∀ jobId, MidRequeue s' jobId ↔ MidRequeue s jobId := by
    intro jobId
    rw [MidRequeue, hquiet.pass, MidRequeue]
  constructor
  case workerBoot =>
    intro worker hworker
    rw [hquiet.boot]
    rcases hquiet.workers worker hworker with ⟨hold, -⟩ | ⟨hnew, -⟩
    · exact hinv.workerBoot worker hold
    · exact hnew
  case receiptBoot =>
    intro worker hworker receipt hreceipt
    rcases hquiet.workers worker hworker with ⟨hold, hreceipts⟩ | ⟨-, -, hnew⟩
    · rcases hreceipts receipt hreceipt with hsame | hboot'
      · exact hboot _ (hinv.receiptBoot worker hold receipt hsame)
      · exact hboot _ hboot'
    · exact hboot _ (hnew receipt hreceipt)
  case daemonBoot =>
    intro daemon' hdaemon'
    obtain ⟨daemon, hdaemon, hbootId, -⟩ := hquiet.daemon daemon' hdaemon'
    rw [hbootId]
    exact hboot _ (hinv.daemonBoot daemon hdaemon)
  case unique =>
    rw [hquiet.markers]
    exact hinv.unique
  case intentAlive =>
    intro worker hworker
    apply hnoIntent
    rcases hquiet.workers worker hworker with ⟨hold, -⟩ | ⟨-, hnew, -⟩
    · exact hinv.intentAlive worker hold
    · exact hnew
  case intentTermination =>
    intro jobId hjobId
    apply hnoIntent
    exact (hquiet.terminations jobId hjobId).elim (hinv.intentTermination jobId) id
  case intentUnspawned =>
    intro daemon' hdaemon' jobId hjobId
    obtain ⟨daemon, hdaemon, -, hunspawned, -⟩ := hquiet.daemon daemon' hdaemon'
    apply hnoIntent
    exact (hunspawned jobId hjobId).elim (hinv.intentUnspawned daemon hdaemon jobId) id
  case intentPending =>
    rw [hquiet.markers]
    intro marker hmarker hintent hnotMid
    rw [hmid] at hnotMid
    exact hquiet.notPending marker.jobId (.inl fun hnone => hnone marker hmarker hintent rfl)
      (hinv.intentPending marker hmarker hintent hnotMid)
  case bootingAlone =>
    intro daemon' hdaemon' hbooting
    obtain ⟨daemon, hdaemon, -, -, hsame⟩ := hquiet.daemon daemon' hdaemon'
    obtain ⟨hunspawned, hbefore⟩ := hsame hbooting
    rw [hunspawned]
    exact hinv.bootingAlone daemon hdaemon hbefore
  case current =>
    rw [hquiet.pass, hquiet.markers]
    exact hinv.current
  case moved =>
    rw [hquiet.moves, hquiet.markers]
    intro jobId hjobId
    obtain ⟨marker, hmarker, hid, hstate⟩ := hinv.moved jobId hjobId
    exact ⟨marker, hmarker, hid, hstate.imp_right (hmid jobId).mpr⟩
  case once =>
    rw [hquiet.moves]
    exact hinv.once
  case passPending =>
    rw [hquiet.pass, hquiet.markers]
    intro pass hpass job hjob
    refine (hinv.passPending pass hpass job hjob).imp_left ?_
    exact hquiet.notPending job.id (.inr ⟨pass, hpass, job, hjob, rfl⟩)
  case jobIds => exact hquiet.jobIds
  case jobsKnown => exact hquiet.jobsKnown
  case markersKnown =>
    rw [hquiet.markers]
    intro marker hmarker
    exact hquiet.known _ (hinv.markersKnown marker hmarker)
  case passKnown =>
    rw [hquiet.pass]
    intro pass hpass job hjob
    exact hquiet.known _ (hinv.passKnown pass hpass job hjob)

theorem Inv.guarded_known (hinv : Inv s) (hguarded : Guarded s jobId) : jobId ∈ s.known := by
  rcases hguarded with hintent | ⟨pass, hpass, job, hjob, rfl⟩
  · by_contra hunknown
    refine hintent fun marker hmarker _ hid => hunknown ?_
    rw [← hid]
    exact hinv.markersKnown marker hmarker
  · exact hinv.passKnown pass hpass job hjob

theorem applyOp_known {known : List String} (hop : submitted op = none)
    (hjobs : ∀ job ∈ jobs, job.id ∈ known) : ∀ job ∈ (applyOp op jobs).1, job.id ∈ known := by
  intro job hjob
  rcases applyOp_ids hjob with ⟨before, hbefore, hid⟩ | hnew
  · exact hid ▸ hjobs before hbefore
  · rw [hop] at hnew
    cases hnew

theorem applyOp_jobIds (hfresh : enqueuesFresh jobs op = true) (hnodup : (jobs.map Job.id).Nodup) :
    ((applyOp op jobs).1.map Job.id).Nodup := by
  rcases applyOp_cases op jobs with hsame | ⟨saved, hperform, heq⟩
  · rw [hsame]
    exact hnodup
  · rw [heq]
    have hop := perform_spec hperform
    exact hop.stored_ids_nodup (hop.rows_ids_nodup hfresh hnodup)

theorem enqueuesFresh_of_submitted_none (hop : submitted op = none) (jobs : List Job) :
    enqueuesFresh jobs op = true := by
  cases op with
  | enqueue => cases hop
  | _ => rfl

variable {daemon : Daemon}

theorem idleDaemon_eq_some (hidle : s.idleDaemon = some daemon) :
    s.daemon = some daemon ∧ daemon.pass = none ∧ ¬daemon.Booting := by
  unfold State.idleDaemon at hidle
  split at hidle
  next stored hdaemon =>
    split at hidle
    next hdone =>
      cases hidle
      simp only [Bool.and_eq_true, isNone_iff_eq_none] at hdone
      exact ⟨hdaemon, hdone.2, by simp [Daemon.Booting, hdone.1, hdone.2]⟩
    · cases hidle
  · cases hidle

theorem receipts_of_removed {receipts : String → Option WorkerReceipt} {removed jobId : String}
    {receipt : WorkerReceipt}
    (hreceipt : Function.update receipts removed none jobId = some receipt) :
    receipts jobId = some receipt := by
  by_cases hsame : jobId = removed
  · rw [hsame, update_self] at hreceipt
    cases hreceipt
  · rwa [update_of_ne hsame] at hreceipt

section Idle

variable {unspawned : List String} (hidle : s.idleDaemon = some daemon)

include hidle

theorem pass_of_idle : s.pass = none := by
  obtain ⟨hdaemon, hpass, -⟩ := idleDaemon_eq_some hidle
  rw [State.pass, hdaemon, bind_some, hpass]

theorem not_midRequeue_of_idle (jobId : String) : ¬MidRequeue s jobId := by
  rintro ⟨pass, marker, hpass, -⟩
  rw [pass_of_idle hidle] at hpass
  cases hpass

theorem not_noIntent_of_idle (hguarded : Guarded s jobId) : ¬NoIntent s jobId := by
  refine hguarded.elim id ?_
  rintro ⟨pass, hpass, -⟩
  rw [pass_of_idle hidle] at hpass
  cases hpass

/-- The spawn list of an idle supervisor may lose jobs, and gain jobs without a marker. -/
theorem quiet_unspawned {daemon' : Daemon}
    (hunspawned : ∀ jobId ∈ unspawned, jobId ∈ daemon.unspawned ∨ NoIntent s jobId)
    (hdaemon' : some { daemon with unspawned } = some daemon') :
    ∃ daemon, s.daemon = some daemon ∧ daemon'.bootId = daemon.bootId ∧
      (∀ jobId ∈ daemon'.unspawned, jobId ∈ daemon.unspawned ∨ NoIntent s jobId) ∧
      (daemon'.Booting → daemon'.unspawned = daemon.unspawned ∧ daemon.Booting) := by
  obtain ⟨hdaemon, -, hidle⟩ := idleDaemon_eq_some hidle
  cases hdaemon'
  exact ⟨daemon, hdaemon, rfl, hunspawned, fun hbooting => absurd hbooting hidle⟩

/-- The spawn list of an idle supervisor loses its head. -/
theorem quiet_tail (hhead : daemon.unspawned = jobId :: unspawned) (daemon' : Daemon) :
    some { daemon with unspawned } = some daemon' →
    ∃ daemon, s.daemon = some daemon ∧ daemon'.bootId = daemon.bootId ∧
      (∀ jobId ∈ daemon'.unspawned, jobId ∈ daemon.unspawned ∨ NoIntent s jobId) ∧
      (daemon'.Booting → daemon'.unspawned = daemon.unspawned ∧ daemon.Booting) := by
  refine quiet_unspawned hidle fun other hother => .inl ?_
  rw [hhead]
  exact mem_cons_of_mem _ hother

end Idle

/-- What the memory of a supervisor must satisfy between two requeues. -/
structure DaemonFits (s : State) (daemon : Daemon) : Prop where
  boot : SameBoot s daemon.bootId
  unspawned : ∀ jobId ∈ daemon.unspawned, NoIntent s jobId
  alone : daemon.Booting → daemon.unspawned = []
  current : ∀ pass marker stage, daemon.pass = some pass →
    pass.current = some (marker, stage) →
    marker ∈ s.markers ∧ marker.state = .intent ∧ stage ≠ .requeued
  pending : ∀ pass, daemon.pass = some pass → ∀ job ∈ pass.remaining,
    NotPending s.jobs job.id ∨ ∃ marker ∈ s.markers, marker.jobId = job.id
  known : ∀ pass, daemon.pass = some pass → ∀ job ∈ pass.remaining, job.id ∈ s.known

/-- A memory without a boot pass fits as soon as its boot and spawn list do. -/
theorem DaemonFits.of_no_pass (hboot : SameBoot s daemon.bootId)
    (hunspawned : ∀ jobId ∈ daemon.unspawned, NoIntent s jobId)
    (halone : daemon.Booting → daemon.unspawned = []) (hpass : daemon.pass = none) :
    DaemonFits s daemon := by
  refine ⟨hboot, hunspawned, halone, ?_, ?_, ?_⟩ <;> simp [hpass]

variable (hinv : Inv s) {unspawned : List String}

include hinv

/-- A step that changes nothing is quiet: a quiet step speaks of what it changes. -/
theorem Inv.still : Quiet s s where
  boot := rfl
  markers := rfl
  moves := rfl
  pass := rfl
  known := fun _ hmem => hmem
  jobIds := hinv.jobIds
  jobsKnown := hinv.jobsKnown
  workers := fun _ hworker => .inl ⟨hworker, fun _ hreceipt => .inl hreceipt⟩
  terminations := fun _ hmem => .inl hmem
  notPending := fun _ _ hbefore => hbefore
  daemon := fun daemon hdaemon => ⟨daemon, hdaemon, rfl, fun _ hjobId => .inl hjobId,
    fun hbooting => ⟨rfl, hbooting⟩⟩

/-- Steps that only perform an operation on the queue. -/
theorem Inv.quiet_jobs (hsubmitted : submitted op = none)
    (hstarted : writesStarted s.jobs op = true)
    (hrequeues : ∀ jobId, Guarded s jobId → requeues jobId op = false) :
    Quiet s { s with jobs := (applyOp op s.jobs).1 } :=
  { hinv.still with
    jobIds := applyOp_jobIds (enqueuesFresh_of_submitted_none hsubmitted _) hinv.jobIds
    jobsKnown := applyOp_known hsubmitted hinv.jobsKnown
    notPending := by
      intro jobId hguarded hbefore
      refine applyOp_notPending hstarted ?_ (hrequeues jobId hguarded) hbefore
      rw [submits, hsubmitted] }

theorem noIntent_of_alive (halive : s.alive jobId = true) : NoIntent s jobId := by
  obtain ⟨worker, hworker, hid⟩ := List.any_eq_true.mp halive
  have hsame : worker.jobId = jobId := by simpa using hid
  exact hsame ▸ hinv.intentAlive worker hworker

theorem Inv.removeReceipt (jobId : String) : Inv (s.removeReceipt jobId) :=
  hinv.quiet { hinv.still with
    workers := fun _ hworker =>
      .inl ⟨hworker, fun _ hreceipt => .inl (receipts_of_removed hreceipt)⟩ }

theorem Inv.cleanupTermination (jobId : String) : Inv (s.cleanupTermination jobId) :=
  (hinv.removeReceipt jobId).quiet { (hinv.removeReceipt jobId).still with
    terminations := fun _ hmem => .inl (mem_filter.mp hmem).1 }

theorem Inv.removeWorker (jobId : String) (leases : List String) :
    Inv { s with workers := s.workers.filter fun worker => worker.jobId ≠ jobId, leases } :=
  hinv.quiet { hinv.still with
    workers := fun worker hworker => hinv.still.workers worker (mem_filter.mp hworker).1 }

/-! ## Starting and spawning -/

/-- A job that an idle supervisor starts has no intent marker: it was pending. -/
theorem Inv.noIntent_of_started (hidle : s.idleDaemon = some daemon) {now : Time}
    {jobIds : List String} {job : Job}
    (hjob : job ∈ (applyOp (.startPendingJobsForDrain now jobIds) s.jobs).2) :
    NoIntent s job.id := by
  intro marker hmarker hintent hid
  obtain ⟨queued, hqueued, hpending, -, hstart⟩ := startPending_returned hjob
  have hqueuedId : queued.id = job.id := by
    obtain ⟨-, rfl⟩ := Job.start_eq_ok.mp hstart
    rfl
  exact hinv.intentPending marker hmarker hintent (not_midRequeue_of_idle hidle _) queued hqueued
    (hqueuedId.trans hid.symm) hpending

theorem Inv.noIntent_of_head (hdaemon : s.daemon = some daemon)
    (hhead : daemon.unspawned = jobId :: unspawned) : NoIntent s jobId :=
  hinv.intentUnspawned daemon hdaemon jobId (hhead ▸ mem_cons_self)

theorem Inv.startPending (hidle : s.idleDaemon = some daemon) (now : Time) (jobIds : List String)
    (leases : List String) :
    Inv { s with
      jobs := (applyOp (.startPendingJobsForDrain now jobIds) s.jobs).1
      leases
      daemon := some { daemon with
        unspawned := daemon.unspawned ++
          (applyOp (.startPendingJobsForDrain now jobIds) s.jobs).2.map Job.id } } := by
  obtain ⟨hdaemon, hpass, -⟩ := idleDaemon_eq_some hidle
  exact hinv.quiet { hinv.still with
    pass := by simp [State.pass, hdaemon, hpass]
    jobIds := applyOp_jobIds rfl hinv.jobIds
    jobsKnown := applyOp_known rfl hinv.jobsKnown
    notPending := fun _ _ hbefore => applyOp_notPending rfl rfl rfl hbefore
    daemon := by
      refine fun daemon' => quiet_unspawned hidle fun jobId hjobId => ?_
      refine (mem_append.mp hjobId).imp_right fun hstarted => ?_
      obtain ⟨job, hjob, rfl⟩ := List.mem_map.mp hstarted
      exact hinv.noIntent_of_started hidle hjob }

theorem Inv.spawnWorker (hidle : s.idleDaemon = some daemon)
    (hhead : daemon.unspawned = jobId :: unspawned) :
    Inv { s with
      workers := s.workers ++ [⟨jobId, s.boot⟩]
      receipts := Function.update s.receipts jobId (some ⟨jobId, daemon.bootId⟩)
      daemon := some { daemon with unspawned } } := by
  obtain ⟨hdaemon, hpass, -⟩ := idleDaemon_eq_some hidle
  have hwritten : ∀ receipt, Function.update s.receipts jobId
      (some (WorkerReceipt.mk jobId daemon.bootId)) jobId = some receipt →
      SameBoot s receipt.bootId := by
    intro receipt hreceipt
    rw [update_self] at hreceipt
    cases hreceipt
    exact hinv.daemonBoot daemon hdaemon
  exact hinv.quiet { hinv.still with
    pass := by simp [State.pass, hdaemon, hpass]
    workers := by
      intro worker hworker
      rcases mem_append.mp hworker with hold | hnew
      · refine .inl ⟨hold, fun receipt hreceipt => ?_⟩
        by_cases hsame : worker.jobId = jobId
        · rw [hsame] at hreceipt
          exact .inr (hwritten receipt hreceipt)
        · exact .inl ((update_of_ne hsame _ _).symm.trans hreceipt)
      · cases mem_singleton.mp hnew
        exact .inr ⟨rfl, hinv.noIntent_of_head hdaemon hhead, hwritten⟩
    daemon := quiet_tail hidle hhead }

theorem Inv.spawnFailed (hidle : s.idleDaemon = some daemon)
    (hhead : daemon.unspawned = jobId :: unspawned) (reason : String) (deferUntil : Option Time)
    (leases : List String) :
    Inv { s with
      jobs := (applyOp (.requeueDeferredRunningJobsForDrain [⟨jobId, reason, deferUntil⟩])
        s.jobs).1
      leases
      daemon := some { daemon with unspawned } } := by
  obtain ⟨hdaemon, hpass, -⟩ := idleDaemon_eq_some hidle
  exact hinv.quiet { hinv.still with
    pass := by simp [State.pass, hdaemon, hpass]
    jobIds := applyOp_jobIds rfl hinv.jobIds
    jobsKnown := applyOp_known rfl hinv.jobsKnown
    notPending := by
      -- only the job whose spawn failed is requeued, and it has no intent marker
      intro other hguarded hbefore
      have hother : other ≠ jobId := by
        rintro rfl
        exact not_noIntent_of_idle hidle hguarded (hinv.noIntent_of_head hdaemon hhead)
      exact applyOp_notPending rfl rfl (by simp [requeues, hother]) hbefore
    daemon := quiet_tail hidle hhead }

/-! ## The life of a supervisor -/

/-- While no requeue is half done, the memory may be lost or replaced. -/
theorem Inv.withDaemon (hwhole : ∀ jobId, ¬MidRequeue s jobId) (leases : List String)
    {next : Option Daemon} (hnext : ∀ daemon, next = some daemon → DaemonFits s daemon) :
    Inv { s with leases, daemon := next } := by
  have hpassOf : ∀ {pass : Pass}, next.bind Daemon.pass = some pass →
      ∃ daemon, DaemonFits s daemon ∧ daemon.pass = some pass := by
    intro pass hpass
    obtain ⟨daemon, hdaemon, hpass⟩ := bind_eq_some_iff.mp hpass
    exact ⟨daemon, hnext daemon hdaemon, hpass⟩
  have hmoved : ∀ jobId ∈ s.moves, ∃ marker ∈ s.markers, marker.jobId = jobId ∧
      marker.state = .requeued := by
    intro jobId hjobId
    obtain ⟨marker, hmarker, hid, hstate⟩ := hinv.moved jobId hjobId
    exact ⟨marker, hmarker, hid, hstate.resolve_right (hwhole jobId)⟩
  exact { hinv with
    daemonBoot := fun daemon hdaemon => (hnext daemon hdaemon).boot
    intentUnspawned := fun daemon hdaemon => (hnext daemon hdaemon).unspawned
    intentPending := fun marker hmarker hintent _ =>
      hinv.intentPending marker hmarker hintent (hwhole marker.jobId)
    bootingAlone := fun daemon hdaemon => (hnext daemon hdaemon).alone
    current := by
      intro pass marker stage hpass hcurrent
      obtain ⟨daemon, hfits, hpass⟩ := hpassOf hpass
      obtain ⟨hmarker, hintent, -⟩ := hfits.current pass marker stage hpass hcurrent
      exact ⟨hmarker, hintent⟩
    moved := by
      intro jobId hjobId
      obtain ⟨marker, hmarker, hid, hrequeued⟩ := hmoved jobId hjobId
      exact ⟨marker, hmarker, hid, .inl hrequeued⟩
    passPending := by
      intro pass hpass
      obtain ⟨daemon, hfits, hpass⟩ := hpassOf hpass
      exact hfits.pending pass hpass
    passKnown := by
      intro pass hpass
      obtain ⟨daemon, hfits, hpass⟩ := hpassOf hpass
      exact hfits.known pass hpass }

/-- The running jobs that a boot pass reads at its start are not pending. -/
theorem DaemonFits.of_running (hboot : SameBoot s daemon.bootId)
    (hunspawned : daemon.unspawned = []) :
    DaemonFits s { daemon with
      pass := some ⟨s.jobs.filter fun job => job.status = .running, none⟩ } where
  boot := hboot
  unspawned := by simp [hunspawned]
  alone := fun _ => hunspawned
  current := by
    intro pass marker stage hpass hcurrent
    cases hpass
    cases hcurrent
  pending := by
    intro pass hpass job hjob
    cases hpass
    obtain ⟨hstored, hrunning⟩ := mem_filter.mp hjob
    refine .inl fun other hother hid => ?_
    have hsame : other = job := inj_on_of_nodup_map hinv.jobIds hother hstored hid
    rw [hsame, of_decide_eq_true hrunning]
    simp
  known := by
    intro pass hpass job hjob
    cases hpass
    exact hinv.jobsKnown job (mem_filter.mp hjob).1

theorem Inv.startDaemon (hdaemon : s.daemon = none) (bootReadable : Bool) :
    Inv { s with daemon := some { bootId := if bootReadable then some s.boot else none } } := by
  refine hinv.withDaemon ?_ s.leases ?_
  · rintro jobId ⟨pass, marker, hpass, -⟩
    rw [State.pass, hdaemon] at hpass
    cases hpass
  · rintro daemon hnew
    cases hnew
    refine .of_no_pass ?_ (by simp) (fun _ => rfl) rfl
    cases bootReadable with
    | true => exact .inr rfl
    | false => exact .inl rfl

theorem Inv.stopDaemon (hwhole : ∀ jobId, ¬MidRequeue s jobId) :
    Inv { s with daemon := none } :=
  hinv.withDaemon hwhole s.leases (by simp)

theorem Inv.reboot (hdaemon : s.daemon = none) (newBoot : String) :
    Inv { s with boot := newBoot, workers := [] } :=
  { hinv with
    workerBoot := by simp
    receiptBoot := by simp
    daemonBoot := by simp [hdaemon]
    intentAlive := by simp }

theorem Inv.beginBootPass {enabled : Bool} {stamp : Time → String}
    (hstep : step stamp s (.beginBootPass enabled) = some s') : Inv s' := by
  simp only [step] at hstep
  split at hstep
  · cases hstep
  next daemon hdaemon =>
    split at hstep
    · cases hstep
    next hfresh =>
      simp only [Bool.or_eq_true, not_or, Bool.not_eq_true, isSome_eq_false_iff,
        isNone_iff_eq_none] at hfresh
      have hunspawned : daemon.unspawned = [] := hinv.bootingAlone daemon hdaemon (.inl hfresh.1)
      have hwhole : ∀ jobId, ¬MidRequeue s jobId := by
        rintro jobId ⟨pass, marker, hpass, -⟩
        rw [State.pass, hdaemon, bind_some, hfresh.2] at hpass
        cases hpass
      split at hstep
      · cases hstep
        refine hinv.withDaemon hwhole s.leases fun _ hnew => ?_
        cases hnew
        exact .of_no_pass (hinv.daemonBoot daemon hdaemon) (hinv.intentUnspawned daemon hdaemon)
          (fun _ => hunspawned) hfresh.2
      · cases hstep
        refine hinv.withDaemon hwhole s.leases fun _ hnew => ?_
        cases hnew
        exact .of_running hinv (hinv.daemonBoot daemon hdaemon) hunspawned

end Shipyard.Supervisor
