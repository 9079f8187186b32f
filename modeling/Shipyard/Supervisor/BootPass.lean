import Shipyard.Supervisor.Invariant

/-!
# The boot pass

What one write of the boot pass does: the marker, the leases, the receipt and
the queue row of one job, in this order. Each write keeps the supervisor's
invariant, and leaves a job with a live worker alone.
-/

namespace Shipyard.Supervisor

open Lib List Queue

/-! ## Marker files -/

theorem writeMarker_new {marker : BootRequeueMarker} {markers : List BootRequeueMarker}
    (hnone : jobWasRequeuedAfterAReboot marker.jobId markers = false) :
    writeMarker marker markers = markers ++ [marker] := by
  unfold writeMarker
  split
  next hold =>
    obtain ⟨old, hmem, hsame⟩ := any_eq_true.mp hold
    simp only [Bool.and_eq_true, decide_eq_true_eq] at hsame
    simp only [jobWasRequeuedAfterAReboot, any_eq_false, decide_eq_true_eq] at hnone
    exact absurd hsame.1 (hnone old hmem)
  · rfl

variable {markers : List BootRequeueMarker} {marker : BootRequeueMarker}

/-- Completing a marker rewrites its file and no other. -/
theorem writeMarker_complete (hmarker : marker ∈ markers) :
    writeMarker { marker with state := .requeued } markers =
      markers.map fun old =>
        if old.jobId = marker.jobId && old.deadBootId = marker.deadBootId then
          { marker with state := .requeued } else old := by
  unfold writeMarker
  rw [if_pos (any_eq_true.mpr ⟨marker, hmarker, by simp⟩)]

theorem writeMarker_complete_jobIds (hmarker : marker ∈ markers) :
    (writeMarker { marker with state := .requeued } markers).map BootRequeueMarker.jobId =
      markers.map BootRequeueMarker.jobId := by
  rw [writeMarker_complete hmarker, map_map]
  refine map_congr_left fun old _ => ?_
  simp only [Function.comp_apply]
  split
  next hsame =>
    simp only [Bool.and_eq_true, decide_eq_true_eq] at hsame
    exact hsame.1.symm
  · rfl

theorem mem_writeMarker_complete {other : BootRequeueMarker} (hmarker : marker ∈ markers)
    (hunique : (markers.map BootRequeueMarker.jobId).Nodup) :
    other ∈ writeMarker { marker with state := .requeued } markers ↔
      other = { marker with state := .requeued } ∨
        other ∈ markers ∧ other.jobId ≠ marker.jobId := by
  rw [writeMarker_complete hmarker, mem_map]
  constructor
  · rintro ⟨old, hold, rfl⟩
    split
    · exact .inl rfl
    next hother =>
      refine .inr ⟨hold, fun hid => hother ?_⟩
      -- markers are unique per job, so this is the completed one
      rw [inj_on_of_nodup_map hunique hold hmarker hid]
      simp
  · rintro (rfl | ⟨hother, hid⟩)
    · exact ⟨marker, hmarker, by simp⟩
    · exact ⟨other, hother, by simp [hid]⟩

/-! ## Choosing the next job -/

/-- The three outcomes for the next running job: skip it, resume its intent
marker, or write a marker because its receipt names another boot. -/
theorem passBegin_cases (now : Time) (currentBoot : String) (job : Job) (s : State) :
    passBegin now currentBoot job s = (s, none) ∨
    (∃ marker ∈ s.markers, marker.state = .intent ∧
      passBegin now currentBoot job s = (s, some marker)) ∨
    ∃ receipt deadBoot, s.receipts job.id = some receipt ∧ receipt.bootId = some deadBoot ∧
      deadBoot ≠ currentBoot ∧ job.id ∉ s.terminations ∧
      (∀ marker ∈ s.markers, marker.jobId ≠ job.id) ∧
      passBegin now currentBoot job s =
        ({ s with markers := s.markers ++ [⟨job.id, deadBoot, currentBoot, .intent, now⟩] },
          some ⟨job.id, deadBoot, currentBoot, .intent, now⟩) := by
  unfold passBegin
  split
  · exact .inl rfl
  next hopen =>
    simp only [Bool.or_eq_true, decide_eq_true_eq, not_or] at hopen
    split
    next marker hintent =>
      have hstate := find?_some hintent
      simp only [Bool.and_eq_true, decide_eq_true_eq] at hstate
      exact .inr (.inl ⟨marker, mem_of_find?_eq_some hintent, hstate.1, rfl⟩)
    · split
      · exact .inl rfl
      next deadBoot hreceipt =>
        obtain ⟨receipt, hfound, hboot⟩ := Option.bind_eq_some_iff.mp hreceipt
        split
        · exact .inl rfl
        next hother =>
          split
          · exact .inl rfl
          next hfirst =>
            rw [Bool.not_eq_true] at hfirst
            refine .inr (.inr ⟨receipt, deadBoot, hfound, hboot, hother, hopen.2, ?_, ?_⟩)
            · simpa [jobWasRequeuedAfterAReboot] using hfirst
            · simp only [@writeMarker_new ⟨job.id, deadBoot, currentBoot, .intent, now⟩ _ hfirst]

/-- An intent marker may be written for a job of the pass that has no marker, no
live worker and no termination. -/
theorem Inv.addMarker {s : State} (hinv : Inv s) (marker : BootRequeueMarker)
    (hfirst : ∀ old ∈ s.markers, old.jobId ≠ marker.jobId)
    (hdead : ∀ worker ∈ s.workers, worker.jobId ≠ marker.jobId)
    (hterminations : marker.jobId ∉ s.terminations)
    (hunspawned : ∀ daemon, s.daemon = some daemon → daemon.unspawned = [])
    (hpending : NotPending s.jobs marker.jobId) (hknown : marker.jobId ∈ s.known) :
    Inv { s with markers := s.markers ++ [marker] } := by
  have hnoIntent : ∀ jobId, marker.jobId ≠ jobId → NoIntent s jobId →
      NoIntent { s with markers := s.markers ++ [marker] } jobId := by
    intro jobId hother hnone other hmem hintent
    rcases mem_append.mp hmem with hold | hnew
    · exact hnone other hold hintent
    · cases mem_singleton.mp hnew
      exact hother
  exact { hinv with
    unique := by
      rw [map_append, nodup_append]
      refine ⟨hinv.unique, nodup_singleton _, ?_⟩
      intro jobId hjobId other hother
      obtain ⟨old, hold, rfl⟩ := mem_map.mp hjobId
      rw [mem_singleton.mp hother]
      exact hfirst old hold
    intentAlive := by
      intro worker hworker
      exact hnoIntent _ (hdead worker hworker).symm (hinv.intentAlive worker hworker)
    intentTermination := by
      intro jobId hjobId
      refine hnoIntent _ (fun heq => hterminations ?_) (hinv.intentTermination jobId hjobId)
      rw [heq]
      exact hjobId
    intentUnspawned := by
      intro daemon hdaemon jobId hjobId
      rw [hunspawned daemon hdaemon] at hjobId
      cases hjobId
    intentPending := by
      intro other hmem hintent hmid
      rcases mem_append.mp hmem with hold | hnew
      · exact hinv.intentPending other hold hintent hmid
      · cases mem_singleton.mp hnew
        exact hpending
    current := by
      intro pass other stage hpass hcurrent
      obtain ⟨hmem, hintent⟩ := hinv.current pass other stage hpass hcurrent
      exact ⟨mem_append_left _ hmem, hintent⟩
    moved := by
      intro jobId hjobId
      obtain ⟨old, hold, hid, hstate⟩ := hinv.moved jobId hjobId
      exact ⟨old, mem_append_left _ hold, hid, hstate⟩
    passPending := by
      intro pass hpass job hjob
      refine (hinv.passPending pass hpass job hjob).imp_right ?_
      rintro ⟨old, hold, hid⟩
      exact ⟨old, mem_append_left _ hold, hid⟩
    markersKnown := by
      intro other hmem
      rcases mem_append.mp hmem with hold | hnew
      · exact hinv.markersKnown other hold
      · cases mem_singleton.mp hnew
        exact hknown }

/-! ## Requeueing a row -/

/-- The requeue rewrites the first running row of the job, or nothing. -/
theorem requeueRunning_cases (jobId reason : String) (jobs : List Job) :
    applyOp (.requeueRunningAfterReboot jobId reason) jobs = (jobs, []) ∨
    ∃ before job after, jobs = before ++ job :: after ∧ job.id = jobId ∧
      applyOp (.requeueRunningAfterReboot jobId reason) jobs =
        (before ++ requeuedAfterReboot reason job :: after, [requeuedAfterReboot reason job]) := by
  simp only [applyOp, perform, requeueRunningAfterReboot, saveFirst]
  split
  next rows moved hedit =>
    obtain ⟨before, job, after, rfl, -, hselect, hmoved, rfl⟩ := modifyFirst_some hedit
    cases hmoved
    simp only [Bool.and_eq_true, decide_eq_true_eq] at hselect
    exact .inr ⟨before, job, after, rfl, hselect.1.1, rfl⟩
  · exact .inl rfl

theorem requeueRunning_moved (jobId reason : String) (jobs : List Job) :
    (applyOp (.requeueRunningAfterReboot jobId reason) jobs).2.map Job.id = [] ∨
      (applyOp (.requeueRunningAfterReboot jobId reason) jobs).2.map Job.id = [jobId] := by
  rcases requeueRunning_cases jobId reason jobs with hsame | ⟨before, job, after, -, rfl, hmoved⟩
  · rw [hsame]
    exact .inl rfl
  · rw [hmoved]
    exact .inr rfl

section Pass

variable {s : State} {daemon : Daemon} {pass : Pass}

theorem pass_of_daemon (hdaemon : s.daemon = some daemon) (hpass : daemon.pass = some pass) :
    s.pass = some pass := by
  rw [State.pass, hdaemon, Option.bind_some, hpass]

theorem not_midRequeue_of_stage (hdaemon : s.daemon = some daemon) (hpass : daemon.pass = some pass)
    (hstage : ∀ marker, pass.current ≠ some (marker, .requeued)) (jobId : String) :
    ¬MidRequeue s jobId := by
  rintro ⟨other, marker, hother, hcurrent, -⟩
  rw [pass_of_daemon hdaemon hpass] at hother
  cases hother
  exact hstage marker hcurrent

/-- A job with an intent marker has not been moved before its own requeue. -/
theorem Inv.not_moved (hinv : Inv s) (hwhole : ∀ jobId, ¬MidRequeue s jobId)
    {marker : BootRequeueMarker} (hmarker : marker ∈ s.markers)
    (hintent : marker.state = .intent) : marker.jobId ∉ s.moves := by
  intro hmem
  obtain ⟨old, hold, hid, hstate⟩ := hinv.moved _ hmem
  have hsame : old = marker := inj_on_of_nodup_map hinv.unique hold hmarker hid
  have hrequeued := hstate.resolve_right (hwhole _)
  rw [hsame, hintent] at hrequeued
  cases hrequeued

variable (hinv : Inv s) (hdaemon : s.daemon = some daemon) (hpass : daemon.pass = some pass)
  {marker : BootRequeueMarker}

include hinv hdaemon hpass

/-- A step of the pass that is not the requeue itself, and completes none. -/
theorem Inv.passNext (hstage : ∀ marker, pass.current ≠ some (marker, .requeued))
    {remaining : List Job} (hremaining : ∀ job ∈ remaining, job ∈ pass.remaining)
    {current : Option (BootRequeueMarker × PassStage)}
    (hcurrent : ∀ marker stage, current = some (marker, stage) →
      marker ∈ s.markers ∧ marker.state = .intent ∧ stage ≠ .requeued) (leases : List String) :
    Inv { s with leases, daemon := some { daemon with pass := some { remaining, current } } } := by
  refine hinv.withDaemon (not_midRequeue_of_stage hdaemon hpass hstage) leases ?_
  rintro _ ⟨⟩
  exact
    { boot := hinv.daemonBoot daemon hdaemon
      unspawned := hinv.intentUnspawned daemon hdaemon
      alone := fun _ => hinv.bootingAlone daemon hdaemon (.inr (by rw [hpass]; rfl))
      current := by
        rintro _ marker stage ⟨⟩
        exact hcurrent marker stage
      pending := by
        rintro _ ⟨⟩ job hjob
        exact hinv.passPending pass (pass_of_daemon hdaemon hpass) job (hremaining job hjob)
      known := by
        rintro _ ⟨⟩ job hjob
        exact hinv.passKnown pass (pass_of_daemon hdaemon hpass) job (hremaining job hjob) }

theorem Inv.passBegin (hcurrent : pass.current = none) {job : Job} {remaining : List Job}
    (hremaining : pass.remaining = job :: remaining) {currentBoot : String}
    (hboot : daemon.bootId = some currentBoot) (now : Time) :
    Inv { (Supervisor.passBegin now currentBoot job s).1 with
      daemon := some { daemon with
        pass := some
          { remaining
            current := (Supervisor.passBegin now currentBoot job s).2.map
              fun marker => (marker, PassStage.marked) } } } := by
  have hstage : ∀ marker, pass.current ≠ some (marker, .requeued) := by simp [hcurrent]
  have htail : ∀ other ∈ remaining, other ∈ pass.remaining := by
    intro other hother
    rw [hremaining]
    exact mem_cons_of_mem _ hother
  have hjob : job ∈ pass.remaining := hremaining ▸ mem_cons_self
  rcases passBegin_cases now currentBoot job s with
    hskip | ⟨marker, hmarker, hintent, hresume⟩ |
      ⟨receipt, deadBoot, hreceipt, hreceiptBoot, hother, hterminations, hfirst, hwrite⟩
  · rw [hskip]
    exact hinv.passNext hdaemon hpass hstage htail (by simp) s.leases
  · rw [hresume]
    refine hinv.passNext hdaemon hpass hstage htail ?_ s.leases
    rintro _ _ ⟨⟩
    exact ⟨hmarker, hintent, by simp⟩
  · rw [hwrite]
    have hcurrentBoot : currentBoot = s.boot := by
      have hsame := hinv.daemonBoot daemon hdaemon
      simpa [SameBoot, hboot] using hsame
    -- a live worker's receipt does not name another boot
    have hdead : ∀ worker ∈ s.workers, worker.jobId ≠ job.id := by
      intro worker hworker hid
      have hsame := hinv.receiptBoot worker hworker receipt (hid ▸ hreceipt)
      rw [SameBoot, hreceiptBoot, ← hcurrentBoot] at hsame
      simp [hother] at hsame
    have hpending : NotPending s.jobs job.id := by
      refine (hinv.passPending pass (pass_of_daemon hdaemon hpass) job hjob).resolve_right ?_
      rintro ⟨old, hold, hid⟩
      exact hfirst old hold hid
    have hunspawned : ∀ daemon', s.daemon = some daemon' → daemon'.unspawned = [] := by
      intro daemon' hdaemon'
      rw [hdaemon] at hdaemon'
      cases hdaemon'
      exact hinv.bootingAlone daemon hdaemon (.inr (by rw [hpass]; rfl))
    have hmarked := hinv.addMarker ⟨job.id, deadBoot, currentBoot, .intent, now⟩
      hfirst hdead hterminations hunspawned hpending
      (hinv.passKnown pass (pass_of_daemon hdaemon hpass) job hjob)
    refine hmarked.passNext hdaemon hpass hstage htail ?_ s.leases
    rintro _ _ ⟨⟩
    exact ⟨by simp, rfl, by simp⟩

/-! ## The durable writes for one job -/

theorem Inv.passRequeue (hcurrent : pass.current = some (marker, .receiptRemoved))
    (reason : String) :
    Inv { s with
      jobs := (applyOp (.requeueRunningAfterReboot marker.jobId reason) s.jobs).1
      moves := s.moves ++
        (applyOp (.requeueRunningAfterReboot marker.jobId reason) s.jobs).2.map Job.id
      daemon := some { daemon with
        pass := some { pass with current := some (marker, .requeued) } } } := by
  have hwhole := not_midRequeue_of_stage hdaemon hpass (by simp [hcurrent])
  have hspass := pass_of_daemon hdaemon hpass
  obtain ⟨hmarker, hintent⟩ := hinv.current pass marker _ hspass hcurrent
  have hnotPending : ∀ jobId, jobId ≠ marker.jobId → NotPending s.jobs jobId →
      NotPending (applyOp (.requeueRunningAfterReboot marker.jobId reason) s.jobs).1 jobId := by
    intro jobId hother hbefore
    exact applyOp_notPending rfl rfl (by simp [requeues, hother.symm]) hbefore
  exact { hinv with
    daemonBoot := by
      rintro _ hnext
      cases hnext
      exact hinv.daemonBoot daemon hdaemon
    intentUnspawned := by
      rintro _ hnext
      cases hnext
      exact hinv.intentUnspawned daemon hdaemon
    intentPending := by
      intro other hother hotherIntent hmid
      by_cases hid : other.jobId = marker.jobId
      · exact absurd ⟨_, marker, rfl, rfl, hid.symm⟩ hmid
      · exact hnotPending _ hid (hinv.intentPending other hother hotherIntent (hwhole _))
    bootingAlone := by
      rintro _ hnext -
      cases hnext
      exact hinv.bootingAlone daemon hdaemon (.inr (by rw [hpass]; rfl))
    current := by
      rintro _ other stage hnext hother
      cases hnext
      cases hother
      exact ⟨hmarker, hintent⟩
    moved := by
      intro jobId hjobId
      rcases mem_append.mp hjobId with hold | hnew
      · obtain ⟨old, hmem, hid, hstate⟩ := hinv.moved jobId hold
        exact ⟨old, hmem, hid, .inl (hstate.resolve_right (hwhole jobId))⟩
      · rcases requeueRunning_moved marker.jobId reason s.jobs with hnone | hone
        · rw [hnone] at hnew
          cases hnew
        · rw [hone] at hnew
          cases mem_singleton.mp hnew
          exact ⟨marker, hmarker, rfl, .inr ⟨_, marker, rfl, rfl, rfl⟩⟩
    once := by
      intro jobId
      rw [count_append]
      have hbefore := hinv.once jobId
      rcases requeueRunning_moved marker.jobId reason s.jobs with hnone | hone
      · rw [hnone]
        simpa using hbefore
      · rw [hone]
        by_cases hid : jobId = marker.jobId
        · rw [hid, count_eq_zero_of_not_mem (hinv.not_moved hwhole hmarker hintent)]
          simp
        · simpa [count_singleton, Ne.symm hid] using hbefore
    passPending := by
      rintro _ hnext job hjob
      cases hnext
      by_cases hid : job.id = marker.jobId
      · exact .inr ⟨marker, hmarker, hid.symm⟩
      · exact (hinv.passPending pass hspass job hjob).imp_left (hnotPending _ hid)
    jobIds := applyOp_jobIds rfl hinv.jobIds
    jobsKnown := applyOp_known rfl hinv.jobsKnown
    passKnown := by
      rintro _ hnext
      cases hnext
      exact hinv.passKnown pass hspass }

theorem Inv.passComplete (hcurrent : pass.current = some (marker, .requeued)) :
    Inv { s with
      markers := writeMarker { marker with state := .requeued } s.markers
      daemon := some { daemon with pass := some { pass with current := none } } } := by
  have hspass := pass_of_daemon hdaemon hpass
  obtain ⟨hmarker, hintent⟩ := hinv.current pass marker _ hspass hcurrent
  have hmem : ∀ other, other ∈ writeMarker { marker with state := .requeued } s.markers ↔
      other = { marker with state := .requeued } ∨
        other ∈ s.markers ∧ other.jobId ≠ marker.jobId :=
    fun _ => mem_writeMarker_complete hmarker hinv.unique
  -- the intent markers are those of before, without the completed one
  have hintents : ∀ other ∈ writeMarker { marker with state := .requeued } s.markers,
      other.state = .intent → other ∈ s.markers ∧ other.jobId ≠ marker.jobId := by
    intro other hother hstate
    refine ((hmem other).mp hother).resolve_left ?_
    rintro rfl
    cases hstate
  have hmid : ∀ jobId, MidRequeue s jobId → jobId = marker.jobId := by
    rintro jobId ⟨other, current, hother, hcurrent', rfl⟩
    rw [hspass] at hother
    cases hother
    rw [hcurrent] at hcurrent'
    cases hcurrent'
    rfl
  have hkept : ∀ jobId, (∃ old ∈ s.markers, old.jobId = jobId) →
      ∃ other ∈ writeMarker { marker with state := .requeued } s.markers,
        other.jobId = jobId := by
    rintro jobId ⟨old, hold, rfl⟩
    by_cases hid : old.jobId = marker.jobId
    · exact ⟨{ marker with state := .requeued }, (hmem _).mpr (.inl rfl), hid.symm⟩
    · exact ⟨old, (hmem _).mpr (.inr ⟨hold, hid⟩), rfl⟩
  exact { hinv with
    daemonBoot := by
      rintro _ hnext
      cases hnext
      exact hinv.daemonBoot daemon hdaemon
    unique := by
      rw [writeMarker_complete_jobIds hmarker]
      exact hinv.unique
    intentAlive := by
      intro worker hworker other hother hstate
      exact hinv.intentAlive worker hworker other (hintents other hother hstate).1 hstate
    intentTermination := by
      intro jobId hjobId other hother hstate
      exact hinv.intentTermination jobId hjobId other (hintents other hother hstate).1 hstate
    intentUnspawned := by
      rintro _ hnext jobId hjobId other hother hstate
      cases hnext
      exact hinv.intentUnspawned daemon hdaemon jobId hjobId other
        (hintents other hother hstate).1 hstate
    intentPending := by
      intro other hother hstate _
      obtain ⟨hold, hid⟩ := hintents other hother hstate
      exact hinv.intentPending other hold hstate fun hmidOther => hid (hmid _ hmidOther)
    bootingAlone := by
      rintro _ hnext -
      cases hnext
      exact hinv.bootingAlone daemon hdaemon (.inr (by rw [hpass]; rfl))
    current := by
      rintro _ other stage hnext hother
      cases hnext
      cases hother
    moved := by
      intro jobId hjobId
      obtain ⟨old, hold, rfl, hstate⟩ := hinv.moved jobId hjobId
      by_cases hid : old.jobId = marker.jobId
      · exact ⟨_, (hmem _).mpr (.inl rfl), hid.symm, .inl rfl⟩
      · exact ⟨old, (hmem _).mpr (.inr ⟨hold, hid⟩), rfl,
          .inl (hstate.resolve_right fun hmidOld => hid (hmid _ hmidOld))⟩
    passPending := by
      rintro _ hnext job hjob
      cases hnext
      exact (hinv.passPending pass hspass job hjob).imp_right (hkept job.id)
    markersKnown := by
      intro other hother
      rcases (hmem other).mp hother with rfl | ⟨hold, -⟩
      · exact hinv.markersKnown marker hmarker
      · exact hinv.markersKnown other hold
    passKnown := by
      rintro _ hnext
      cases hnext
      exact hinv.passKnown pass hspass }

/-- Every durable write of the boot pass keeps the invariant. -/
theorem Inv.passStep {currentBoot : String} (hboot : daemon.bootId = some currentBoot)
    (stamp : Time → String) (now : Time) :
    Inv (Supervisor.passStep stamp now daemon currentBoot pass s) := by
  have hall : ∀ job ∈ pass.remaining, job ∈ pass.remaining := fun _ hjob => hjob
  unfold Supervisor.passStep
  split
  next marker stage hcurrent =>
    have hmarker := hinv.current pass marker stage (pass_of_daemon hdaemon hpass) hcurrent
    cases stage with
    | marked =>
      refine hinv.passNext hdaemon hpass (by simp [hcurrent]) hall ?_ _
      rintro _ _ ⟨⟩
      exact ⟨hmarker.1, hmarker.2, by simp⟩
    | leasesReleased =>
      refine (hinv.removeReceipt marker.jobId).passNext hdaemon hpass (by simp [hcurrent]) hall ?_ _
      rintro _ _ ⟨⟩
      exact ⟨hmarker.1, hmarker.2, by simp⟩
    | receiptRemoved => exact hinv.passRequeue hdaemon hpass hcurrent _
    | requeued => exact hinv.passComplete hdaemon hpass hcurrent
  next hcurrent =>
    split
    · refine hinv.withDaemon (not_midRequeue_of_stage hdaemon hpass (by simp [hcurrent])) s.leases
        fun _ hnext => ?_
      cases hnext
      exact .of_no_pass (hinv.daemonBoot daemon hdaemon) (hinv.intentUnspawned daemon hdaemon)
        (fun hbooting => by simp [Daemon.Booting] at hbooting) rfl
    next job remaining hremaining =>
      exact hinv.passBegin hdaemon hpass hcurrent hremaining hboot now

/-- A step of the boot pass leaves the receipt and the rows of a job alone
while a worker of it lives. -/
theorem passStep_alive {worker : Worker} (hworker : worker ∈ s.workers) (stamp : Time → String)
    (now : Time) (currentBoot : String) :
    (passStep stamp now daemon currentBoot pass s).receipts worker.jobId =
        s.receipts worker.jobId ∧
      (passStep stamp now daemon currentBoot pass s).jobs.filter (·.id = worker.jobId) =
        s.jobs.filter (·.id = worker.jobId) := by
  unfold passStep
  split
  next marker stage hcurrent =>
    obtain ⟨hmarker, hintent⟩ := hinv.current pass marker stage (pass_of_daemon hdaemon hpass)
      hcurrent
    have hother : marker.jobId ≠ worker.jobId :=
      hinv.intentAlive worker hworker marker hmarker hintent
    cases stage with
    | marked => exact ⟨rfl, rfl⟩
    | leasesReleased => exact ⟨Function.update_of_ne hother.symm _ _, rfl⟩
    | receiptRemoved =>
      refine ⟨rfl, ?_⟩
      simp only [passWrite]
      rcases requeueRunning_cases marker.jobId
        (bootRequeueReason ++ ", requeued once at " ++ stamp marker.recordedAt) s.jobs with
        hsame | ⟨before, job, after, hjobs, hid, hmoved⟩
      · rw [hsame]
      · have hjob : job.id ≠ worker.jobId := hid ▸ hother
        have hrequeued : (requeuedAfterReboot (bootRequeueReason ++ ", requeued once at " ++
            stamp marker.recordedAt) job).id ≠ worker.jobId := hjob
        rw [hmoved, hjobs]
        simp [hjob, hrequeued]
    | requeued => exact ⟨rfl, rfl⟩
  · split
    · exact ⟨rfl, rfl⟩
    next job remaining _ =>
      rcases passBegin_cases now currentBoot job s with
        hskip | ⟨marker, -, -, hresume⟩ | ⟨receipt, deadBoot, -, -, -, -, -, hwrite⟩
      · rw [hskip]
        exact ⟨rfl, rfl⟩
      · rw [hresume]
        exact ⟨rfl, rfl⟩
      · rw [hwrite]
        exact ⟨rfl, rfl⟩

end Pass

end Shipyard.Supervisor
