import Shipyard.Lib.Machine
import Shipyard.Ship.Reconcile

/-!
# What a successful verdict means

The verdict excuses a failing target as soon as any of its runs is advisory,
also when a newer run of it is required. While every written run finds no
conflicting run of its target, a target with an advisory run has an advisory
run that is newer than all its required ones; then a successful verdict means
that every target whose most recent run is required has passed.
-/

namespace Shipyard.Ship

open Lib List

/-! ## The shape of the stored runs -/

/-- A run may be written beside the other runs of its target: beside required
ones if it is required, else beside advisory ones and older required ones. -/
def writtenInOrder (run : DispatchedRun) (runs : List DispatchedRun) : Bool :=
  runs.all fun other => other.target ≠ run.target || other.runId = run.runId ||
    if run.required then other.required
    else !other.required || other.updatedAt < run.updatedAt

variable {runs : List DispatchedRun}

theorem writtenInOrder_iff {run : DispatchedRun} :
    writtenInOrder run runs = true ↔ ∀ other ∈ runs, other.target = run.target →
      other.runId ≠ run.runId → (run.required = true → other.required = true) ∧
        (run.required = false → other.required = true → other.updatedAt < run.updatedAt) := by
  rw [writtenInOrder, all_eq_true]
  refine forall₂_congr fun other _ => ?_
  cases run.required <;> cases other.required <;> simp <;> tauto

structure RunsInv (runs : List DispatchedRun) : Prop where
  keys : (runs.map DispatchedRun.key).Nodup
  advisoryLatest : ∀ run ∈ runs, run.required = false →
    ∃ latest ∈ runs, latest.target = run.target ∧ latest.required = false ∧
      ∀ other ∈ runs, other.target = run.target → other.required = true →
        other.updatedAt < latest.updatedAt

theorem RunsInv.upsert (hinv : RunsInv runs) {run : DispatchedRun}
    (horder : writtenInOrder run runs = true) :
    RunsInv (Lib.upsert DispatchedRun.key run runs) := by
  rw [writtenInOrder_iff] at horder
  have hmem : ∀ other, other ∈ Lib.upsert DispatchedRun.key run runs ↔
      other = run ∨ other ∈ runs ∧ other.key ≠ run.key := fun _ => mem_upsert hinv.keys
  have hothers : ∀ other, other ∈ runs ∧ other.key ≠ run.key → other.target = run.target →
      (run.required = true → other.required = true) ∧
        (run.required = false → other.required = true → other.updatedAt < run.updatedAt) := by
    rintro other ⟨hother, hkey⟩ htarget
    refine horder other hother htarget fun hid => hkey ?_
    rw [DispatchedRun.key, DispatchedRun.key, htarget, hid]
  refine ⟨upsert_keys_nodup hinv.keys run, fun advisory hadvisory hrequired => ?_⟩
  by_cases htarget : advisory.target = run.target
  · -- the written run is advisory itself, and newer than the required ones
    have hrun : run.required = false := by
      rcases (hmem advisory).mp hadvisory with rfl | hold
      · exact hrequired
      · by_contra hreq
        have hcontra := (hothers advisory hold htarget).1 (by simpa using hreq)
        rw [hrequired] at hcontra
        cases hcontra
    refine ⟨run, (hmem run).mpr (.inl rfl), htarget.symm, hrun, fun other hother hsame hreq => ?_⟩
    rcases (hmem other).mp hother with rfl | hold
    · rw [hrun] at hreq
      cases hreq
    · exact (hothers other hold (hsame.trans htarget)).2 hrun hreq
  · -- the runs of another target are as they were
    have hold : ∀ other, other.target = advisory.target →
        (other ∈ Lib.upsert DispatchedRun.key run runs ↔ other ∈ runs) := by
      intro other hsame
      have hne : other.target ≠ run.target := fun heq => htarget (hsame.symm.trans heq)
      rw [hmem other]
      constructor
      · rintro (rfl | ⟨hother, -⟩)
        · exact absurd rfl hne
        · exact hother
      · exact fun hother => .inr ⟨hother, fun hkey => hne (Prod.ext_iff.mp hkey).1⟩
    obtain ⟨latest, hlatest, hsame, hreq, hnewer⟩ :=
      hinv.advisoryLatest advisory ((hold advisory rfl).mp hadvisory) hrequired
    refine ⟨latest, (hold latest hsame).mpr hlatest, hsame, hreq, fun other hother hothersame => ?_⟩
    exact hnewer other ((hold other hothersame).mp hother) hothersame

/-- Writing a run does not get in the way of another run of its class. -/
theorem writtenInOrder_upsert (hkeys : (runs.map DispatchedRun.key).Nodup)
    {run next : DispatchedRun} (hnext : writtenInOrder next runs = true)
    (hclass : run.target = next.target → run.required = next.required) :
    writtenInOrder next (Lib.upsert DispatchedRun.key run runs) = true := by
  rw [writtenInOrder_iff] at hnext ⊢
  intro other hother htarget hid
  rcases (mem_upsert hkeys).mp hother with rfl | ⟨hold, -⟩
  · rw [hclass htarget]
    refine ⟨id, fun hadvisory hreq => ?_⟩
    rw [hadvisory] at hreq
    cases hreq
  · exact hnext other hold htarget hid

/-! ## Recording the results of a job -/

/-- The run that `update_ship_state_from_job` writes for a result. -/
def recordedRun (now : Time) (request : ShipExecutionRequest) (job : Job) (state : ShipState)
    (result : TargetResult) : DispatchedRun :=
  dispatchedRun now state job result (request.target? result.targetName)
    (result.targetName ∉ request.advisoryTargets)

variable {state : ShipState}

theorem RunsInv.recordResults {now : Time} {request : ShipExecutionRequest} {job : Job}
    (results : List TargetResult) (hinv : RunsInv state.dispatchedRuns)
    (horder : ∀ result ∈ results, writtenInOrder (recordedRun now request job state result)
      state.dispatchedRuns = true) :
    RunsInv (results.foldl (recordResult now request job) state).dispatchedRuns := by
  induction results generalizing state with
  | nil => exact hinv
  | cons first rest ih =>
    rw [foldl_cons]
    refine ih (hinv.upsert (horder first mem_cons_self)) fun result hresult => ?_
    -- what the loop wrote before does not change the written run
    change writtenInOrder (recordedRun now request job state result) (Lib.upsert _ _ _) = true
    refine writtenInOrder_upsert hinv.keys (horder result (.tail _ hresult)) fun htarget => ?_
    -- the class of a run is that of its target in the request
    have hname : first.targetName = result.targetName := htarget
    simp only [recordedRun, dispatchedRun, hname]

/-! ## A reconcile pass -/

variable (checks : List Check) (now : Time) (run : DispatchedRun)

theorem reconcileRun_target : (reconcileRun checks now run).target = run.target := by
  unfold reconcileRun
  split <;> rfl

theorem reconcileRun_required : (reconcileRun checks now run).required = run.required := by
  unfold reconcileRun
  split <;> rfl

theorem reconcileRun_runId : (reconcileRun checks now run).runId = run.runId := by
  unfold reconcileRun
  split <;> rfl

theorem reconcileRun_updatedAt : (reconcileRun checks now run).updatedAt =
      if (changedStatus checks run).isSome then now else run.updatedAt := by
  unfold reconcileRun
  split
  next hchanged => simp [hchanged]
  next hsame => simp [hsame]

/-- Every run that a pass changes is written in order. -/
def reconciledInOrder (checks : List Check) (now : Time) (runs : List DispatchedRun) : Bool :=
  runs.all fun run => (changedStatus checks run).isNone ||
    writtenInOrder (reconcileRun checks now run) runs

theorem RunsInv.reconcile (hinv : RunsInv runs) {checks : List Check} {now : Time}
    (horder : reconciledInOrder checks now runs = true) :
    RunsInv (runs.map (reconcileRun checks now)) := by
  have hwritten : ∀ run ∈ runs, (changedStatus checks run).isSome = true → ∀ other ∈ runs,
      other.target = run.target → other.required ≠ run.required →
      run.required = false ∧ other.updatedAt < now := by
    intro run hrun hchanged other hother htarget hclass
    have hall := all_eq_true.mp horder run hrun
    rw [Bool.or_eq_true, Option.isNone_iff_eq_none] at hall
    have hrunOrder := hall.resolve_left fun hnone => by simp [hnone] at hchanged
    rw [writtenInOrder_iff] at hrunOrder
    have hid : other.runId ≠ run.runId := by
      intro hid
      have hsame : other = run := inj_on_of_nodup_map hinv.keys hother hrun
        (Prod.ext htarget hid)
      exact hclass (congrArg _ hsame)
    have hfacts := hrunOrder other hother (by rw [reconcileRun_target, htarget])
      (by rwa [reconcileRun_runId])
    rw [reconcileRun_required, reconcileRun_updatedAt, if_pos hchanged] at hfacts
    cases hrequired : run.required with
    | true =>
      rw [hrequired] at hclass
      exact absurd (hfacts.1 hrequired) hclass
    | false =>
      rw [hrequired] at hclass
      exact ⟨rfl, hfacts.2 hrequired (by simpa using hclass)⟩
  constructor
  case keys =>
    have hsame : DispatchedRun.key ∘ reconcileRun checks now = DispatchedRun.key := by
      funext run
      simp only [Function.comp_apply, DispatchedRun.key, reconcileRun_target, reconcileRun_runId]
    rw [map_map, hsame]
    exact hinv.keys
  case advisoryLatest =>
    intro advisory' hadvisory' hrequired
    obtain ⟨advisory, hadvisory, rfl⟩ := mem_map.mp hadvisory'
    rw [reconcileRun_required] at hrequired
    obtain ⟨latest, hlatest, hsame, hlatestReq, hnewer⟩ :=
      hinv.advisoryLatest advisory hadvisory hrequired
    refine ⟨reconcileRun checks now latest, mem_map_of_mem hlatest, ?_, ?_, ?_⟩
    · rw [reconcileRun_target, reconcileRun_target, hsame]
    · rw [reconcileRun_required, hlatestReq]
    · intro other' hother' htarget hreq
      obtain ⟨other, hother, rfl⟩ := mem_map.mp hother'
      rw [reconcileRun_target, reconcileRun_target] at htarget
      rw [reconcileRun_required] at hreq
      have hclass : latest.required ≠ other.required := by simp [hlatestReq, hreq]
      -- a required run beside an advisory one is not changed by the pass
      have hunchanged : ¬(changedStatus checks other).isSome = true := by
        intro hchanged
        have hadv := (hwritten other hother hchanged latest hlatest (hsame.trans htarget.symm)
          hclass).1
        rw [hreq] at hadv
        cases hadv
      rw [reconcileRun_updatedAt, reconcileRun_updatedAt, if_neg hunchanged]
      split
      next hchanged =>
        exact (hwritten latest hlatest hchanged other hother (htarget.trans hsame.symm)
          hclass.symm).2
      · exact hnewer other hother htarget hreq

/-! ## The verdict over whole runs -/

/-- The most recent run of a target with an advisory run is advisory. -/
theorem RunsInv.getRun_advisory (hinv : RunsInv state.dispatchedRuns)
    {advisory best : DispatchedRun} (hadvisory : advisory ∈ state.dispatchedRuns)
    (hrequired : advisory.required = false) (hbest : state.getRun advisory.target = some best) :
    best.required = false := by
  obtain ⟨latest, hlatest, hsame, hlatestReq, hnewer⟩ :=
    hinv.advisoryLatest advisory hadvisory hrequired
  obtain ⟨hmem, htarget⟩ := mem_filter.mp (maxBy_mem hbest)
  have hle : latest.updatedAt ≤ best.updatedAt :=
    le_maxByKey hbest (mem_filter.mpr ⟨hlatest, decide_eq_true hsame⟩)
  by_contra hreq
  have hlt := hnewer best hmem (of_decide_eq_true htarget) (by simpa using hreq)
  exact absurd hle (not_le.mpr hlt)

theorem shipTerminalVerdict_success (hverdict : shipTerminalVerdict state = some true) :
    state.abandoned = false ∧ state.evidenceSnapshot.entries ≠ [] ∧
      (∀ run ∈ state.dispatchedRuns, run.required = true →
        run.target ∈ state.evidenceSnapshot.keys) ∧
      ∀ entry ∈ state.evidenceSnapshot.entries, entry.2 = "pass" ∨
        ∃ run ∈ state.dispatchedRuns, run.required = false ∧ run.target = entry.1 := by
  simp only [shipTerminalVerdict] at hverdict
  split_ifs at hverdict with habandoned hempty hopen hunseen
  · cases hverdict
  · refine ⟨by simpa using habandoned, by simpa using hempty, ?_, ?_⟩
    · intro run hrun hrequired
      by_contra hkey
      refine hunseen (any_eq_true.mpr ⟨run.target, ?_, decide_eq_true hkey⟩)
      exact mem_map_of_mem (mem_filter.mpr ⟨hrun, hrequired⟩)
    · intro entry hentry
      have hall := all_eq_true.mp (Option.some.inj hverdict) entry hentry
      rw [Bool.or_eq_true, decide_eq_true_eq, decide_eq_true_eq] at hall
      refine hall.imp_right fun hmem => ?_
      obtain ⟨run, hrun, htarget⟩ := mem_map.mp hmem
      obtain ⟨hstored, hrequired⟩ := mem_filter.mp hrun
      exact ⟨run, hstored, by simpa using hrequired, htarget⟩

inductive ShipLabel where
  | update (now : Time) (request : ShipExecutionRequest) (job : Job)
  | reconcile (now : Time) (statusCheckRollup : List Check)

/-- One ship state, from its creation, under results of jobs and reconcile passes. -/
def shipMachine : Machine ShipState ShipLabel where
  init state := state.dispatchedRuns = [] ∧ state.evidenceSnapshot = .empty
  exec state
    | .update now request job => some (updateShipStateFromJob now request job state)
    | .reconcile now checks => some (reconcileShipState state checks now).state

/-- Every run that the step writes finds no conflicting run of its target. -/
def writesInOrder (state : ShipState) : ShipLabel → Bool
  | .update now request job => job.results.values.all fun result =>
    writtenInOrder (recordedRun now request job state result) state.dispatchedRuns
  | .reconcile now checks => reconciledInOrder checks now state.dispatchedRuns

abbrev WritesInOrder (state : ShipState) (label : ShipLabel) : Prop :=
  writesInOrder state label = true

theorem runsInv_of_reachable (hreach : shipMachine.ReachableWhen WritesInOrder state) :
    RunsInv state.dispatchedRuns := by
  refine hreach.invariant (I := fun state => RunsInv state.dispatchedRuns) ?_ ?_
  · rintro state ⟨hruns, -⟩
    rw [hruns]
    constructor <;> simp
  · intro state label state' hinv horder hexec
    cases label with
    | update now request job =>
      cases hexec
      exact hinv.recordResults _ (all_eq_true.mp horder)
    | reconcile now checks =>
      cases hexec
      exact hinv.reconcile horder

/-- In every run in which each written run finds no conflicting run of its
target, a successful verdict means that the ship is not abandoned, has evidence,
and that every target whose most recent run is required has passed. -/
theorem success_means_required_targets_passed {state : ShipState}
    (hreach : shipMachine.ReachableWhen WritesInOrder state)
    (hverdict : shipTerminalVerdict state = some true) :
    state.abandoned = false ∧ state.evidenceSnapshot.entries ≠ [] ∧
      ∀ target run, state.getRun target = some run → run.required = true →
        state.evidenceSnapshot.get? target = some "pass" := by
  have hinv := runsInv_of_reachable hreach
  obtain ⟨habandoned, hevidence, hseen, hpassed⟩ := shipTerminalVerdict_success hverdict
  refine ⟨habandoned, hevidence, fun target run hrun hrequired => ?_⟩
  obtain ⟨hmem, htarget⟩ := mem_filter.mp (maxBy_mem hrun)
  have htarget : run.target = target := of_decide_eq_true htarget
  obtain ⟨status, hentry, hget⟩ := SortedMap.get?_of_mem_keys (hseen run hmem hrequired)
  rw [htarget] at hentry hget
  rw [hget]
  rcases hpassed _ hentry with hpass | ⟨advisory, hadvisory, hadvisoryReq, hadvisoryTarget⟩
  · exact congrArg some hpass
  · rw [← show advisory.target = target from hadvisoryTarget] at hrun
    have hbest := hinv.getRun_advisory hadvisory hadvisoryReq hrun
    rw [hrequired] at hbest
    cases hbest

/-! ## The excused failure -/

/-- A completed job whose only result is that of target `mac`. -/
def macJob (id : String) (status : TargetStatus) (completedAt : Time) : Job :=
  { Job.create id "abc" "main" ["mac"] .full .normal 0 with
    status := .completed
    results := SortedMap.empty.insert "mac"
      { TargetResult.new "mac" "macos" status "local" with completedAt := some completedAt } }

/-- A ship state before its first attempt. -/
def freshShip : ShipState := { pr := 7, repo := "acme/app", updatedAt := 0 }

/-- The first attempt runs `mac` as advisory, the second as required. -/
def promoted : ShipState :=
  updateShipStateFromJob 20 {} (macJob "sy-2" .fail 20)
    (updateShipStateFromJob 10 { advisoryTargets := ["mac"] } (macJob "sy-1" .pass 10) freshShip)

/-- The most recent run of `mac` is required and failed; the verdict is success
because an older run of `mac` was advisory. -/
theorem older_advisory_run_excuses_required_failure :
    shipMachine.Reachable promoted ∧ shipTerminalVerdict promoted = some true ∧
      (promoted.getRun "mac").map (fun run => (run.runId, run.required)) = some ("sy-2", true) ∧
      promoted.evidenceSnapshot.get? "mac" = some "fail" := by
  refine ⟨?_, by decide, by decide, by decide⟩
  have hstart : shipMachine.Reachable freshShip := .start ⟨rfl, rfl⟩
  have hfirst := hstart.step
    (l := .update 10 { advisoryTargets := ["mac"] } (macJob "sy-1" .pass 10)) trivial rfl
  exact hfirst.step (l := .update 20 {} (macJob "sy-2" .fail 20)) trivial rfl

/-- A required target that fails first and passes in the next attempt. -/
def retried : ShipState :=
  updateShipStateFromJob 20 {} (macJob "sy-2" .pass 20)
    (updateShipStateFromJob 10 {} (macJob "sy-1" .fail 10) freshShip)

theorem retried_success_means_passed :
    shipTerminalVerdict retried = some true ∧ retried.abandoned = false ∧
      retried.evidenceSnapshot.entries ≠ [] ∧
      ∀ target run, retried.getRun target = some run → run.required = true →
        retried.evidenceSnapshot.get? target = some "pass" := by
  have hstart : shipMachine.ReachableWhen WritesInOrder freshShip := .start ⟨rfl, rfl⟩
  have hfirst := hstart.step (l := .update 10 {} (macJob "sy-1" .fail 10)) (by decide) rfl
  have hsecond := hfirst.step (l := .update 20 {} (macJob "sy-2" .pass 20)) (by decide) rfl
  exact ⟨by decide, success_means_required_targets_passed hsecond (by decide)⟩

end Shipyard.Ship
