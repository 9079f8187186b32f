import Shipyard.Queue.Lifecycle

/-!
# Recovery of jobs whose process died

Recovery completes running jobs and is meant to leave a terminal result for
every target. A worker stores a result with status `running` before it
dispatches a target. Recovery fills in missing results only, so exactly such a
placeholder survives: the recovered job is completed, and a target of it is
still in progress.
-/

namespace Shipyard.Queue

open Lib List

/-- The placeholder that a worker stores before it dispatches a target. -/
def runningResult (targetName platform backend : String) (startedAt : Option Time) :
    TargetResult :=
  { TargetResult.new targetName platform .running backend with startedAt }

/-- Which running jobs a recovery operation selects: all, or those listed. -/
def selects (selection : Option (List String)) (job : Job) : Bool :=
  match selection with
  | none => true
  | some jobIds => job.id ∈ jobIds

/-- The two recovery operations of a drain owner. -/
def recoverForDrain (now : Time) (selection : Option (List String)) (jobs : List Job) :
    Saved (List Job) :=
  match selection with
  | none => recoverStaleRunningJobsForDrain now jobs
  | some jobIds => recoverSelectedRunningJobsForDrain now jobIds jobs

/-- The row is completed, has a terminal result for each target of the job, and
has the job's terminal results unchanged. -/
structure RecoveredFrom (job row : Job) : Prop where
  completed : row.status = .completed
  terminal : ∀ name ∈ job.targetNames, ∃ result, row.results.get? name = some result ∧
    result.isTerminal = true
  unchanged : ∀ name result, job.results.get? name = some result → result.isTerminal = true →
    row.results.get? name = some result

theorem get?_recoveredJob (now : Time) (job : Job) (name : String) :
    (recoveredJob now job).results.get? name =
      if name ∈ job.targetNames then
        some ((job.results.get? name).getD (staleRecoveryResult name))
      else job.results.get? name :=
  SortedMap.get?_insertAllIfAbsent job.results staleRecoveryResult job.targetNames name

/-- Recovery of one job is complete exactly when no result stored for one of
its targets is in progress. -/
theorem recoveredFrom_recoveredJob_iff (now : Time) (job : Job) :
    RecoveredFrom job (recoveredJob now job) ↔
      ∀ name ∈ job.targetNames, ∀ result, job.results.get? name = some result →
        result.isTerminal = true := by
  constructor
  · intro hrecovered name hname result hresult
    obtain ⟨kept, hkept, hterminal⟩ := hrecovered.terminal name hname
    rw [get?_recoveredJob, if_pos hname, hresult, Option.getD_some] at hkept
    rwa [Option.some.inj hkept]
  · intro hstored
    refine ⟨rfl, fun name hname => ?_, fun name result hresult _ => ?_⟩
    · rw [get?_recoveredJob, if_pos hname]
      refine ⟨_, rfl, ?_⟩
      cases hresult : job.results.get? name with
      | none => rfl
      | some result => exact hstored name hname result hresult
    · rw [get?_recoveredJob, hresult, Option.getD_some]
      split <;> rfl

/-- What recovery promises: each selected running job is recovered, every other
row is unchanged before trimming, and the returned jobs are recovered ones. -/
structure RecoversJobs (selection : Option (List String)) (jobs : List Job)
    (saved : Saved (List Job)) : Prop where
  rows : List.Forall₂ (fun job row =>
    if job.status = .running ∧ selects selection job = true then RecoveredFrom job row
    else row = job) jobs saved.rows
  stored : saved.stored = (trimTerminal saved.rows).1
  returned : ∀ row ∈ saved.answer, ∃ job ∈ jobs, job.status = .running ∧
    selects selection job = true ∧ RecoveredFrom job row

/-- Recovery keeps its promise exactly when no selected running job stores, for
one of its targets, a result that is still in progress. -/
theorem recovery_leaves_terminal_results_iff (now : Time) (selection : Option (List String))
    (jobs : List Job) :
    RecoversJobs selection jobs (recoverForDrain now selection jobs) ↔
      ∀ job ∈ jobs, job.status = .running → selects selection job = true →
        ∀ name ∈ job.targetNames, ∀ result, job.results.get? name = some result →
          result.isTerminal = true := by
  have hdrain : recoverForDrain now selection jobs =
      saveTrimmed (recoverRunningJobsMatching now (selects selection) jobs).1
        (recoverRunningJobsMatching now (selects selection) jobs).2 := by
    cases selection <;> rfl
  rw [hdrain]
  constructor
  · intro hrecovers job hjob hrunning hselected
    have hrows := forall₂_same.mp (forall₂_map_right_iff.mp hrecovers.rows) job hjob
    simp only [hrunning, hselected, and_self, if_true, decide_true, Bool.and_self] at hrows
    exact (recoveredFrom_recoveredJob_iff now job).mp hrows
  · intro hstored
    have hone : ∀ job ∈ jobs, job.status = .running → selects selection job = true →
        RecoveredFrom job (recoveredJob now job) := by
      intro job hjob hrunning hselected
      exact (recoveredFrom_recoveredJob_iff now job).mpr (hstored job hjob hrunning hselected)
    refine ⟨?_, rfl, fun row hrow => ?_⟩
    · refine forall₂_map_right_iff.mpr (forall₂_same.mpr fun job hjob => ?_)
      split
      next hselected =>
        simp only [hselected.1, hselected.2, decide_true, Bool.and_self, if_true]
        exact hone job hjob hselected.1 hselected.2
      next hselected =>
        rw [if_neg (by simpa using hselected)]
    · simp only [saveTrimmed, recoverRunningJobsMatching, mem_map, mem_filter,
        Bool.and_eq_true, decide_eq_true_eq] at hrow
      obtain ⟨job, ⟨hjob, hrunning, hselected⟩, rfl⟩ := hrow
      exact ⟨job, hjob, hrunning, hselected, hone job hjob hrunning hselected⟩

/-- A job whose worker died while its only target was executing. -/
def interruptedJob : Job :=
  Job.withResult (runningResult "mac" "macos" "local" (some 1))
    { Job.create "sy-1" "abc" "main" ["mac"] .full .normal 0 with
      status := .running
      startedAt := some 1 }

/-- The recovered job is completed, and its target is still in progress. -/
theorem recovery_keeps_placeholder :
    ∃ row ∈ (recoverForDrain 5 none [interruptedJob]).stored, row.status = .completed ∧
      row.targetNames = ["mac"] ∧
      (row.results.get? "mac").map TargetResult.isTerminal = some false ∧
      ¬RecoversJobs none [interruptedJob] (recoverForDrain 5 none [interruptedJob]) := by
  refine ⟨recoveredJob 5 interruptedJob, by decide, rfl, rfl, by decide, fun hrecovers => ?_⟩
  have hrow : RecoveredFrom interruptedJob (recoveredJob 5 interruptedJob) :=
    (forall₂_cons.mp hrecovers.rows).1
  have hterminal := (recoveredFrom_recoveredJob_iff 5 interruptedJob).mp hrow "mac" (by decide)
    (runningResult "mac" "macos" "local" (some 1)) rfl
  cases hterminal

end Shipyard.Queue
