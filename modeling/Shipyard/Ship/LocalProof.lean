import Shipyard.Ship.Reconcile

/-!
# What a reconcile pass leaves alone

Runs that GitHub Actions did not execute keep their status. But evidence is kept per
target, so an older hosted run of a target overwrites the evidence of its newer local
run: the evidence stays exactly where the last status observed for the target agrees
with it.
-/

namespace Shipyard.Ship

open Lib List

/-- The evidence that the rollup gives for a run. -/
def observedEvidence (checks : List Check) (run : DispatchedRun) : Option String :=
  (observedStatus checks run).bind runStatusToEvidence

/-- The evidence that the rollup gives for the last run of a target it gives one for. -/
def lastObserved (checks : List Check) (runs : List DispatchedRun) (target : String) :
    Option String :=
  ((runs.filter fun run => run.target = target).filterMap (observedEvidence checks)).getLast?

variable (checks : List Check)

theorem get?_reconcileEvidence (evidence : SortedMap String String) (run : DispatchedRun)
    (target : String) : (reconcileEvidence checks evidence run).get? target =
      if run.target = target then (observedEvidence checks run).or (evidence.get? target)
      else evidence.get? target := by
  unfold reconcileEvidence observedEvidence
  cases (observedStatus checks run).bind runStatusToEvidence with
  | none => simp
  | some status =>
    dsimp only
    by_cases htarget : run.target = target
    · subst htarget
      by_cases hsame : evidence.get? run.target = some status
      · simp [hsame]
      · simp [hsame]
    · rw [if_neg htarget]
      split
      · exact SortedMap.get?_insert_of_ne _ (Ne.symm htarget) _
      · rfl

theorem lastObserved_cons (run : DispatchedRun) (runs : List DispatchedRun) (target : String) :
    lastObserved checks (run :: runs) target =
      (lastObserved checks runs target).or
        (if run.target = target then observedEvidence checks run else none) := by
  unfold lastObserved
  by_cases htarget : run.target = target
  · rw [filter_cons_of_pos (by simpa using htarget), if_pos htarget, filterMap_cons]
    cases observedEvidence checks run with
    | none => simp
    | some status => simp [getLast?_cons]
  · rw [filter_cons_of_neg (by simpa using htarget), if_neg htarget, Option.or_none]

/-- The evidence of a target after a pass: the last one observed, or the old one. -/
theorem get?_foldl_reconcileEvidence (runs : List DispatchedRun)
    (evidence : SortedMap String String) (target : String) :
    (runs.foldl (reconcileEvidence checks) evidence).get? target =
      (lastObserved checks runs target).or (evidence.get? target) := by
  induction runs generalizing evidence with
  | nil => rfl
  | cons run rest ih =>
    rw [foldl_cons, ih, lastObserved_cons, get?_reconcileEvidence, Option.or_assoc]
    split <;> simp

/-- A pass leaves local runs, and the evidence of targets whose latest run is local. -/
structure LeavesLocalProofs (state : ShipState) (checks : List Check) (now : Time) : Prop where
  evidence : ∀ target run, state.getRun target = some run →
    runIsGithubActionsBacked run = false →
      (reconcileShipState state checks now).state.evidenceSnapshot.get? target =
        state.evidenceSnapshot.get? target
  runs : ∀ (index : Nat) run, state.dispatchedRuns[index]? = some run →
    runIsGithubActionsBacked run = false →
      (reconcileShipState state checks now).state.dispatchedRuns[index]? = some run

/-- It does exactly where the last evidence observed for such a target, if any, is the
one already stored. -/
theorem leaves_local_proofs_iff (state : ShipState) (checks : List Check) (now : Time) :
    LeavesLocalProofs state checks now ↔
      ∀ target run, state.getRun target = some run → runIsGithubActionsBacked run = false →
        ∀ status, lastObserved checks state.dispatchedRuns target = some status →
          state.evidenceSnapshot.get? target = some status := by
  have hevidence (target : String) :
      (reconcileShipState state checks now).state.evidenceSnapshot.get? target =
        (lastObserved checks state.dispatchedRuns target).or
          (state.evidenceSnapshot.get? target) :=
    get?_foldl_reconcileEvidence checks state.dispatchedRuns state.evidenceSnapshot target
  constructor
  · intro hleaves target run hrun hlocal status hstatus
    have hsame := hleaves.evidence target run hrun hlocal
    rw [hevidence, hstatus] at hsame
    exact hsame.symm
  · intro hagrees
    refine ⟨fun target run hrun hlocal => ?_, fun index run hrun hlocal => ?_⟩
    · rw [hevidence]
      cases hstatus : lastObserved checks state.dispatchedRuns target with
      | none => rfl
      | some status => exact (hagrees target run hrun hlocal status hstatus).symm
    · change (state.dispatchedRuns.map (reconcileRun checks now))[index]? = some run
      simp [hrun, reconcileRun, changedStatus, observedStatus, hlocal]

/-- A hosted run of the target `mac`, and a newer local run that failed. -/
def hostedThenLocal : ShipState where
  pr := 7
  repo := "owner/repo"
  updatedAt := 2
  dispatchedRuns :=
    [{ target := "mac", provider := "github", runId := "123", status := "completed",
       startedAt := 0, updatedAt := 1, attempt := 1 },
     { target := "mac", provider := "local", runId := "sy-1", status := "failed",
       startedAt := 1, updatedAt := 2, attempt := 1 }]
  evidenceSnapshot := SortedMap.empty.insert "mac" "fail"

/-- The failed local proof is overwritten by a green hosted check. -/
theorem local_proof_is_overwritten :
    ¬ LeavesLocalProofs hostedThenLocal
      [{ name := some (.str "mac"), state := some (.str "COMPLETED"),
         conclusion := some (.str "SUCCESS") }] 3 := by
  intro hleaves
  have hsame := hleaves.evidence "mac" _ (by rfl) (by decide +kernel)
  revert hsame
  decide +kernel

end Shipyard.Ship
