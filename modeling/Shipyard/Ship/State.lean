import Shipyard.Job
import Shipyard.Lib.Table

/-!
# The state of an in-flight ship

`ship_state.rs`, `update_ship_state_from_job` of `ship.rs`, and the terminal
verdict of `watch.rs`. Runs are kept per target and run id and accumulate over
the attempts of a ship; evidence is kept per target.
-/

namespace Shipyard.Ship

open Lib

/-- A run that was dispatched for a target. -/
structure DispatchedRun where
  target : String
  provider : String
  runId : String
  status : String
  startedAt : Time
  updatedAt : Time
  attempt : Nat
  lastHeartbeatAt : Option Time := none
  phase : Option String := none
  /-- Whether this lane blocks the merge. -/
  required : Bool := true
deriving DecidableEq

structure ShipState where
  pr : Nat
  repo : String
  dispatchedRuns : List DispatchedRun := []
  evidenceSnapshot : SortedMap String String := .empty
  attempt : Nat := 1
  updatedAt : Time
  /-- Whether a terminal abandonment marker is recorded. -/
  abandoned : Bool := false
deriving DecidableEq

/-! ## Runs and evidence -/

/-- The identity under which a run is stored. -/
def DispatchedRun.key (run : DispatchedRun) : String × String := (run.target, run.runId)

def ShipState.touch (now : Time) (state : ShipState) : ShipState := { state with updatedAt := now }

/-- Insert or replace a run by target and run id. -/
def ShipState.upsertRun (now : Time) (run : DispatchedRun) (state : ShipState) : ShipState :=
  { state with dispatchedRuns := upsert DispatchedRun.key run state.dispatchedRuns }.touch now

/-- The most recently updated run of a target. -/
def ShipState.getRun (target : String) (state : ShipState) : Option DispatchedRun :=
  maxByKey DispatchedRun.updatedAt (state.dispatchedRuns.filter fun run => run.target = target)

def ShipState.updateEvidence (now : Time) (target status : String) (state : ShipState) :
    ShipState :=
  { state with evidenceSnapshot := state.evidenceSnapshot.insert target status }.touch now

/-! ## Recording the results of a job -/

structure ResolvedTarget where
  name : String
  backendName : String
deriving DecidableEq

/-- The targets of a ship request, and those whose failures do not block the merge. -/
structure ShipExecutionRequest where
  targets : List ResolvedTarget := []
  advisoryTargets : List String := []
deriving DecidableEq

def evidenceStatus (result : TargetResult) : String := if result.passed then "pass" else "fail"

def dispatchedRun (now : Time) (state : ShipState) (job : Job) (result : TargetResult)
    (target : Option ResolvedTarget) (required : Bool) : DispatchedRun where
  target := result.targetName
  provider := (result.provider.or result.primaryBackend).getD
    (target.elim result.backend ResolvedTarget.backendName)
  runId := result.cloudRunId.elim job.id toString
  status := if result.passed then "completed" else "failed"
  startedAt := result.startedAt.getD now
  updatedAt := result.completedAt.getD now
  attempt := state.attempt
  lastHeartbeatAt := result.lastHeartbeatAt
  phase := result.phase
  required := required

/-- The target of a name; the map built from the request keeps the last one. -/
def ShipExecutionRequest.target? (request : ShipExecutionRequest) (name : String) :
    Option ResolvedTarget :=
  (request.targets.filter fun target => target.name = name).getLast?

def recordResult (now : Time) (request : ShipExecutionRequest) (job : Job) (state : ShipState)
    (result : TargetResult) : ShipState :=
  let state := state.updateEvidence now result.targetName (evidenceStatus result)
  let run := dispatchedRun now state job result (request.target? result.targetName)
    (result.targetName ∉ request.advisoryTargets)
  state.upsertRun now run

def updateShipStateFromJob (now : Time) (request : ShipExecutionRequest) (job : Job)
    (state : ShipState) : ShipState :=
  job.results.values.foldl (recordResult now request job) state

/-! ## The verdict -/

/-- `some true` for terminal success, `some false` for terminal failure, `none`
while the ship is in flight. -/
def shipTerminalVerdict (state : ShipState) : Option Bool :=
  if state.abandoned then some false
  else if state.evidenceSnapshot.entries.isEmpty then none
  else if state.evidenceSnapshot.values.any fun status => status ≠ "pass" && status ≠ "fail" then
    none
  else
    let advisoryTargets :=
      (state.dispatchedRuns.filter fun run => !run.required).map DispatchedRun.target
    let requiredTargets :=
      (state.dispatchedRuns.filter fun run => run.required).map DispatchedRun.target
    if requiredTargets.any fun target => target ∉ state.evidenceSnapshot.keys then none
    else
      some (state.evidenceSnapshot.entries.all fun entry =>
        entry.2 = "pass" || entry.1 ∈ advisoryTargets)

end Shipyard.Ship
