import Shipyard.Landability.Lane

/-!
# Resolving required contexts to lanes

For each required context, the jobs that may produce it and all they need; for each of
these jobs, the lanes its `runs-on` may ask for.
-/

namespace Shipyard.Landability

open Lib

structure AssessInput where
  contexts : List String
  contextsSource : String
  jobs : List WorkflowJob
  /-- Routing variables by name. -/
  vars : List (String × String)
  fleet : Fleet
  censusBoundary : Option Boundary
  variablesBoundary : Option Boundary
  allowUnserved : List String

structure LandabilityReport where
  contexts : List String
  contextsSource : String
  lanes : List LaneAssessment
  contextsWithoutProducer : List String
  freshAttesters : List String
  warnings : List String

section Jobs

variable (input : AssessInput) (context : String) (now : Time)

/-- An unknown lane carries a boundary and a next action. -/
def unknownLane (jobId : String) (role : LaneRole) (detail : String) (boundary : Boundary) :
    Option LaneAssessment :=
  (assessLane input.fleet context jobId role "unresolved" "" (some boundary) now).map fun lane =>
    let action := boundary.nextAction
    { lane with
      verdict := .unknown
      report := { lane.report with detail := s!"{detail} - {action}" } }

def lookupVariable (name : String) : Option String :=
  (input.vars.find? fun entry => entry.1 = name).map Prod.snd

def isRoutingVariable (name : String) : Bool :=
  "_RUNS_ON_JSON".toList.isSuffixOf name.toList

/-- The jobs whose variables are candidates for a `runs-on` that is computed at run
time: those named, or all the job needs. -/
def dynamicSources (job : WorkflowJob) (fromJobs : List String) : List String :=
  if fromJobs.isEmpty then job.needs else fromJobs

/-- The routing variables that the sources read, in order of first appearance. -/
def dynamicCandidates (jobs : List WorkflowJob) (sources : List String) : List String :=
  ((sources.flatMap fun source => ((jobNamed jobs source).map WorkflowJob.varRefs).getD []).filter
    isRoutingVariable).eraseDups

/-- Where some candidate can be scheduled, only the best one counts. -/
def keepBest (lanes : List LaneAssessment) : List LaneAssessment :=
  if lanes.any fun lane => !lane.verdict.blocks && lane.verdict ≠ .unknown then
    (lanes.insertionSort fun first second => first.verdict.rank ≤ second.verdict.rank).take 1
  else lanes

/-- The candidates that are set, with their values. -/
def setCandidates (candidates : List String) : List (String × String) :=
  candidates.filterMap fun name => (lookupVariable input name).map fun raw => (name, raw)

/-- The lane of a candidate that is set. -/
def candidateLane (job : WorkflowJob) (role : LaneRole) (origin all : String)
    (entry : String × String) : Option LaneAssessment :=
  let name := entry.1
  assessLane input.fleet context job.id role s!"{name} (via {origin}; candidates {all})" entry.2
    input.censusBoundary now

def assessDynamicLane (job : WorkflowJob) (role : LaneRole) (origin : String)
    (fromJobs : List String) : Option (List LaneAssessment) := do
  let sources := dynamicSources job fromJobs
  let candidates := dynamicCandidates input.jobs sources
  if candidates.isEmpty then
    let place := if sources.isEmpty then "its needs" else ",".intercalate sources
    return [← unknownLane input context now job.id role
      (s!"runs-on comes from {origin} and no *_RUNS_ON_JSON candidate is statically " ++
        s!"visible in {place}") .parse]
  else
    let all := ",".intercalate candidates
    let lanes ← (setCandidates input candidates).mapM
      (candidateLane input context now job role origin all)
    return keepBest lanes

def assessJob (job : WorkflowJob) (role : LaneRole) : Option (List LaneAssessment) :=
  match job.runsOnExpr with
  | none => do return [← unknownLane input context now job.id role "runs-on absent" .parse]
  | some expr => do
    match ← resolveRunsOnExpr expr with
    | .literal value =>
      return [← assessLane input.fleet context job.id role "literal" value
        input.censusBoundary now]
    | .fromVariable name fallback =>
      match input.variablesBoundary with
      | some boundary =>
        -- An unread variable may be set, so the fallback is not assumed.
        return [← unknownLane input context now job.id role
          (s!"vars.{name} could not be read, so this lane was not measured; the " ++
            "workflow's own fallback is NOT assumed") boundary]
      | none =>
        match (lookupVariable input name).or fallback with
        | some raw =>
          return [← assessLane input.fleet context job.id role name raw
            input.censusBoundary now]
        | none =>
          return [← unknownLane input context now job.id role
            s!"vars.{name} unset and the expression supplies no fallback" .parse]
    | .dynamic origin fromJobs => assessDynamicLane input context now job role origin fromJobs
    | .unparsable raw =>
      return [← unknownLane input context now job.id role
        s!"runs-on expression not understood: {raw}" .parse]

end Jobs

def producersOf (jobs : List WorkflowJob) (context : String) : List String :=
  (jobs.filter fun job => job.produces context).map WorkflowJob.id

/-- The jobs assessed for a context, found by their ids. -/
def closureJobs (jobs : List WorkflowJob) (context : String) : List (WorkflowJob × LaneRole) :=
  (transitiveNeeds jobs (producersOf jobs context)).filterMap fun id =>
    (jobNamed jobs id).map fun job =>
      (job, if id ∈ producersOf jobs context then .producer else .prerequisite)

/-- Every context with the jobs assessed for it. -/
def assessed (input : AssessInput) : List (String × WorkflowJob × LaneRole) :=
  input.contexts.flatMap fun context => (closureJobs input.jobs context).map (context, ·)

/-- An operator's waiver changes what an unserved lane leads to, not that it is listed. -/
def waive (input : AssessInput) (lane : LaneAssessment) : LaneAssessment :=
  if lane.verdict = .unserved ∧
      lane.report.declaration.labels.any (· ∈ input.allowUnserved) = true then
    { lane with
      verdict := .unknown
      attestationFaults := lane.attestationFaults ++
        ["WAIVED by --allow-unserved-lane; this is a validation gap"] }
  else lane

def stalenessWarnings (input : AssessInput) (now : Time) (fresh : List String) : List String :=
  if fresh.isEmpty then
    let stale := input.fleet.attestations.describeStaleness now
    [s!"no fresh host attestation: {stale} - lanes with an empty census are reported Unknown, " ++
      "not Unserved, because a dead sensor must not be able to block every ship"]
  else []

/-- The whole report, unless the code panics. -/
def assess (input : AssessInput) (now : Time) : Option LandabilityReport := do
  let fresh ← input.fleet.attestations.freshHosts now
  let lanes ← (assessed input).mapM fun (context, job, role) =>
    assessJob input context now job role
  return {
    contexts := input.contexts
    contextsSource := input.contextsSource
    lanes := lanes.flatten.map (waive input)
    contextsWithoutProducer :=
      input.contexts.filter fun context => (producersOf input.jobs context).isEmpty
    freshAttesters := fresh
    warnings := stalenessWarnings input now fresh }

end Shipyard.Landability
