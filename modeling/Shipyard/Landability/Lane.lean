import Shipyard.Job
import Shipyard.Landability.Workflow
import Shipyard.Lib.Json
import Shipyard.PrQueue.Timeline

/-!
# Lanes

Whether anything serves a set of runner labels: the census of registered runners, the
queued demand, and what the hosts attest about themselves. A lane that could not be
measured is `unknown`, with the boundary that stopped the measurement.
-/

namespace Shipyard.Landability

open Lib
open MergeSteward (trim)
open PrQueue (eqIgnoreAsciiCase)

/-! ## Boundaries -/

inductive Boundary where
  | grammar
  | scope
  | identity
  | permission
  | parse
  | transport
deriving DecidableEq, Repr

def Boundary.asStr : Boundary → String
  | .grammar => "grammar"
  | .scope => "scope"
  | .identity => "identity"
  | .permission => "permission"
  | .parse => "parse"
  | .transport => "transport"

def Boundary.nextAction : Boundary → String
  | .grammar =>
    "the verb was refused by a command grammar, not by GitHub — retry via a permitted " ++
      "equivalent (a raw API call usually is one) before concluding this is not allowed"
  | .scope =>
    "re-issue the same query in the other scope; a repo-scope census cannot see an " ++
      "org-registered runner, and returns the same empty result either way"
  | .identity =>
    "retry as the other configured identity; the operation is available, this " ++
      "principal is not the one that can perform it"
  | .permission =>
    "grant the missing permission — unlike the other boundaries, asking differently " ++
      "will not help"
  | .parse => "fix or remove the malformed value; nothing was asserted about it"
  | .transport =>
    "the call did not complete (timeout, transport, or rate limit). This is not an " ++
      "authentication fault; do not re-authenticate in response to it"

/-! ## Declarations -/

inductive LaneDeclaration where
  | selfHosted (labels : List String)
  | hosted (labels : List String)
  | sentinel (value : String)
  | unparsable (raw : String)
deriving DecidableEq, Repr

def LaneDeclaration.labels : LaneDeclaration → List String
  | .selfHosted labels | .hosted labels => labels
  | .sentinel _ | .unparsable _ => []

def isRoutingSentinel (value : String) : Bool :=
  eqIgnoreAsciiCase value "local-only" || eqIgnoreAsciiCase value "none"

/-- The labels of a routing value: a JSON array of strings, a JSON string, or the text
itself. An array with anything else has none. -/
def routingLabels (parseJson : String → Option Json) (trimmed : String) : Option (List String) :=
  match parseJson trimmed with
  | some (.arr items) => items.mapM Json.asStr?
  | some (.str label) => some [label]
  | _ => some [trimmed]

def parseRunsOn (parseJson : String → Option Json) (raw : String) : LaneDeclaration :=
  let trimmed := trim raw
  if trimmed = "" then .unparsable raw
  else
    match routingLabels parseJson trimmed with
    | none | some [] => .unparsable raw
    | some labels =>
      if labels.any (eqIgnoreAsciiCase · "self-hosted") then .selfHosted labels
      else
        match labels with
        | [value] => if isRoutingSentinel value then .sentinel value else .hosted labels
        | _ => .hosted labels

/-! ## Service -/

inductive RunnerScope where
  | repo
  | org
deriving DecidableEq, Repr

structure RegisteredRunner where
  name : String
  scope : RunnerScope
  online : Bool
  busy : Bool
  labels : List String
deriving DecidableEq, Repr

/-- Whether every wanted label is had, ignoring case. -/
def hasAll (have_ want : List String) : Bool :=
  want.all fun label => have_.any (eqIgnoreAsciiCase · label)

inductive ServiceVerdict where
  | served
  | idle
  | degraded
  | starved
  | unserved
  | unknown
deriving DecidableEq, Repr

structure LaneMatch where
  name : String
  scope : RunnerScope
  online : Bool
  busy : Bool
deriving DecidableEq, Repr

structure LaneReport where
  variableName : String
  declaration : LaneDeclaration
  verdict : ServiceVerdict
  matched : List LaneMatch := []
  boundary : Option Boundary := none
  detail : String
deriving DecidableEq, Repr

def describeScopes (found : List LaneMatch) : String :=
  match found.any (·.scope = .repo), found.any (·.scope = .org) with
  | true, true => "repo+org scope"
  | true, false => "repo scope"
  | false, true => "org scope only"
  | false, false => "no scope"

/-- A self-hosted lane by its census. At preflight no demand is queued, so the demand
of the service assertion is empty: nothing is starved or unserved by it. -/
def classifyServedLane (source : String) (required : List String) (found : List LaneMatch) :
    LaneReport :=
  let online := (found.filter (·.online)).length
  let scopes := describeScopes found
  let listed := ",".intercalate required
  if 0 < online then
    { variableName := source
      declaration := .selfHosted required
      verdict := .served
      matched := found
      detail := s!"{online} online runner(s) advertise these labels ({scopes})" }
  else
    { variableName := source
      declaration := .selfHosted required
      verdict := .idle
      matched := found
      detail := s!"no online runner advertises [{listed}] and nothing is queued on them — " ++
        "indistinguishable from a just-in-time pool at rest" }

/-- `assess_lane_service` without queued demand. -/
def assessLaneService (parseJson : String → Option Json) (source raw : String)
    (census : List RegisteredRunner) (censusBoundary : Option Boundary) : LaneReport :=
  let declaration := parseRunsOn parseJson raw
  match declaration with
  | .hosted labels =>
    let listed := ",".intercalate labels
    { variableName := source
      declaration
      verdict := .served
      detail := s!"hosted lane ({listed}) — served by GitHub, not by this fleet" }
  | .sentinel value =>
    { variableName := source
      declaration
      verdict := .served
      detail := s!"routing sentinel `{value}` — names no runner label" }
  | .unparsable text =>
    let action := Boundary.parse.nextAction
    { variableName := source
      declaration
      verdict := .unknown
      boundary := some .parse
      detail := s!"could not parse routing value `{text}` — {action}" }
  | .selfHosted required =>
    match censusBoundary with
    | some boundary =>
      let named := boundary.asStr
      let action := boundary.nextAction
      { variableName := source
        declaration
        verdict := .unknown
        boundary := some boundary
        detail := s!"runner census unreadable ({named}) — an empty census and an " ++
          "unfetched one look identical, so no service claim is made. Next: " ++ action }
    | none =>
      classifyServedLane source required
        ((census.filter fun runner => hasAll runner.labels required).map fun runner =>
          ⟨runner.name, runner.scope, runner.online, runner.busy⟩)

/-! ## Attestation -/

structure PersistentRunner where
  label : String
  loaded : Bool
  crashLoop : Bool
  registered : Bool
  advertises : List String
  verdict : String
  reason : String
deriving DecidableEq, Repr

def PersistentRunner.healthy (runner : PersistentRunner) : Bool :=
  runner.verdict = "healthy" && runner.registered && runner.loaded && !runner.crashLoop

structure JitLane where
  id : String
  labels : List String
  supervisors : Nat
  fresh : Nat
  heartbeatAgeSecs : Option Int
  verdict : String
  reason : String
deriving DecidableEq, Repr

def JitLane.attested (lane : JitLane) : Bool := lane.verdict = "attested" && 0 < lane.fresh

structure HostAttestation where
  host : String
  writtenAt : Option Time
  intervalSecs : Option Int
  launchdReadable : Option Bool
  profileReadable : Option Bool
  profileDetail : Option String
  persistentRunners : List PersistentRunner
  jitLanes : List JitLane
deriving DecidableEq, Repr

structure AttestationSet where
  hosts : List HostAttestation
  unreadable : List String
deriving DecidableEq, Repr

def attestationFreshSecs : Int := 900

/-- A multiplication that stops at the bounds of 64 bits. -/
def saturatingMul (left right : Int) : Int := max (-(2 ^ 63)) (min (left * right) (2 ^ 63 - 1))

/-- The most seconds a duration can hold. Past them the code panics. -/
def maxDurationSecs : Int := 9223372036854775

def seconds (count : Int) : Option Time :=
  if -maxDurationSecs ≤ count ∧ count ≤ maxDurationSecs then some (count * 1000000000) else none

/-- Whether the record is recent and complete enough to be evidence, unless the code
panics. -/
def HostAttestation.isFresh (attestation : HostAttestation) (now : Time) : Option Bool :=
  if attestation.profileReadable = some false ∨ attestation.launchdReadable = some false then
    some false
  else
    match attestation.writtenAt with
    | none => some false
    | some writtenAt =>
      (seconds (attestation.intervalSecs.elim attestationFreshSecs (saturatingMul · 3))).map
        fun ceiling => decide (now - writtenAt ≤ ceiling ∧ -300 * 1000000000 ≤ now - writtenAt)

/-- The hosts whose attestation is fresh, unless the code panics. -/
def freshAmong (now : Time) : List HostAttestation → Option (List String)
  | [] => some []
  | attestation :: rest => do
    let fresh ← attestation.isFresh now
    let others ← freshAmong now rest
    return if fresh then attestation.host :: others else others

variable (attestations : AttestationSet)

def AttestationSet.freshHosts (now : Time) : Option (List String) :=
  freshAmong now attestations.hosts

def describeHost (now : Time) (attestation : HostAttestation) : String :=
  let host := attestation.host
  if attestation.profileReadable = some false then
    let why := attestation.profileDetail.getD "profile unreadable"
    s!"{host} BLIND: {why}"
  else if attestation.launchdReadable = some false then
    s!"{host} BLIND: launchd domain unreadable"
  else
    let age := (attestation.writtenAt.map fun writtenAt =>
      (now - writtenAt).tdiv 1000000000).getD (-1)
    s!"{host} written {age}s ago"

def AttestationSet.describeStaleness (now : Time) : String :=
  if attestations.hosts.isEmpty then
    if attestations.unreadable.isEmpty then "no attestation paths were checked"
    else
      let listed := "; ".intercalate attestations.unreadable
      s!"unreadable: {listed}"
  else
    let stale := "; ".intercalate (attestations.hosts.map (describeHost now))
    s!"no usable attestation: {stale}"

inductive LaneCoverage where
  | supervised (detail : String)
  | broken (detail : String)
  | notDeclared
deriving DecidableEq, Repr

/-- What a lane or a runner says of a label set it advertises. -/
def JitLane.coverage (lane : JitLane) : LaneCoverage :=
  let id := lane.id
  if lane.attested then
    let fresh := lane.fresh
    let supervisors := lane.supervisors
    let age := lane.heartbeatAgeSecs.getD (-1)
    .supervised s!"jit lane `{id}` supervised ({fresh}/{supervisors} fresh, heartbeat {age}s)"
  else
    let reason := lane.reason
    .broken s!"jit lane `{id}` declared but unattested: {reason}"

@[inherit_doc JitLane.coverage]
def PersistentRunner.coverage (runner : PersistentRunner) : LaneCoverage :=
  let label := runner.label
  if runner.healthy then .supervised s!"persistent runner `{label}` healthy"
  else
    let verdict := runner.verdict
    let reason := runner.reason
    .broken s!"persistent runner `{label}` {verdict}: {reason}"

/-- The first answer that is supervised, else the first one. -/
def firstCoverage (answers : List LaneCoverage) : LaneCoverage :=
  ((answers.find? fun answer => answer matches .supervised _).or answers.head?).getD .notDeclared

def advertisesAll (have_ want : List String) : Bool := !want.isEmpty && hasAll have_ want

def AttestationSet.coverage (host : String) (labels : List String) : LaneCoverage :=
  match attestations.hosts.find? fun entry => entry.host = host with
  | none => .notDeclared
  | some attestation =>
    firstCoverage
      (((attestation.jitLanes.filter fun lane => advertisesAll lane.labels labels).map
          JitLane.coverage) ++
        (attestation.persistentRunners.filter fun runner =>
          advertisesAll runner.advertises labels).map PersistentRunner.coverage)

/-! ## Assessments -/

inductive Schedulability where
  | served
  | idle
  | starved
  | unserved
  | unknown
deriving DecidableEq, Repr

/-- The order of the verdicts. -/
def Schedulability.rank : Schedulability → Nat
  | .served => 0
  | .idle => 1
  | .starved => 2
  | .unserved => 3
  | .unknown => 4

def Schedulability.blocks (verdict : Schedulability) : Bool := verdict = .unserved

inductive LaneRole where
  | producer
  | prerequisite
deriving DecidableEq, Repr

structure LaneAssessment where
  context : String
  jobId : String
  role : LaneRole
  source : String
  report : LaneReport
  verdict : Schedulability
  attestedBy : List String
  attestationFaults : List String
deriving DecidableEq, Repr

def baseVerdict : ServiceVerdict → Schedulability
  | .starved => .starved
  | .unserved => .unserved
  | .unknown => .unknown
  | .served | .degraded => .served
  | .idle => .idle

/-- What the fresh hosts say of a label set: who supervises it, and a line for each. -/
def attest (attestations : AttestationSet) (labels : List String) (fresh : List String) :
    List String × List String :=
  (fresh.filter fun host => attestations.coverage host labels matches .supervised _,
    fresh.map fun host =>
      match attestations.coverage host labels with
      | .supervised detail | .broken detail => s!"{host}: {detail}"
      | .notDeclared => s!"{host}: not declared")

/-- The verdict, who attests the lane, and the lines about it, unless the code panics. -/
def foldAttestation (report : LaneReport) (attestations : AttestationSet) (now : Time) :
    Option (Schedulability × List String × List String) :=
  let base := baseVerdict report.verdict
  if base ≠ .idle ∨ report.declaration.labels = [] then some (base, [], [])
  else
    (attestations.freshHosts now).map fun fresh =>
      if fresh.isEmpty then
        let stale := attestations.describeStaleness now
        let action := Boundary.scope.nextAction
        (.unknown, [], [s!"no fresh host attestation readable ({stale}) - {action}"])
      else
        let (attestedBy, faults) := attest attestations report.declaration.labels fresh
        (if attestedBy.isEmpty then .unserved else .idle, attestedBy, faults)

def censusDetailForRefusal (labels : List String) (count : Nat) : String :=
  let listed := ",".intercalate labels
  if count = 0 then s!"0 runners in either scope advertise [{listed}]"
  else s!"{count} runner(s) advertise [{listed}] and every one is offline"

/-- What a fleet was read as: its runners, what stopped the census, and the hosts'
attestations. -/
structure Fleet where
  parseJson : String → Option Json
  census : List RegisteredRunner
  attestations : AttestationSet

/-- One lane end to end, unless the code panics. -/
def assessLane (fleet : Fleet) (context jobId : String) (role : LaneRole) (source raw : String)
    (censusBoundary : Option Boundary) (now : Time) : Option LaneAssessment :=
  let report := assessLaneService fleet.parseJson source raw fleet.census censusBoundary
  (foldAttestation report fleet.attestations now).map fun (verdict, attestedBy, faults) =>
    { context
      jobId
      role
      source
      report :=
        if verdict = .unserved ∧ report.verdict = .idle then
          { report with
            detail := censusDetailForRefusal report.declaration.labels report.matched.length }
        else report
      verdict
      attestedBy
      attestationFaults := faults }

/-- The code never panics on a lane where it does not on the attestations. -/
theorem assessLane_isSome {fleet : Fleet} {now : Time}
    (hfresh : (fleet.attestations.freshHosts now).isSome = true) (context jobId : String)
    (role : LaneRole) (source raw : String) (censusBoundary : Option Boundary) :
    ∃ lane, assessLane fleet context jobId role source raw censusBoundary now = some lane := by
  obtain ⟨fresh, hfresh⟩ := Option.isSome_iff_exists.mp hfresh
  unfold assessLane foldAttestation
  dsimp only
  split
  · exact ⟨_, rfl⟩
  · rw [hfresh]
    exact ⟨_, rfl⟩

end Shipyard.Landability
