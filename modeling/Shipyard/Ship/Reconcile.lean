import Shipyard.Ship.State
import Mathlib.Data.List.Infix

/-!
# Reconciling a ship state with a check rollup

`reconcile_ship_state` of `reconcile.rs`. A run that GitHub Actions executed
takes the status of its best matching check; its evidence follows. The texts
that describe the changes are not modelled.
-/

namespace Shipyard.Ship

open Lib

/-- A field of a check, as far as the code distinguishes it. -/
inductive Json where
  | null
  | str (text : String)
  | other
deriving DecidableEq

/-- The fields of a check that are read; a missing field is `none`. -/
structure Check where
  name : Option Json := none
  state : Option Json := none
  conclusion : Option Json := none
  detailsUrl : Option Json := none
  completedAt : Option Json := none
  startedAt : Option Json := none
deriving DecidableEq

def asStr : Option Json → Option String
  | some (.str text) => some text
  | _ => none

/-- `u64::from_str`: an optional plus sign and decimal digits within 64 bits. -/
def parseU64 (text : List Char) : Option Nat :=
  let digits :=
    match text with
    | '+' :: rest => rest
    | _ => text
  if digits.isEmpty || digits.any fun c => !c.isDigit then none
  else
    let value := digits.foldl (fun acc c => acc * 10 + (c.toNat - '0'.toNat)) 0
    if value < 2 ^ 64 then some value else none

def runIsGithubActionsBacked (run : DispatchedRun) : Bool := (parseU64 run.runId.toList).isSome

/-! ## Choosing the check of a run -/

def toAsciiLowercase (text : String) : List Char := text.toList.map Char.toLower

def toAsciiUppercase (text : String) : String := String.ofList (text.toList.map Char.toUpper)

def checkName (check : Check) : String := (asStr check.name).getD ""

/-- What follows the first occurrence of a separator. -/
def afterFirst (separator : List Char) : List Char → Option (List Char)
  | [] => none
  | c :: rest =>
    if separator.isPrefixOf (c :: rest) then some ((c :: rest).drop separator.length)
    else afterFirst separator rest

/-- The job id in a details URL. The second piece of a split at `/job/` ends at
the next `/job/`, whose first character ends the id anyway. -/
def jobIdFromUrl (url : String) : Option Nat :=
  (afterFirst "/job/".toList url.toList).bind fun tail =>
    parseU64 (tail.takeWhile fun c => c ≠ '/' && c ≠ '?' && c ≠ '#')

def checkJobId (check : Check) : Option Nat := (asStr check.detailsUrl).bind jobIdFromUrl

def checkTimestamp (check : Check) : String :=
  (asStr (check.completedAt.or check.startedAt)).getD ""

/-- Ids decide when both sides have one; otherwise the times do. -/
def cmpIdThenTime (leftId rightId : Option Nat) (leftTime rightTime : String) : Ordering :=
  match leftId, rightId with
  | some left, some right => compare left right
  | _, _ => compare leftTime rightTime

def paddedCheckName (nameLc : List Char) : List Char :=
  ' ' :: nameLc.map (fun c => if c = '/' || c = '(' || c = ')' then ' ' else c) ++ [' ']

/-- How well the name of a check matches a target. -/
inductive MatchTier where
  | exact
  | wordBoundary
  | substring
deriving DecidableEq

def matchTier (targetLc : List Char) (check : Check) : Option MatchTier :=
  let nameLc := toAsciiLowercase (checkName check)
  if nameLc = targetLc then some .exact
  else if ' ' :: targetLc ++ [' '] <:+: paddedCheckName nameLc then some .wordBoundary
  else if targetLc <:+: nameLc then some .substring
  else none

def matchCheck (run : DispatchedRun) (checks : List Check) : Option Check :=
  let targetLc := toAsciiLowercase run.target
  let tier (wanted : MatchTier) := checks.filter fun check => matchTier targetLc check = some wanted
  let pool :=
    if !(tier .exact).isEmpty then tier .exact
    else if !(tier .wordBoundary).isEmpty then tier .wordBoundary
    else tier .substring
  maxBy (fun left right => cmpIdThenTime (checkJobId left) (checkJobId right)
    (checkTimestamp left) (checkTimestamp right)) pool

/-! ## Statuses -/

def uppercaseField (field : Option Json) : String := toAsciiUppercase ((asStr field).getD "")

def conclusionToRunStatus (check : Check) : Option String :=
  let state := uppercaseField check.state
  let conclusion := uppercaseField check.conclusion
  if state = "QUEUED" || state = "PENDING" then some "pending"
  else if state = "IN_PROGRESS" then some "in_progress"
  else if state ≠ "COMPLETED" && conclusion = "" then none
  else if conclusion = "SUCCESS" || conclusion = "NEUTRAL" || conclusion = "SKIPPED" then
    some "completed"
  else if conclusion = "CANCELLED" then some "cancelled"
  else some "failed"

def runStatusToEvidence (runStatus : String) : Option String :=
  if runStatus = "completed" then some "pass"
  else if runStatus = "failed" || runStatus = "cancelled" then some "fail"
  else none

/-! ## One pass -/

/-- The status that the rollup gives to a run. -/
def observedStatus (checks : List Check) (run : DispatchedRun) : Option String :=
  if runIsGithubActionsBacked run then (matchCheck run checks).bind conclusionToRunStatus else none

/-- The status that a pass writes into a run; `none` when it leaves the run alone. -/
def changedStatus (checks : List Check) (run : DispatchedRun) : Option String :=
  (observedStatus checks run).filter fun status => status ≠ run.status

def reconcileRun (checks : List Check) (now : Time) (run : DispatchedRun) : DispatchedRun :=
  match changedStatus checks run with
  | some status => { run with status, updatedAt := now }
  | none => run

def reconcileEvidence (checks : List Check) (evidence : SortedMap String String)
    (run : DispatchedRun) : SortedMap String String :=
  match (observedStatus checks run).bind runStatusToEvidence with
  | none => evidence
  | some status =>
    if evidence.get? run.target ≠ some status then evidence.insert run.target status
    else evidence

structure ReconcileTransition where
  pr : Nat
  repo : String
  target : String
  fromStatus : String
  toStatus : String
deriving DecidableEq

structure ReconciledShipState where
  state : ShipState
  transitions : List ReconcileTransition
deriving DecidableEq

def reconcileShipState (state : ShipState) (statusCheckRollup : List Check) (now : Time) :
    ReconciledShipState where
  state :=
    { state with
      dispatchedRuns := state.dispatchedRuns.map (reconcileRun statusCheckRollup now)
      evidenceSnapshot :=
        state.dispatchedRuns.foldl (reconcileEvidence statusCheckRollup) state.evidenceSnapshot }
  transitions := state.dispatchedRuns.filterMap fun run =>
    (changedStatus statusCheckRollup run).map fun toStatus =>
      { pr := state.pr
        repo := state.repo
        target := run.target
        fromStatus := run.status
        toStatus }

end Shipyard.Ship
