import Shipyard.Lib.Table
import Shipyard.Request
import Shipyard.PrQueue.State

/-!
# The checks of a pull request head

What the merge steward (`merge_steward.rs`) observes of one pull request and of
its repository's governance, which observation decides a required rule, and the
two readings of the checks that admission rests on: every required rule is
green, and the approval status agrees.
-/

namespace Shipyard.MergeSteward

open Lib (maxBy)
open PrQueue (eqIgnoreAsciiCase toAsciiUppercase)

/-! ## Observations -/

inductive StewardCheckSource where
  | checkRun
  | statusContext
deriving DecidableEq, Repr

/-- One current-head check observed on a pull request. -/
structure StewardCheck where
  name : String
  source : StewardCheckSource := .checkRun
  appId : Option Nat := none
  status : String
  conclusion : Option String := none
  runId : Option Nat := none
  observedAt : Option String := none
  checkId : Option Nat := none
deriving DecidableEq, Repr

structure RequiredCheck where
  context : String
  appId : Option Nat := none
deriving DecidableEq, Repr

def RequiredCheck.label (rule : RequiredCheck) : String :=
  match rule.appId with
  | none => rule.context
  | some appId => rule.context ++ " (app_id=" ++ toString appId ++ ")"

/-- One open pull request observed at an immutable head. -/
structure StewardPullRequest where
  headSha : String
  author : Option String := none
  draft : Bool := false
  mergeState : String
  queuePosition : Option Nat := none
  labels : List String := []
  checks : List StewardCheck := []
deriving DecidableEq, Repr

/-- Repository merge-governance facts. -/
structure StewardPolicy where
  mergeQueue : Bool
  approvalContext : String
  requiredChecks : List RequiredCheck
  optOutLabel : String
  provenanceBlockingLabels : List String := []
  managedLabel : Option String := none
  handoffContext : String
  maxTransientReruns : Nat
deriving DecidableEq, Repr

def trim (text : String) : String :=
  String.ofList ((text.toList.dropWhile isWhitespace).reverse.dropWhile isWhitespace).reverse

/-- Without a merge queue, GitHub itself requires the approval context from a
bound app. -/
def StewardPolicy.serverEnforcedExactHeadMerge (policy : StewardPolicy) : Bool :=
  let context := trim policy.approvalContext
  !policy.mergeQueue && context != "" &&
    policy.requiredChecks.any fun check => check.context == context && check.appId.isSome

variable (pr : StewardPullRequest) (check : StewardCheck)

def StewardCheck.isCompleted : Bool :=
  eqIgnoreAsciiCase check.status "COMPLETED"

/-- The conclusion in the spelling the rules compare with; a missing one is empty. -/
def StewardCheck.upperConclusion : String :=
  toAsciiUppercase (check.conclusion.getD "")

def StewardCheck.isPassing : Bool :=
  ["SUCCESS", "NEUTRAL", "SKIPPED"].contains check.upperConclusion

def StewardCheck.isSuccess : Bool :=
  check.isCompleted && check.conclusion.any fun value => eqIgnoreAsciiCase value "SUCCESS"

/-! ## The deciding observation -/

/-- Ids decide only when both sides have one; otherwise the times do. -/
def cmpIdThenTime {τ : Type} (cmpTime : τ → τ → Ordering) (leftId rightId : Option Nat)
    (leftTime rightTime : τ) : Ordering :=
  match leftId, rightId with
  | some left, some right => compare left right
  | _, _ => cmpTime leftTime rightTime

def checkRecency : Bool × String × Bool :=
  (check.observedAt.isNone && !check.isCompleted, check.observedAt.getD "", check.isCompleted)

/-- The lexicographic order of recency triples. -/
def cmpRecencyTime (left right : Bool × String × Bool) : Ordering :=
  (compare left.1 right.1).then
    ((compare left.2.1 right.2.1).then (compare left.2.2 right.2.2))

/-- Order two observations of one context, newest last. -/
def cmpRecency (left right : StewardCheck) : Ordering :=
  let sameSurface := left.source = right.source
  cmpIdThenTime cmpRecencyTime (left.checkId.filter fun _ => sameSurface)
    (right.checkId.filter fun _ => sameSurface) (checkRecency left) (checkRecency right)

/-- The observation that decides one required rule on this head. -/
def selectedRequiredCheck (checks : List StewardCheck) (rule : RequiredCheck) :
    Option StewardCheck :=
  maxBy cmpRecency (checks.filter fun check =>
    eqIgnoreAsciiCase check.name rule.context &&
      rule.appId.all fun appId => check.appId = some appId)

def selectedChecks (policy : StewardPolicy) : List (String × Option StewardCheck) :=
  policy.requiredChecks.map fun rule => (rule.label, selectedRequiredCheck pr.checks rule)

/-! ## Green rules -/

/-- Every required rule is satisfied by a terminal passing observation; an empty
rule set is never green. -/
def requiredChecksGreen (checks : List StewardCheck) (required : List RequiredCheck) : Bool :=
  !required.isEmpty && required.all fun rule =>
    (selectedRequiredCheck checks rule).any fun check => check.isCompleted && check.isPassing

theorem requiredChecksGreen_iff {checks : List StewardCheck} {required : List RequiredCheck} :
    requiredChecksGreen checks required = true ↔ required ≠ [] ∧
      ∀ rule ∈ required, ∃ check, selectedRequiredCheck checks rule = some check ∧
        check.isCompleted = true ∧ check.isPassing = true := by
  simp [requiredChecksGreen, Option.any_eq_true]

/-- The current head carries a successful commit status of this context. -/
def hasSuccessfulStatus (context : String) : Bool :=
  pr.checks.any fun check =>
    eqIgnoreAsciiCase check.name context && check.source = .statusContext && check.isSuccess

/-! ## The approval status -/

/-- The newest commit status named after the approval context. -/
def approvalStatus (policy : StewardPolicy) : Option StewardCheck :=
  maxBy cmpRecency (pr.checks.filter fun check =>
    check.source = .statusContext && eqIgnoreAsciiCase check.name (trim policy.approvalContext))

/-- The head awaits its reviewer's verdict. -/
def approvalStatusPending (policy : StewardPolicy) : Bool :=
  trim policy.approvalContext != "" &&
    (approvalStatus pr policy).any fun status => !status.isCompleted

/-- The newest approval status, if there is one, is a success. -/
def approvalStatusAgrees (policy : StewardPolicy) : Bool :=
  (approvalStatus pr policy).all fun status => status.isSuccess

end Shipyard.MergeSteward
