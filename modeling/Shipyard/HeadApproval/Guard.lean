import Shipyard.HeadApproval.Gate
import Shipyard.MergeSteward.Classify

/-!
# Admission by the fleet's check

A base may take its authorization from one check run of one App instead of
comments. Its newest run on the head decides, and no comment is read.
-/

namespace Shipyard.HeadApproval

open Lib
open MergeSteward (trim isFullSha)
open PrQueue (eqIgnoreAsciiCase toAsciiLowercase)

inductive Judgement where
  | admitted (checkRunId : Nat) (policySha classification : String)
  | waiting (detail : String)
  | refused (checkRunId : Nat) (conclusion : String)
deriving DecidableEq, Repr

def sharedAppSlugs : List String := ["github-actions", "shipyard-local"]

def runId (run : Json) : Nat := ((run.get? "id").bind Json.asU64?).getD 0

/-- A run of the check by the App on the head. -/
def countingRun (head check : String) (appId : Nat) (run : Json) : Bool :=
  run.textAt ["name"] = some check &&
    ((run.pointer ["app", "id"]).bind Json.asU64?) = some appId &&
    (run.textAt ["app", "slug"]).getD "" ∉ sharedAppSlugs &&
    (run.textAt ["head_sha"]).any fun sha => eqIgnoreAsciiCase sha head

/-- The run with the highest id; of several, the last one. -/
def newestRun (runs : List Json) : Option Json :=
  runs.foldl (fun newest run =>
    match newest with
    | none => some run
    | some best => if runId best ≤ runId run then some run else some best) none

/-- The policy and classification a run binds to the head. -/
def boundRecord (parseJson : String → Except String Json) (run : Json) (head : String) :
    Except String (String × String) :=
  match (run.textAt ["external_id"]).filter fun raw => trim raw ≠ "" with
  | none => .error "no external_id"
  | some raw =>
    match parseJson raw with
    | .error error => .error s!"external_id is not JSON: {error}"
    | .ok record =>
      let field (key : String) : Option String := (record.textAt [key]).map trim
      if !(field "head_sha").any fun sha => eqIgnoreAsciiCase sha head then
        .error "external_id names another head"
      else
        match (field "policy_sha").filter isFullSha with
        | none => .error "external_id has no full policy_sha"
        | some policySha =>
          match (field "classification").filter fun value => value ≠ "" with
          | none => .error "external_id has no classification"
          | some classification => .ok (toAsciiLowercase policySha, classification)

def judge (parseJson : String → Except String Json) (runs : List Json) (head check : String)
    (appId : Nat) : Judgement :=
  match newestRun (runs.filter (countingRun head check appId)) with
  | none => .waiting s!"no `{check}` check run from App {appId} on this head yet"
  | some run =>
    let id := runId run
    let conclusion := toAsciiLowercase ((run.textAt ["conclusion"]).getD "none")
    if !(run.textAt ["status"]).any fun status => eqIgnoreAsciiCase status "completed" then
      .waiting s!"`{check}` run {id} has not completed"
    else if conclusion ≠ "success" then .refused id conclusion
    else
      match boundRecord parseJson run head with
      | .ok (policySha, classification) => .admitted id policySha classification
      | .error why => .waiting s!"`{check}` run {id} does not bind this head ({why})"

/-- The gate of a judged head. The ejection cap holds for an admitted one too. -/
def admissionGate (check : String) (appId : Nat) (head : String) (queue : Json)
    (latestWasInterruption : Bool) : Judgement → HeadGate
  | .admitted checkRunId policySha classification =>
    match capped queue head latestWasInterruption with
    | some ejections => .ejectionCap head ejections
    | none => .approved (.admission check appId checkRunId policySha classification)
  | .waiting detail => .notAdmitted head detail
  | .refused checkRunId conclusion =>
    .notAdmitted head s!"`{check}` run {checkRunId} concluded {conclusion}"

/-- The gate of a policy whose source is not comments; none where comments decide. -/
def guardEvaluate (requiresGuard : Bool) (parseJson : String → Except String Json)
    (readRuns : String → Except String (List Json)) (head : String) (source : ApprovalSource)
    (queue : Json) (latestWasInterruption : Bool) : Except String (Option HeadGate) :=
  match source with
  | .comments =>
    if requiresGuard then
      .ok (some (.notAdmitted head
        ("this host requires fleet-guard admission (require-guard-admission), but the " ++
          "base's [auto_merge] approval_source selects comments")))
    else .ok none
  | .misconfigured detail => .ok (some (.notAdmitted head detail))
  | .guard check appId =>
    (readRuns check).map fun runs =>
      some (admissionGate check appId head queue latestWasInterruption
        (judge parseJson runs head check appId))

variable {interrupted : Bool}

variable {readRuns : String → Except String (List Json)} {parseJson : String → Except String Json}
  {queue : Json} {source : ApprovalSource} {requiresGuard : Bool} {head : String}

/-- The check is asked everywhere but in the comment mode of a host that allows it. -/
theorem of_guardEvaluate_none
    (hnone : guardEvaluate requiresGuard parseJson readRuns head source queue interrupted = .ok
      none) : source = .comments ∧ requiresGuard = false := by
  cases source with
  | comments =>
    cases requiresGuard with
    | true => cases hnone
    | false => exact ⟨rfl, rfl⟩
  | misconfigured detail => cases hnone
  | guard check appId =>
    rw [guardEvaluate] at hnone
    cases hruns : readRuns check with
    | error error =>
      rw [hruns] at hnone
      cases hnone
    | ok runs =>
      rw [hruns] at hnone
      cases hnone

theorem admissionGate_allows {check : String} {appId : Nat} {judgement : Judgement}
    (hallows : (admissionGate check appId head queue interrupted judgement).allows = true) :
    ∃ checkRunId policySha classification,
      admissionGate check appId head queue interrupted judgement =
        .approved (.admission check appId checkRunId policySha classification) := by
  cases judgement with
  | waiting | refused => cases hallows
  | admitted checkRunId policySha classification =>
    cases hcap : capped queue head interrupted with
    | some ejections =>
      rw [admissionGate, hcap] at hallows
      cases hallows
    | none => exact ⟨checkRunId, policySha, classification, by rw [admissionGate, hcap]⟩

/-- Only an admission allows a head here. -/
theorem guardEvaluate_allows {gate : HeadGate}
    (hgate : guardEvaluate requiresGuard parseJson readRuns head source queue interrupted = .ok
      (some gate)) (hallows : gate.allows = true) :
    ∃ check appId checkRunId policySha classification,
      gate = .approved (.admission check appId checkRunId policySha classification) := by
  cases source with
  | comments =>
    cases requiresGuard <;> cases hgate
    cases hallows
  | misconfigured detail =>
    cases hgate
    cases hallows
  | guard check appId =>
    rw [guardEvaluate] at hgate
    cases hruns : readRuns check with
    | error error =>
      rw [hruns] at hgate
      cases hgate
    | ok runs =>
      rw [hruns] at hgate
      cases hgate
      exact ⟨check, appId, admissionGate_allows hallows⟩

end Shipyard.HeadApproval
