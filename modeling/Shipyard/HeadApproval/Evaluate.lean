import Shipyard.HeadApproval.Guard
import Shipyard.Lib.Checks

/-!
# Evaluating a pull request's head

The two evaluations read a pull request's records, decide, and let an approval
carry from an earlier head or a rollup stand in where no verdict names the head.
`evaluate_events` first drops the comments that are not newer than the head's
commit; `evaluate_excusing_with_policy` keeps all of them.
-/

namespace Shipyard.HeadApproval

open Lib
open MergeSteward (trim)
open PrQueue (eqIgnoreAsciiCase toAsciiLowercase)

/-- What an evaluation reads outside the records: of GitHub, by pull request or
commit, of the host it runs on, and of the clock. The carries and the rollup give
their own answers. -/
structure World where
  reviewRecords : Nat → Except String (List Json)
  commentRecords : Nat → Except String (List Json)
  /-- The login of a pull request's author, as it is answered. -/
  authorLogin : Nat → Except String String
  committerDate : String → Except String Time
  checkRuns : String → String → Except String (List Json)
  parseJson : String → Except String Json
  mergeOnlyCarry : Nat → String → String → List String → Except String Unit
  rebaseCarry : Nat → String → String → List String → Except String Unit
  guardAccept : Nat → String → ApprovalPolicy → (Nat → String → Except String HeadGate) →
    Except String (Option (List (Member Approval)))
  /-- `arming_agent` -/
  armingAgent : Option String
  /-- `host_requires_guard` -/
  requiresGuard : Bool
  /-- `rebase_carry_enabled` -/
  rebaseCarryEnabled : Bool
  now : Time

/-- The author, read where the policy turns on it. -/
def prAuthor (world : World) (pr : Nat) (policy : ApprovalPolicy) (known : Option String) :
    Except String (Option String) :=
  if known.isSome || !policy.defaultRule then .ok known
  else
    match world.authorLogin pr with
    | .error error => .error error
    | .ok answer =>
      if trim answer = "" then .error s!"PR #{pr} carried no author" else .ok (some (trim answer))

/-! ## Carries -/

structure CarryInput where
  pr : Nat
  head : String
  reviews : List Json
  comments : List Json
  policy : ApprovalPolicy
  author : Option String

def defaultCarryExcludedPaths : List String :=
  [".github/workflows/**", ".agents/contract.toml", ".shipyard/**", "tools/ci/**",
    "scripts/ghapp*", "src/head_approval*", "src/head_approval/**", "src/queue_arm_gate*",
    "src/auto_arm*", "src/auto_arm/**", "src/ghapp_guards*", "src/app/ship_cmd/auto_arm*",
    "src/app/merge_steward_cmd/native_arm*", "release-please-config.json",
    ".release-please-manifest.json", "**/*codesign*", "**/*notariz*", "**/*signing*"]

def ApprovalPolicy.carryExcludedPaths (policy : ApprovalPolicy) : List String :=
  policy.carryExcluded.getD defaultCarryExcludedPaths

/-- The order of times that may be unread: those come first. -/
def timeLe : Option Time → Option Time → Bool
  | none, _ => true
  | some _, none => false
  | some first, some second => first ≤ second

section Carry

variable (host : Host) (world : World) (input : CarryInput)

/-- The head a counting review names. -/
def reviewNamed (review : Json) : Option (Option Time × String) :=
  let verdict := if inState review "APPROVED" then Verdict.approve else .hold
  if verdictCounts host input.policy input.author verdict review then
    (review.textAt ["commit_id"]).map fun commit =>
      (recordTime host review, toAsciiLowercase commit)
  else none

/-- The head a counting comment names. -/
def commentNamed (comment : Json) : Option (Option Time × String) :=
  (commentVerdict comment).bind fun (verdict, head) =>
    if verdictCounts host input.policy input.author verdict comment then
      some (recordTime host comment, head)
    else none

def verdictHeads : List String :=
  let named := input.reviews.filterMap (reviewNamed host input) ++
    input.comments.filterMap (commentNamed host input)
  let newestFirst := named.insertionSort fun first second => timeLe second.1 first.1 = true
  (newestFirst.map Prod.snd).foldl (fun heads head =>
    if head ∈ heads then heads else heads ++ [head]) []

def maxCarryAgeHours : Int := 48

/-- Text before and after the first colon. -/
def splitOnce (line : String) : Option (String × String) :=
  match line.toList.span (· ≠ ':') with
  | (_, []) => none
  | (key, _ :: value) => some (String.ofList key, String.ofList value)

def isNoCarryLine (line : String) : Bool :=
  (splitOnce line).any fun (key, value) =>
    eqIgnoreAsciiCase (trim key) "carry" && eqIgnoreAsciiCase (trim value) "no"

/-- The newest record; of several, the last one. -/
def newestRecord (records : List Json) : Option Json :=
  records.foldl (fun newest record =>
    match newest with
    | none => some record
    | some best =>
      if timeLe (recordTime host best) (recordTime host record) then some record
      else some best) none

/-- Why the approval of an earlier head may not carry. -/
def carryLimits (earlier : String) : Option String :=
  let approving :=
    input.reviews.filter (fun review => inState review "APPROVED" && onCommit review earlier) ++
      input.comments.filter fun comment =>
        (commentVerdict comment).any fun (verdict, head) =>
          verdict = .approve && eqIgnoreAsciiCase head earlier
  match newestRecord host (approving.filter (reviewerAllowed input.policy input.author)) with
  | none => some "its verdict cannot be found"
  | some record =>
    match recordTime host record with
    | none => some "the time of its verdict is unknown"
    | some posted =>
      if world.now - posted > maxCarryAgeHours * 3600 * 1000000000 then
        let shown := host.formatTimestamp posted
        some s!"its verdict is older than {maxCarryAgeHours}h ({shown})"
      else if (((body record).getD "").toList.splitOn '\n').any fun line =>
          isNoCarryLine (String.ofList line) then
        some "its verdict says `carry: no`"
      else none

/-- The verdict on a head. -/
def CarryInput.verdict (head : String) : Option Verdict :=
  latestVerdict host input.policy input.author head input.reviews input.comments

/-- The newest other head a counting verdict names, when it is approved. -/
def approvedEarlier : Option String :=
  ((verdictHeads host input).find? fun head => !eqIgnoreAsciiCase head input.head).filter
    fun head => input.verdict host head = some .approve

/-- Whether the carry across a rebase was taken, where one of the two carries is. -/
def carryKind (earlier : String) : Option Bool :=
  let excluded := input.policy.carryExcludedPaths
  match world.mergeOnlyCarry input.pr earlier input.head excluded with
  | .ok _ => some false
  | .error _ =>
    if input.policy.rebaseCarry || world.rebaseCarryEnabled then
      match world.rebaseCarry input.pr earlier input.head excluded with
      | .ok _ => some true
      | .error _ => none
    else none

def withCarry (gate : HeadGate) : HeadGate :=
  match gate with
  | .notApproved _ =>
    -- A verdict that names this head is changed by a newer verdict only.
    if (input.verdict host input.head).isSome then gate
    else
      match approvedEarlier host input with
      | none => gate
      | some earlier =>
        match findApprovalForAuthor host input.policy input.author earlier input.reviews
            input.comments .none with
        | none => gate
        | some approval =>
          if (carryLimits host world input earlier).isSome then gate
          else
            match carryKind world input earlier with
            | some rebase => .approved (.carried earlier approval rebase)
            | none => gate
  | _ => gate

end Carry

/-! ## The two evaluations -/

section Evaluate

variable (host : Host) (world : World) (pr : Nat) (head : String) (policy : ApprovalPolicy)

/-- A comment with a verdict on the head. -/
def namesHead (comment : Json) : Bool :=
  (commentVerdict comment).any fun (_, markerHead) => eqIgnoreAsciiCase markerHead head

/-- A comment newer than the head's commit. -/
def newerThan (date : Time) (comment : Json) : Bool :=
  (recordTime host comment).any fun posted => date < posted

/-- The comments newer than the head's commit, where a verdict names the head. -/
def datedComments (comments : List Json) : Except String (List Json) :=
  if comments.any (namesHead head) then
    (world.committerDate head).map fun created => comments.filter (newerThan host created)
  else .ok comments

/-- The gate of `evaluate_events` before rollups, and what it was judged from. -/
def evaluateRecords (queue : Json) (known : Option String) :
    Except String (HeadGate × Option CarryInput) := do
  match ← guardEvaluate world.requiresGuard world.parseJson (world.checkRuns head) head
      policy.source queue false with
  | some gate => return (gate, none)
  | none =>
    if !policy.required then return (.notRequired, none)
    let author ← prAuthor world pr policy known
    let reviews ← world.reviewRecords pr
    let all ← world.commentRecords pr
    let comments ← datedComments host world head all
    let input : CarryInput := { pr, head, reviews, comments, policy, author }
    let gate := decideForAuthor host world.armingAgent policy head reviews comments queue false
      author
    return (refuseSelfApproval world.armingAgent head comments
      (withCarry host world input gate), some input)

/-- A rollup's member is judged at its own head, never as a rollup. -/
def evaluateMember (member : Nat) (memberHead : String) : Except String HeadGate :=
  (evaluateRecords host world member memberHead policy .null none).map Prod.fst

def withRollup (input : CarryInput) (gate : HeadGate) : HeadGate :=
  match gate with
  | .notApproved _ =>
    if (input.verdict host input.head).isSome then gate
    else
      match world.guardAccept input.pr input.head input.policy
          (evaluateMember host world input.policy) with
      | .ok (some members) => .approved (.rollup members)
      | _ => gate
  | _ => gate

def evaluateEvents (queue : Json) (known : Option String) (rollups : Bool) :
    Except String HeadGate :=
  (evaluateRecords host world pr head policy queue known).map fun (gate, input) =>
    match input with
    | some input => if rollups then withRollup host world input gate else gate
    | none => gate

def evaluateExcusingWithPolicy (queue : Json) (latestWasInterruption : Bool) :
    Except String HeadGate := do
  match ← guardEvaluate world.requiresGuard world.parseJson (world.checkRuns head) head
      policy.source queue latestWasInterruption with
  | some gate => return gate
  | none =>
    if !policy.required then return .notRequired
    let author ← prAuthor world pr policy none
    let reviews ← world.reviewRecords pr
    let comments ← world.commentRecords pr
    let input : CarryInput := { pr, head, reviews, comments, policy, author }
    let gate := decideForAuthor host world.armingAgent policy head reviews comments queue
      latestWasInterruption author
    return withRollup host world input (withCarry host world input gate)

end Evaluate

end Shipyard.HeadApproval
