import Shipyard.HeadApproval.Gate

/-!
# The verdict of the queue-arm guard

`scripts/ghapp_queue_arm_guard.py` judges reviews and comments by the same rule as
the gate, from GitHub's own records and with Python's texts. This is its rule on
the repository side, where the signers come from the base alone
(`SHIPYARD_SIGNERS_FROM_BASE=1`) and no host is asked about sessions.
-/

namespace Shipyard.HeadApproval

open Lib
open PrQueue (PythonText)

/-! ## GitHub's records -/

/-- A review or comment as GitHub answers it; an absent text is null. The time is
`submitted_at` of a review and `created_at` of a comment. -/
structure ApiRecord where
  id : Nat
  login : Option String
  kind : Option String
  association : Option String
  time : Option String
  state : Option String := none
  commitId : Option String := none
  body : Option String
  appId : Option Nat := none

def jsonText : Option String → Json
  | some text => .str text
  | none => .null

def jsonNumber : Option Nat → Json
  | some value => .number value
  | none => .null

/-- `COMMENT_RECORD_JQ` -/
def commentRecord (record : ApiRecord) : Json :=
  .obj [("id", .number record.id), ("login", jsonText record.login),
    ("type", jsonText record.kind), ("association", jsonText record.association),
    ("at", jsonText record.time), ("body", jsonText record.body),
    ("performed_via_github_app_id", jsonNumber record.appId)]

/-- `REVIEW_RECORD_JQ` -/
def reviewRecord (record : ApiRecord) : Json :=
  .obj [("id", .number record.id), ("login", jsonText record.login),
    ("type", jsonText record.kind), ("association", jsonText record.association),
    ("at", jsonText record.time), ("state", jsonText record.state),
    ("commit_id", jsonText record.commitId), ("body", jsonText record.body),
    ("performed_via_github_app_id", jsonNumber record.appId)]

namespace ArmGuard

/-! ## Texts -/

/-- `str.isspace`: the separators U+001C to U+001F count too. -/
def isSpace (char : Char) : Bool :=
  isWhitespace char || (0x1C ≤ char.toNat && char.toNat ≤ 0x1F)

def strip (text : String) : String :=
  String.ofList ((text.toList.dropWhile isSpace).reverse.dropWhile isSpace).reverse

def markerVerdict (body : String) : Option (Verdict × String) :=
  match ((pythonLines body).filter fun line => strip line ≠ "").getLast?.bind markerCaptures with
  | none => none
  | some captures =>
    match (Regex.capture captures 1).filter (· ≠ "") with
    | some head => some (.approve, head)
    | none =>
      (Regex.capture captures 2).bind fun word =>
        (wordVerdict word).bind fun verdict =>
          (Regex.capture captures 3).map fun head => (verdict, head)

def noncanonicalStamp (body : String) : Bool :=
  (stampVariant isSpace).isMatch (stampPattern.removeAll body)

def globMatch (pattern path : String) : Bool :=
  segmentsMatch (fun pattern part => segmentMatch '*' '?' pattern.toList part.toList)
    (pathSegments pattern) (pathSegments path)

section Python

variable (python : PythonText)

def normalizedLogin (login : String) : String := python.lower (plainLogin login)

def stampedIdentity (body : String) : Option String :=
  match lastStamp body with
  | none => none
  | some captures =>
    match Regex.capture captures 1, (Regex.capture captures 3).filter (· ≠ "") with
    | some host, some agent => some (python.lower (host ++ " agent:" ++ agent))
    | _, _ => none

def signedNames (body : String) : List String :=
  ((signerPattern.capturesIter body).filterMap (Regex.capture · 1)).map python.lower

/-! ## Who counts -/

/-- The policy as the guard keeps it. -/
structure Policy where
  reviewers : List String
  anyButAuthor : Bool
  humans : List String
  signers : Option (List String)
  signerIdentities : List (String × List String)
  stampSessions : Option (List String)

/-- `signers_required` on the repository side. -/
def Policy.signersRequired (policy : Policy) : Bool :=
  policy.anyButAuthor && policy.reviewers.isEmpty

def signerRefusal (policy : Policy) (signers : List String) (body : String) : Option String :=
  let signed := signedNames python body
  let matching := signed.filter (· ∈ signers)
  if signed.isEmpty then some "it has no `reviewer: <name>` line"
  else if matching.isEmpty then
    let name := signed.getLastD ""
    let listed := if signers.isEmpty then "nobody" else ", ".intercalate signers
    some s!"its signer {name} is not one of {listed}"
  else if policy.signerIdentities.isEmpty then none
  else
    match stampedIdentity python body with
    | none => some "its ghapp stamp has no reviewer agent identity"
    | some identity =>
      match matching.find? fun name =>
          (policy.signerIdentities.lookup name).any (identity ∈ ·) with
      | some _ => none
      | none =>
        let name := matching.getLastD ""
        if (policy.signerIdentities.lookup name).isNone then
          some s!"its signer {name} has no base identity binding"
        else some s!"its signer {name} is not bound to stamped identity {identity}"

/-- Why the stamp's session is none the base lists. -/
def sessionRefusal (patterns : List String) (session : Option String) : Option String :=
  match session with
  | none => some "it has no `ghapp` session stamp"
  | some session =>
    if patterns.any fun pattern => globMatch pattern (python.lower session) then none
    else
      let listed := ", ".intercalate patterns
      some (s!"its stamp session {session} is not one of the base's `reviewer_stamp_sessions` " ++
        s!"({listed})")

def appApprovalRefusal (policy : Policy) (body : Option String) : Option String :=
  let text := body.getD ""
  let session := stampedSession text
  if noncanonicalStamp text then some "it carries a non-canonical session stamp"
  else if session = some "unattributed" then some "its session stamp is unattributed"
  else if session = none then some "it has no `ghapp` session stamp"
  else
    match policy.stampSessions.bind fun patterns => sessionRefusal python patterns session with
    | some refusal => some refusal
    | none =>
      match policy.signers with
      | some signers => signerRefusal python policy signers text
      | none =>
        if policy.signersRequired then
          some ("no signer list is configured on the base branch " ++
            "(`[auto_merge] reviewer_signers`)")
        else none

def fleetAuthor : String := "shipyard-local"

def reviewerCounts (policy : Policy) (author : Option String) (verdict : Verdict)
    (record : ApiRecord) (login : String) : Bool :=
  let reviewer := normalizedLogin python login
  if reviewer = fleetAuthor && record.kind != some "Bot" then false
  else if reviewer = fleetAuthor && verdict = .approve &&
      (appApprovalRefusal python policy record.body).isSome then false
  else if policy.anyButAuthor && policy.reviewers.isEmpty then
    let trusted := reviewer = fleetAuthor || record.association.any (· ∈ trustedAssociations)
    let counts := trusted && (author.all (fun author =>
      normalizedLogin python author != reviewer) || reviewer = fleetAuthor)
    if counts && verdict = .approve && reviewer ≠ fleetAuthor && reviewer ∉ policy.humans then
      false
    else counts
  else
    reviewer ≠ fleetAuthor &&
      policy.reviewers.any (fun name => normalizedLogin python name == reviewer) &&
      author.all fun author => normalizedLogin python author != reviewer

/-! ## The verdict -/

/-- A counting verdict: its time, what it says and the head it names. -/
structure Counted where
  time : Option Time
  verdict : Verdict
  head : String

def stateVerdict (state : Option String) : Option Verdict :=
  match python.upper (state.getD "") with
  | "APPROVED" => some .approve
  | "CHANGES_REQUESTED" => some .hold
  | _ => none

variable (timestamp : Option String → Option Time) (policy : Policy) (author : Option String)

def countedReview (review : ApiRecord) : Option Counted :=
  match review.login, stateVerdict python review.state with
  | some login, some verdict =>
    if reviewerCounts python policy author verdict review login then
      some { time := timestamp review.time, verdict,
             head := python.lower (review.commitId.getD "") }
    else none
  | _, _ => none

def countedComment (comment : ApiRecord) : Option Counted :=
  match comment.login, comment.body.bind markerVerdict with
  | some login, some (verdict, head) =>
    if reviewerCounts python policy author verdict comment login then
      some { time := timestamp comment.time, verdict, head }
    else none
  | _, _ => none

def countingVerdicts (reviews comments : List ApiRecord) : List Counted :=
  reviews.filterMap (countedReview python timestamp policy author) ++
    comments.filterMap (countedComment python timestamp policy author)

/-- The newer of two dated verdicts; of equally new ones, the first. -/
def newer (best : Option Counted) (entry : Counted) : Option Counted :=
  match best with
  | none => some entry
  | some kept =>
    match kept.time, entry.time with
    | some first, some second => if first < second then some entry else some kept
    | _, _ => some kept

def newest (verdicts : List Counted) : Option Counted := verdicts.foldl newer none

/-- `_latest_on`: any HOLD, else the newest approval. -/
def latestOn (verdicts : List Counted) (head : String) : Option Counted :=
  let onHead := verdicts.filter fun entry => entry.head = head
  match onHead.find? fun entry => entry.verdict = .hold with
  | some hold => some hold
  | none => newest (onHead.filter fun entry => entry.time.isSome)

/-- Whether `review_verdict` allows the head. -/
def reviewVerdict (head : String) (reviews comments : List ApiRecord) : Bool :=
  (latestOn (countingVerdicts python timestamp policy author reviews comments)
    (python.lower head)).any fun entry => entry.verdict = .approve

end Python

end ArmGuard

end Shipyard.HeadApproval
