import Shipyard.HeadApproval.Text
import Shipyard.Job

/-!
# Which verdicts count

A review or comment is a flat record of what GitHub says about it. Who wrote it
decides whether its HOLD counts, and for an approval also how it was signed and
stamped. What the host adds, its session lists and its reading of texts, is the
`Host`.
-/

namespace Shipyard.HeadApproval

open Lib
open MergeSteward (trim)
open PrQueue (eqIgnoreAsciiCase toAsciiLowercase)

/-! ## Policy and host -/

inductive SignerSource where
  | host
  | base
deriving DecidableEq, Repr

/-- What authorizes a head. -/
inductive ApprovalSource where
  | comments
  | guard (check : String) (appId : Nat)
  | misconfigured (detail : String)
deriving DecidableEq, Repr

def ApprovalSource.isComments : ApprovalSource → Bool
  | .comments => true
  | _ => false

structure ApprovalPolicy where
  required : Bool := false
  reviewerLogins : List String := []
  anyReviewerButAuthor : Bool := false
  humanReviewerLogins : List String := []
  signers : Option (List String) := none
  signerIdentities : List (String × List String) := []
  stampSessions : Option (List String) := none
  rebaseCarry : Bool := false
  signerSource : SignerSource := .host
  carryExcluded : Option (List String) := none
  source : ApprovalSource := .comments
deriving DecidableEq, Repr

/-- With no reviewer listed, the default rule decides who counts. -/
def ApprovalPolicy.defaultRule (policy : ApprovalPolicy) : Bool :=
  policy.anyReviewerButAuthor && policy.reviewerLogins.isEmpty

/-- What the process reads of its host, and how it reads texts. -/
structure Host where
  /-- RFC 3339 timestamps. -/
  parseTimestamp : String → Option Time
  /-- A time with the format `%Y-%m-%dT%H:%M:%SZ`. -/
  formatTimestamp : Time → String
  /-- The characters of `\w`. -/
  isWord : Char → Bool
  /-- `reviewer_sessions` -/
  sessions : Option (List String)
  /-- `reviewer_session_hosts` -/
  sessionHosts : List (String × List String)

/-! ## Record fields -/

def login (record : Json) : Option String := record.textAt ["login"]

def body (record : Json) : Option String := record.textAt ["body"]

def recordId (record : Json) : Option Nat := (record.get? "id").bind Json.asU64?

def performedViaGithubAppId (record : Json) : Option Nat :=
  (record.get? "performed_via_github_app_id").bind Json.asU64?

variable (host : Host)

/-- `at` -/
def recordTime (record : Json) : Option Time :=
  (record.textAt ["at"]).bind host.parseTimestamp

def inState (record : Json) (state : String) : Bool :=
  (record.textAt ["state"]).any fun text => eqIgnoreAsciiCase text state

def onCommit (record : Json) (head : String) : Bool :=
  (record.textAt ["commit_id"]).any fun commit => eqIgnoreAsciiCase commit head

/-- The verdict of a comment's last line. -/
def commentVerdict (comment : Json) : Option (Verdict × String) := (body comment).bind markerVerdict

/-! ## Who counts -/

def trustedAssociations : List String := ["OWNER", "MEMBER", "COLLABORATOR"]

def trustedReviewer (login : String) (association author : Option String) : Bool :=
  (isFleetAuthor login || association.any (· ∈ trustedAssociations)) &&
    author.all fun author =>
      normalizedLogin author != normalizedLogin login || isFleetAuthor author

def reviewerAllowed (policy : ApprovalPolicy) (author : Option String) (record : Json) : Bool :=
  match login record with
  | none => false
  | some login =>
    -- A user account named like the App is anyone at all.
    if isFleetAuthor login && record.textAt ["type"] != some "Bot" then false
    else if policy.defaultRule then
      trustedReviewer login (record.textAt ["association"]) author
    else
      !isFleetAuthor login &&
        policy.reviewerLogins.any (fun name => normalizedLogin name == normalizedLogin login) &&
        author.all fun author => normalizedLogin author != normalizedLogin login

/-! ## The App's approvals -/

def stampSessionRefusal (session : Option String) (patterns : List String) :
    Option (String × String) :=
  match session with
  | none => some ("no_stamp", "it has no `ghapp` session stamp")
  | some session =>
    if patterns.any fun pattern => globMatch pattern (toAsciiLowercase session) then none
    else
      let listed := ", ".intercalate patterns
      some ("unlisted_stamp_session",
        s!"its stamp session {session} is not one of the base's `reviewer_stamp_sessions` " ++
          s!"({listed})")

/-- Why one session line does not name the host of the stamp. -/
def sessionLineRefusal (stampHost line : String) : Option String :=
  match ((sessionHostPattern host.isWord).capturesIter line).head?.bind
      (Regex.capture · 1) with
  | none => some s!"its session line `session: {line}` names no host"
  | some named =>
    let short := toAsciiLowercase named
    match host.sessionHosts.lookup short with
    | none => some s!"host {short} has no `session_hosts` entry on this host"
    | some names =>
      if toAsciiLowercase stampHost ∈ names then none
      else
        let listed := if names.isEmpty then "no hostnames" else ", ".intercalate names
        some s!"its stamp host {stampHost} is not host {short} ({listed})"

def stampRefusal (body : String) (found : List String) : Option String :=
  match (stampPattern.capturesIter body).filterMap (Regex.capture · 1) with
  | [] => some "it has no `ghapp` session stamp"
  | [stampHost] => found.findSome? (sessionLineRefusal host stampHost)
  | stamps =>
    let count := stamps.length
    some s!"it carries {count} `ghapp` session stamps"

def sessionRefusal (body : String) : Option String :=
  match host.sessions with
  | none => none
  | some sessions =>
    let found := ((sessionPattern.capturesIter body).filterMap (Regex.capture · 1)).map
      sessionValue
    if found.isEmpty then some "it has no `session:` line"
    else
      match found.find? fun line => line ∉ sessions with
      | some line => some s!"its session line `session: {line}` is not on this host's allowlist"
      | none => stampRefusal host body found

/-- Why no signer of a body is one the list allows, or is bound to its stamp. -/
def signerRefusal (policy : ApprovalPolicy) (signers : List String) (body : String) :
    Option (String × String) :=
  let signed := signedNames body
  let matching := signed.filter (· ∈ signers)
  if signed.isEmpty then some ("no_signer_line", "it has no `reviewer: <name>` line")
  else if matching.isEmpty then
    let name := signed.getLastD ""
    let listed := if signers.isEmpty then "nobody" else ", ".intercalate signers
    some ("uncounted_signer", s!"its signer {name} is not one of {listed}")
  else if policy.signerIdentities.isEmpty then none
  else
    match stampedIdentity body with
    | none => some ("unbound_identity", "its ghapp stamp has no reviewer agent identity")
    | some identity =>
      if matching.any fun name =>
          (policy.signerIdentities.lookup name).any (identity ∈ ·) then none
      else
        let name := matching.getLastD ""
        if (policy.signerIdentities.lookup name).isNone then
          some ("unbound_identity", s!"its signer {name} has no base identity binding")
        else
          some ("unbound_identity",
            s!"its signer {name} is not bound to stamped identity {identity}")

/-- Why the App's approval does not count: a token and a sentence. -/
def appApprovalRefusalReason (policy : ApprovalPolicy) (record : Json) : Option (String × String) :=
  let text := (body record).getD ""
  let session := stampedSession text
  if noncanonicalStamp text then
    some ("noncanonical_stamp", "it carries a non-canonical session stamp")
  else if session = some "unattributed" then
    some ("unattributed", "its session stamp is unattributed")
  else if policy.signerSource = .base ∧ session = none then
    some ("no_stamp", "it has no `ghapp` session stamp")
  else
    match policy.stampSessions.bind (stampSessionRefusal session) with
    | some refusal => some refusal
    | none =>
      match (if policy.signerSource = .host then sessionRefusal host text else none) with
      | some refusal => some ("session_not_allowed", refusal)
      | none =>
        match policy.signers with
        | some signers => signerRefusal policy signers text
        | none =>
          if policy.signerSource = .base then
            some ("no_signer_list", "no signer list is configured on the base branch " ++
              "(`[auto_merge] reviewer_signers`)")
          else none

def appApprovalRefusal (policy : ApprovalPolicy) (record : Json) : Option String :=
  (appApprovalRefusalReason host policy record).map Prod.snd

def approverAllowed (policy : ApprovalPolicy) (record : Json) : Bool :=
  if !policy.defaultRule then true
  else
    (login record).any fun login =>
      if isFleetAuthor login then (appApprovalRefusal host policy record).isNone
      else policy.humanReviewerLogins.any (· == normalizedLogin login)

def verdictCounts (policy : ApprovalPolicy) (author : Option String) (verdict : Verdict)
    (record : Json) : Bool :=
  reviewerAllowed policy author record && (verdict = .hold || approverAllowed host policy record)

end Shipyard.HeadApproval
