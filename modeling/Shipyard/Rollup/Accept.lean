import Shipyard.HeadApproval.MergeSoundness

/-!
# Accepting a rollup

`rollup::accept` lands several approved pull requests as one tested merge. The head is
a chain of two-parent merges on the base commit, one for each member, whose second
parent is the member's exact approved head. Every check reads GitHub and the base's
configuration alone.
-/

namespace Shipyard.Rollup

open Lib
open HeadApproval (Approval FileChange HeadGate Member PrFiles RunGh carryExcluded compareFiles
  globMatch short)
open MergeSteward (trim)
open PrQueue (eqIgnoreAsciiCase toAsciiLowercase)

def branchPrefix : String := "shipyard-train/rollup-"

inductive Mode where
  | off
  | burst
  | rollup
deriving DecidableEq, Repr

/-- The base's `[train]` table. -/
structure Config where
  enabled : Bool := false
  mode : Mode := .off
  maxMembers : Nat := 4
  excludePaths : List String := []
  hotFiles : List String := []
  requireCountedApproval : Bool := true

def Config.rollsUp (config : Config) : Bool := config.enabled && config.mode = .rollup

/-- An accepted rollup: its members are oldest first. -/
structure Rollup where
  pr : Nat
  head : String
  base : String
  baseSha : String
  baseTip : String
  members : List (Member Approval)

/-- The calls of the acceptance: those of any carry, the rollup pull request, the tip
of a branch, the parents of a commit, the pull requests with a head, and whether this
host's train is stopped. -/
structure RollupGh extends RunGh where
  pull : Nat → Except String Json
  branchTip : String → Except String String
  commitParents : String → Except String Json
  commitPulls : String → Except String Json
  hostStopped : Option String

/-! ## The chain of merges -/

def parents (run : RollupGh) (sha : String) : Except String (List String) := do
  match (← run.commitParents sha).asArr? with
  | some items => return (items.filterMap Json.asStr?).map toAsciiLowercase
  | none =>
    let shown := short sha
    .error s!"commit {shown} lists no parents"

def baseTip (run : RollupGh) (base : String) : Except String String := do
  let tip := toAsciiLowercase (trim (← run.branchTip base))
  if tip.utf8ByteSize ≠ 40 then .error s!"the tip of {base} is unreadable" else return tip

/-- The merges from the base commit up to one, with the member heads they merge. -/
def walkChain (run : RollupGh) (head baseSha : String) (max : Nat) :
    Nat → String → Except String (List (String × String))
  | remaining, sha =>
    if sha = toAsciiLowercase baseSha then .ok []
    else
      match remaining with
      | 0 =>
        let shown := short head
        let base := short baseSha
        .error (s!"the first-parent chain from {shown} does not reach the base commit " ++
          s!"{base} within {max} merges")
      | remaining + 1 => do
        match ← parents run sha with
        | [first, member] =>
          return (← walkChain run head baseSha max remaining first) ++ [(sha, member)]
        | _ =>
          let shown := short sha
          .error (s!"commit {shown} on the rollup's first-parent chain is not a " ++
            "two-parent merge: a rollup is only merges of member heads")

def chain (run : RollupGh) (head baseSha : String) (max : Nat) :
    Except String (List (String × String)) := do
  let links ← walkChain run head baseSha max max (toAsciiLowercase head)
  if links.isEmpty then .error "the rollup merges no member" else return links

/-! ## One member -/

/-- A listed pull request that is open at a head. -/
def openAt (head : String) (pull : Json) : Bool :=
  pull.textAt ["state"] = some "open" && (pull.textAt ["sha"]).any (eqIgnoreAsciiCase · head)

def isDraftAt (head : String) (pull : Json) : Bool :=
  (pull.get? "draft").bind Json.asBool? = some true && openAt head pull

def openMembers (base head : String) (rollup : Nat) (pulls : List Json) : List Nat :=
  ((pulls.filter fun pull => openAt head pull && pull.textAt ["base"] = some base).filterMap
    fun pull => (pull.get? "number").bind Json.asU64?).filter (· ≠ rollup)

def memberPr (run : RollupGh) (base head : String) (rollup : Nat) : Except String Nat := do
  let pulls := (← run.commitPulls head).asArr?.getD []
  match pulls.find? (isDraftAt head) with
  | some draft =>
    let number := ((draft.get? "number").bind Json.asU64?).getD 0
    .error s!"member #{number} is a draft; a draft never joins a rollup"
  | none =>
    let shown := short head
    match openMembers base head rollup pulls with
    | [number] => return number
    | [] => .error s!"{shown} is not the current head of an open pull request on {base}"
    | several =>
      let listed := ", ".intercalate (several.map toString)
      .error s!"{shown} is the head of more than one open pull request ([{listed}])"

/-- What an approval is, in words. -/
def describe : Approval → String
  | .review login _ => s!"an approving review by {login}"
  | .marker login _ _ => s!"a reviewed:<sha> marker by {login}"
  | .admission check _ checkRunId _ classification =>
    s!"`{check}` admission (run {checkRunId}, {classification})"
  | .rollup members =>
    let listed := ", ".intercalate (members.map fun member =>
      let shown := short member.head
      let number := member.pr
      s!"#{number}@{shown}")
    s!"a rollup of {listed}, each merged at the exact head its own approval names"
  | .carried fromHead approval rebase =>
    let inner := describe approval
    let shown := short fromHead
    let how := if rebase then
      "across a rebase (same patch-id, the base touched none of its files)"
    else "by merge-only updates"
    s!"{inner} of {shown}, carried {how} with byte-identical own lines"

/-- Why a gate does not let a head land, or what it carries. -/
def explain : HeadGate → String
  | .notRequired => "this repository does not require head approval"
  | .approved approval =>
    let what := describe approval
    s!"the head carries {what}"
  | .notApproved head =>
    let shown := short head
    s!"head {shown} carries no approval: it needs a comment whose last line is " ++
      s!"`verdict: APPROVE head:{head}` or `reviewed: {head}`, or an APPROVED review " ++
      "on that commit, from a listed reviewer, or where none is listed from the " ++
      "fleet App (a `ghapp` verdict comment) or a human the base lists in " ++
      "`[auto_merge] human_reviewers`, never the PR author, and no HOLD naming " ++
      "it: a HOLD makes its head un-approvable, so a held head needs a new " ++
      "push. This repository arms only approved heads; left disarmed until a " ++
      "reviewer posts that verdict"
  | .selfApproved head agent =>
    let shown := short head
    s!"the approval of head {shown} was posted by this same agent ({agent}); an agent " ++
      "cannot approve its own landing. Left disarmed until another agent approves it"
  | .notAdmitted head detail =>
    let shown := short head
    s!"head {shown} is not admitted: {detail}. This base takes authorization from the " ++
      "fleet's admission check only; reviewer comments do not count"
  | .ejectionCap head ejections =>
    let shown := short head
    let count := ejections.length
    let listed := "; ".intercalate
      (ejections.map fun ejection => ejection.reason ++ ": " ++ ejection.cause)
    s!"the merge queue removed head {shown} {count} times ({listed}), and no approval " ++
      "followed the last removal; left disarmed until a reviewer approves it again or a " ++
      "new head is pushed"

/-- Why a member's gate keeps it out of a rollup. -/
def memberRefusal (pr : Nat) (gate : HeadGate) (counted : Bool) : Option String :=
  match gate with
  | .approved (.carried ..) =>
    if counted then
      some (s!"member #{pr}'s approval is carried from an earlier head; a rollup member " ++
        "needs a verdict naming its exact head (require_counted_approval)")
    else none
  | .approved (.rollup _) => some s!"member #{pr} is itself a rollup"
  | .notRequired | .approved _ => none
  | other =>
    let why := explain other
    some s!"member #{pr}: {why}"

/-- The names of a comparison: its files and what they were renamed from. -/
def touched (changes : PrFiles) : List String :=
  (SortedMap.empty.insertAllIfAbsent (fun _ => ())
    (changes.files.keys ++ changes.sources.values)).keys

/-- The first name that one of two comparisons lists and the other does not. -/
def keyMoved (expected found : SortedMap String FileChange) : Option String :=
  (expected.keys.filter (· ∉ found.keys) ++ found.keys.filter (· ∉ expected.keys)).min?

/-- Why a listed file is not as expected. -/
def fileMoved (what : String) (expected found : PrFiles) (entry : String × FileChange) :
    Option String :=
  (found.files.get? entry.1).bind fun other =>
    let name := entry.1
    if entry.2.status ≠ other.status || !eqIgnoreAsciiCase entry.2.sha other.sha then
      let now := other.status
      let blob := short other.sha
      let status := entry.2.status
      let approved := short entry.2.sha
      some (s!"{what} leaves {name} {now} at blob {blob}, not the member's approved " ++
        s!"{status} at {approved}")
    else if expected.sources.get? name ≠ found.sources.get? name then
      some s!"{what} renames {name} from somewhere else"
    else none

def sameChange (what : String) (expected found : PrFiles) : Option String :=
  match keyMoved expected.files found.files with
  | some name => some s!"{what} changes {name}, which the member does not, or misses it"
  | none => expected.files.entries.findSome? (fileMoved what expected found)

/-! ## The members together -/

/-- What the members so far change, and the last merge. -/
structure Progress where
  members : List (Member Approval)
  seen : SortedMap String Nat
  files : SortedMap String FileChange
  sources : SortedMap String String
  previous : String

/-- Takes the files of a member, none of which another one may change. -/
def claimFiles (number : Nat) : List String → SortedMap String Nat →
    Except String (SortedMap String Nat)
  | [], seen => .ok seen
  | name :: rest, seen =>
    match seen.get? name with
    | some other =>
      .error (s!"members #{other} and #{number} both change {name}; rollup members " ++
        "change disjoint files")
    | none => claimFiles number rest (seen.insert name number)

/-- The first of a member's files that the base changed since the member's merge base. -/
def staleFile (run : RunGh) (baseSha : String) (own : PrFiles) : Except String (Option String) :=
  if eqIgnoreAsciiCase own.mergeBase baseSha then .ok none
  else do
    let moved ← compareFiles run own.mergeBase baseSha
    return (touched moved).find? (· ∈ touched own)

def approvalOf : HeadGate → Option Approval
  | .approved approval => some approval
  | _ => none

section Members

variable (run : RollupGh) (pr : Nat) (config : Config)
  (memberGate : Nat → String → Except String HeadGate) (base baseSha : String)

/-- One merge of the chain and the member it merges. -/
def addMember (progress : Progress) (link : String × String) : Except String Progress := do
  let (merge, memberHead) := link
  let number ← memberPr run base memberHead pr
  refuse (if progress.members.any (·.pr = number) then
    some s!"member #{number} is merged more than once" else none)
  let gate ← memberGate number memberHead
  refuse (memberRefusal number gate config.requireCountedApproval)
  let own ← compareFiles run.toRunGh baseSha memberHead
  let seen ← claimFiles number (touched own) progress.seen
  let stale ← staleFile run.toRunGh baseSha own
  refuse (stale.map fun name =>
    let shown := short own.mergeBase
    s!"the base changed {name} after member #{number}'s merge base {shown}; the member " ++
      "must be updated and approved again before it joins a rollup")
  let step ← compareFiles run.toRunGh progress.previous merge
  let shown := short merge
  refuse (sameChange s!"the rollup's merge {shown} of #{number}" own step)
  return {
    members := progress.members ++ [{
      pr := number
      head := memberHead
      merge
      files := touched own
      approval := approvalOf gate }]
    seen
    files := progress.files.extend own.files
    sources := progress.sources.extend own.sources
    previous := merge }

end Members

/-- The members that change a file a hot pattern matches. -/
def hotMembers (seen : SortedMap String Nat) (pattern : String) : List Nat :=
  (SortedMap.empty.insertAllIfAbsent (fun _ => ())
    ((seen.entries.filter fun entry => globMatch pattern entry.1).map Prod.snd)).keys

def hotRefusal (seen : SortedMap String Nat) (pattern : String) : Option String :=
  let hot := hotMembers seen pattern
  if 1 < hot.length then
    let listed := ", ".intercalate (hot.map toString)
    some (s!"members \x7b{listed}\x7d each change a hot file ({pattern}); at most one member " ++
      "of a rollup may")
  else none

def shownMode : Option Nat → String
  | some mode => s!"Some({mode})"
  | none => "None"

/-- Checks that each file of a member has its approved mode at the rollup head. -/
def checkModes (run : RunGh) (present : List String) (headModes : SortedMap String Nat) :
    List (Member Approval) → Except String Unit
  | [] => .ok ()
  | member :: rest => do
    let names := member.files.filter (· ∈ present)
    let modes ← run.treeModes member.head names
    refuse ((names.find? fun name => headModes.get? name ≠ modes.get? name).map fun name =>
      let now := shownMode (headModes.get? name)
      let approved := shownMode (modes.get? name)
      let number := member.pr
      s!"{name} has mode {now} at the rollup head and {approved} at member #{number}'s " ++
        "approved head")
    checkModes run present headModes rest

/-- The first member file that the base changed since the rollup was formed. -/
def tipMoved (run : RunGh) (baseSha tip : String) (seen : SortedMap String Nat) :
    Except String (Option String) :=
  if tip = baseSha then .ok none
  else do
    let moved ← compareFiles run baseSha tip
    return (touched moved).find? fun name => (seen.get? name).isSome

/-- Why the pull request is not a rollup at this head. -/
def pullRefusal (repo : String) (pr : Nat) (head : String) (pull : Json) : Option String :=
  let field := fun key => (pull.textAt [key]).getD ""
  if !branchPrefix.toList.isPrefixOf (field "ref").toList then
    some s!"PR #{pr}'s branch is not a {branchPrefix}* rollup"
  else if !eqIgnoreAsciiCase (field "head_repo") repo then
    some s!"PR #{pr}'s rollup branch is not in {repo}"
  else if field "state" ≠ "open" || !eqIgnoreAsciiCase (field "sha") head then
    let shown := short head
    some s!"PR #{pr} is not open at {shown}; read it again"
  else none

def accept (run : RollupGh) (repo : String) (pr : Nat) (head : String) (config : Config)
    (excluded : List String) (memberGate : Nat → String → Except String HeadGate) :
    Except String Rollup := do
  refuse (if config.rollsUp then none else some
    "the base does not take rollups ([train] enabled = true, mode = \"rollup\")")
  refuse run.hostStopped
  let pull ← run.pull pr
  refuse (pullRefusal repo pr head pull)
  let base := (pull.textAt ["base"]).getD ""
  let union ← compareFiles run.toRunGh base head
  let baseSha := toAsciiLowercase union.mergeBase
  let tip ← baseTip run base
  let links ← chain run head baseSha config.maxMembers
  let done ← links.foldlM (addMember run pr config memberGate base baseSha)
    { members := [], seen := .empty, files := .empty, sources := .empty, previous := baseSha }
  let shown := short head
  refuse (sameChange s!"the rollup head {shown}"
    { files := done.files, mergeBase := baseSha, sources := done.sources } union)
  -- Checked apart, so a carry allow never re-includes a rollup exclusion.
  refuse (((carryExcluded done.seen.keys config.excludePaths).or
    (carryExcluded done.seen.keys excluded)).map fun why =>
      s!"a rollup member cannot land this way: {why}")
  refuse (config.hotFiles.findSome? (hotRefusal done.seen))
  let present := HeadApproval.presentFiles union.files
  let headModes ← run.treeModes head present
  checkModes run.toRunGh present headModes done.members
  let moved ← tipMoved run.toRunGh baseSha tip done.seen
  refuse (moved.map fun name =>
    let formed := short baseSha
    s!"the base changed {name}, which a member changes, after the rollup was formed on " ++
      s!"{formed}; form it again")
  return {
    pr
    head := toAsciiLowercase head
    base
    baseSha
    baseTip := tip
    members := done.members }

end Shipyard.Rollup
