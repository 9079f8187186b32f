import Shipyard.PrQueue.State

/-!
# The classifier of the arm guard

`classify_pr_queue_state` of `scripts/ghapp_queue_arm_guard.py`, the second
reader of the same responses. What Python's string methods do beyond ASCII and
how it reads a timestamp are parameters.
-/

namespace Shipyard.PrQueue

open Lib

/-- The classes both readers name. -/
inductive QueueClass where
  | merged
  | closed
  | queued
  | armedNotQueued
  | neverArmed
  | ejected
  | unknown
deriving DecidableEq

def PrQueueState.queueClass : PrQueueState → QueueClass
  | .merged => .merged
  | .closed => .closed
  | .queued .. => .queued
  | .armedNotQueued .. => .armedNotQueued
  | .neverArmed => .neverArmed
  | .ejected .. => .ejected
  | .unknown _ => .unknown

def IsAscii (text : String) : Prop := ∀ char ∈ text.toList, char.val < 128

instance (text : String) : Decidable (IsAscii text) :=
  List.decidableBAll (fun char : Char => char.val < 128) text.toList

def toAsciiLowercase (text : String) : String := String.ofList (text.toList.map Char.toLower)

theorem eqIgnoreAsciiCase_iff {first second : String} :
    eqIgnoreAsciiCase first second = true ↔ toAsciiLowercase first = toAsciiLowercase second := by
  rw [eqIgnoreAsciiCase, decide_eq_true_iff, toAsciiLowercase, toAsciiLowercase]
  exact ⟨congrArg String.ofList, fun h => by simpa using congrArg String.toList h⟩

/-- The string methods of Python, which are known on ASCII text. -/
structure PythonText where
  lower : String → String
  upper : String → String
  lower_ascii : ∀ text, IsAscii text → lower text = toAsciiLowercase text
  upper_ascii : ∀ text, IsAscii text → upper text = toAsciiUppercase text

namespace ArmGuard

/-! ## Timeline items -/

/-- `_oid`: an empty commit name counts as none. -/
def oid (value : Json) : Option String := (value.textAt ["oid"]).filter fun oid => oid ≠ ""

def pushedOid (node : Json) : Option String :=
  match itemKind node with
  | .commit => (node.get? "commit").bind oid
  | .forcePush => (node.get? "afterCommit").bind oid
  | _ => none

section Python

variable (python : PythonText)

def sameLowered (left right : String) : Bool := python.lower left = python.lower right

def isKnown (known : List String) (oid : String) : Bool :=
  known.any fun seen => sameLowered python seen oid

def cascades (reason : String) : Bool := retryHazardReasons.contains (python.lower reason)

/-- `_removed_head`: of two parents only the second must name a commit. -/
def removedHead (node : Json) (known : List String) : Option String :=
  match (node.get? "beforeCommit").filter Json.isObj with
  | none => none
  | some before =>
    match (oid before).filter (isKnown python known) with
    | some oid => some oid
    | none =>
      match before.itemsAt ["parents", "nodes"] with
      | none => none
      | some parents =>
        match parents.map oid with
        | [_, some head] => if isKnown python known head then some head else none
        | _ => none

/-- The head of a merge group with two parents, as this reader takes it. -/
def secondParent (before : Json) : Option String :=
  match (before.itemsAt ["parents", "nodes"]).map fun parents => parents.map oid with
  | some [_, some head] => some head
  | _ => none

def namedOids (node : Json) : List String :=
  match (node.get? "beforeCommit").filter Json.isObj with
  | none => []
  | some before => (oid before).toList ++ (secondParent before).toList

theorem removedHead_eq_find? (node : Json) (known : List String) :
    removedHead python node known = (namedOids node).find? (isKnown python known) := by
  unfold removedHead namedOids
  cases (node.get? "beforeCommit").filter Json.isObj with
  | none => rfl
  | some before =>
    dsimp only
    rw [find?_toList_append]
    cases (oid before).filter (isKnown python known) with
    | some oid => rfl
    | none =>
      dsimp only [secondParent]
      cases before.itemsAt ["parents", "nodes"] with
      | none => rfl
      | some parents =>
        dsimp only [Option.map_some]
        rcases parents.map oid with _ | ⟨first, _ | ⟨_ | head, _ | ⟨third, rest⟩⟩⟩
        case cons.cons.some.nil => exact (Option.filter_some ..).symm
        all_goals rfl

def knownHeads (nodes : List Json) (head : Option String) : List String :=
  nodes.filterMap pushedOid ++ head.toList

def removedHeads (nodes : List Json) (known : List String) : List (Option String) :=
  nodes.map fun node => if itemKind node = .removed then removedHead python node known else none

def sameHeadReAdd (nodes : List Json) (heads : List (Option String)) (removal add : Nat)
    (queuedHead : Option String) : Option Bool :=
  match (heads[removal]?).join with
  | none => none
  | some removed =>
    let reAdded :=
      match nextRemoval nodes (add + 1) with
      | some index => (heads[index]?).join
      | none => queuedHead
    reAdded.map fun reAdded => sameLowered python reAdded removed

/-! ## The walk -/

section Walk

variable (nodes : List Json) (heads : List (Option String)) (queuedHead : Option String)

def reAddsPending (pending : Option (Nat × Bool)) (index : Nat) : Bool :=
  pending.any fun (removal, pushed) =>
    match sameHeadReAdd python nodes heads removal index queuedHead with
    | none => !pushed
    | some same => same

def walkStep (walk : Walk) (item : Json × Nat) : Walk :=
  match itemKind item.1 with
  | .commit | .forcePush =>
    { walk with
      hazardPending := walk.hazardPending.map fun (removal, _) => (removal, true)
      lastNewHead := some item.2 }
  | .removed =>
    let reason := removalReason item.1
    { walk with
      hazardPending := if cascades python reason then some (item.2, false) else none
      lastRemoval := some (item.2, reason, createdAt item.1) }
  | .added =>
    { walk with
      requeues := if reAddsPending python nodes heads queuedHead walk.hazardPending item.2 then
        walk.requeues + 1 else walk.requeues
      hazardPending := none }
  | .other => walk

def walkTimeline : Walk := nodes.zipIdx.foldl (walkStep python nodes heads queuedHead) {}

end Walk

def ejectionsOfHead (nodes : List Json) (heads : List (Option String)) (head : Option String) :
    Nat :=
  match head with
  | none => 0
  | some head =>
    let firstPush := nodes.findIdx? fun node =>
      sameLowered python ((pushedOid node).getD "") head
    nodes.zipIdx.countP fun (node, index) =>
      itemKind node = .removed && cascades python ((node.textAt ["reason"]).getD "") &&
        match (heads[index]?).join with
        | some removed => sameLowered python removed head
        | none => firstPush.all fun first => first < index

/-! ## New heads -/

section Timestamps

variable (fromisoformat : String → Option Time)

def timestamp (value : String) : Option Time := fromisoformat (value.replace "Z" "+00:00")

def earliestSuite (node : Json) : Option Time :=
  (((node.itemsAt ["commit", "checkSuites", "nodes"]).getD []).filterMap
    fun suite => (createdAt suite).bind (timestamp fromisoformat)).min?

def suiteAfter (head : String) (removedAt : Time) (node : Json) : Bool :=
  itemKind node = .commit && (pushedOid node).any (fun oid => sameLowered python oid head) &&
    (earliestSuite fromisoformat node).any fun suite => removedAt < suite

def newHeadSince (nodes : List Json) (index : Nat) (removed head : Option String) :
    Bool × NewHeadBasis :=
  match head with
  | none => (false, .noEvidence)
  | some head =>
    match removed with
    | some removed => (!sameLowered python removed head, .removedHeadSha)
    | none =>
      if (nodes.drop (index + 1)).any fun node =>
          (pushedOid node).any fun oid => sameLowered python oid head then
        (true, .pushAfterRemoval)
      else
        match ((nodes[index]?).bind createdAt).bind (timestamp fromisoformat) with
        | some removedAt =>
          if nodes.any (suiteAfter python fromisoformat head removedAt) then
            (true, .suiteAfterRemoval)
          else (false, .noEvidence)
        | none => (false, .noEvidence)

/-! ## The classification -/

structure Ejection where
  reason : String
  removedAt : Option String
  newHeadSince : Bool
  removedHead : Option String
  newHeadBasis : NewHeadBasis
  mergeGroupCommit : Option String

/-- What a pull request that could be read is reported with. -/
structure Fields where
  head : Option String
  requeuesWithoutNewHead : Nat
  ejectionsOfCurrentHead : Nat
  lastEjection : Option Ejection
  timelineComplete : Option Bool

structure Classification where
  queueClass : QueueClass
  detail : Option String := none
  reason : Option String := none
  removedAt : Option String := none
  newHeadSinceRemoval : Option Bool := none
  fields : Option Fields := none

/-- The class, after the pull request has been read. -/
def classifyRead (state : String) (inQueue armed : Bool) (walk : Walk) (fields : Fields) :
    Classification :=
  let upper := python.upper state
  if upper = "MERGED" then { queueClass := .merged, fields }
  else if upper = "CLOSED" then { queueClass := .closed, fields }
  else if upper ≠ "OPEN" then
    { queueClass := .unknown, detail := "unrecognized pull request state " ++ state, fields }
  else if inQueue then { queueClass := .queued, fields }
  else if armed then { queueClass := .armedNotQueued, fields }
  else
    match fields.lastEjection with
    | some ejection =>
      { queueClass := .ejected
        reason := ejection.reason
        removedAt := ejection.removedAt
        newHeadSinceRemoval := ejection.newHeadSince
        fields }
    | none =>
      if fields.timelineComplete = some false ∧ walk.lastRemoval = none ∧
          walk.lastNewHead = none then
        { queueClass := .unknown, detail := truncatedDetail, fields }
      else { queueClass := .neverArmed, fields }

/-- `_pull_request`. -/
def pullRequest (response : Json) : Option Json :=
  match (response.get? "data").filter Json.isObj with
  | some data =>
    match ((data.get? "repository").filter Json.isObj).bind
        fun repository => (repository.get? "pullRequest").filter Json.isObj with
    | some pr => some pr
    | none =>
      match (data.get? "node").filter Json.isObj with
      | some node => some node
      | none => if (response.get? "state").isSome then some response else none
  | none => if (response.get? "state").isSome then some response else none

/-- The head of a pull request; an empty one counts as none. -/
def headOf (pr : Json) : Option String := (pr.textAt ["headRefOid"]).filter fun head => head ≠ ""

def timelineComplete (pr : Json) : Option Bool :=
  ((pr.pointer ["timelineItems", "pageInfo", "hasPreviousPage"]).bind Json.asBool?).map
    fun hasPrevious => !hasPrevious

def lastEjection (nodes : List Json) (heads : List (Option String)) (walk : Walk)
    (head : Option String) : Option Ejection :=
  (walk.lastRemoval.filter fun (_, reason, _) => python.lower reason ≠ "merged").map
    fun (index, reason, removedAt) =>
      let removed := (heads[index]?).join
      let newHead := newHeadSince python fromisoformat nodes index removed head
      { reason
        removedAt
        newHeadSince := newHead.1
        removedHead := removed
        newHeadBasis := newHead.2
        mergeGroupCommit := ((nodes[index]?).bind fun node => node.get? "beforeCommit").bind oid }

/-- The part of the classifier after the timeline has been found. -/
def classifyTimeline (pr : Json) (state : String) (inQueue : Bool) (nodes : List Json) :
    Classification :=
  let head := headOf pr
  let heads := removedHeads python nodes (knownHeads nodes head)
  let walk := walkTimeline python nodes heads (if inQueue then head else none)
  classifyRead python state inQueue ((pr.get? "autoMergeRequest").any Json.isObj) walk
    { head
      requeuesWithoutNewHead := walk.requeues
      ejectionsOfCurrentHead := ejectionsOfHead python nodes heads head
      lastEjection := lastEjection python fromisoformat nodes heads walk head
      timelineComplete := timelineComplete pr }

def classifyPrQueueState (response : Json) : Classification :=
  match responseErrors response with
  | some errors =>
    { queueClass := .unknown
      detail := "GraphQL errors: " ++ "; ".intercalate
        ((errors.filter Json.isObj).map fun error => (error.textAt ["message"]).getD "None") }
  | none =>
    match pullRequest response with
    | none => { queueClass := .unknown, detail := "response carries no pull request object" }
    | some pr =>
      match pr.textAt ["state"] with
      | none => { queueClass := .unknown, detail := "state is missing" }
      | some state =>
        match (pr.get? "isInMergeQueue").bind Json.asBool? with
        | none => { queueClass := .unknown, detail := "isInMergeQueue is missing" }
        | some inQueue =>
          match pr.itemsAt ["timelineItems", "nodes"] with
          | none => { queueClass := .unknown, detail := "timelineItems.nodes is missing" }
          | some nodes => classifyTimeline python fromisoformat pr state inQueue nodes

end Timestamps

end Python

end ArmGuard

end Shipyard.PrQueue
