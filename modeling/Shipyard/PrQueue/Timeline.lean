import Shipyard.Job
import Shipyard.Lib.Json

/-!
# The timeline of a pull request

The items of a pull request's timeline as `pr_queue_state.rs` reads them: the
head a queue removal removed, whether a new head followed it, and the one walk
that counts re-adds of an unchanged head. Reading a timestamp is a parameter.
-/

namespace Shipyard.PrQueue

open Lib

/-- Equality up to the case of ASCII letters. -/
def eqIgnoreAsciiCase (left right : String) : Bool :=
  left.toList.map Char.toLower = right.toList.map Char.toLower

/-- The timeline items the classifier tells apart, by their `__typename`. -/
inductive ItemKind where
  | commit
  | forcePush
  | added
  | removed
  | other
deriving DecidableEq

variable (node : Json)

def itemKind : ItemKind :=
  match node.textAt ["__typename"] with
  | some "PullRequestCommit" => .commit
  | some "HeadRefForcePushedEvent" => .forcePush
  | some "AddedToMergeQueueEvent" => .added
  | some "RemovedFromMergeQueueEvent" => .removed
  | _ => .other

def ItemKind.isNewHead : ItemKind → Bool
  | .commit => true
  | .forcePush => true
  | _ => false

/-- The commit a new-head item put on the branch. -/
def pushedOid : Option String :=
  match itemKind node with
  | .commit => node.textAt ["commit", "oid"]
  | .forcePush => node.textAt ["afterCommit", "oid"]
  | _ => none

def retryHazardReasons : List String := ["failed_checks", "merge_conflict"]

def sameHeadRequeueCascades (reason : String) : Bool :=
  retryHazardReasons.any fun hazard => eqIgnoreAsciiCase reason hazard

/-- The reason of a removal, as the walk reads it. -/
def removalReason : String := (node.textAt ["reason"]).getD "UNKNOWN"

def createdAt (node : Json) : Option String := node.textAt ["createdAt"]

/-! ## The removed head -/

/-- Whether the pull request is seen to have had a commit. -/
def isKnown (known : List String) (oid : String) : Bool :=
  known.any fun seen => eqIgnoreAsciiCase seen oid

/-- The commits of a merge group's parents, when each names one. -/
def parentOids (before : Json) : Option (List String) :=
  (before.itemsAt ["parents", "nodes"]).bind fun parents =>
    parents.mapM fun parent => parent.textAt ["oid"]

def removedHead (known : List String) : Option String :=
  match (node.get? "beforeCommit").filter Json.isObj with
  | none => none
  | some before =>
    match (before.textAt ["oid"]).filter (isKnown known) with
    | some oid => some oid
    | none =>
      match parentOids before with
      | some [_, head] => if isKnown known head then some head else none
      | _ => none

/-- The head of a merge group with two parents. -/
def secondParent (before : Json) : Option String :=
  match parentOids before with
  | some [_, head] => some head
  | _ => none

/-- The commits a removal may take its head from. -/
def namedOids : List String :=
  match (node.get? "beforeCommit").filter Json.isObj with
  | none => []
  | some before => (before.textAt ["oid"]).toList ++ (secondParent before).toList

theorem find?_toList_append (p : String → Bool) (first second : Option String) :
    (first.toList ++ second.toList).find? p =
      match first.filter p with
      | some oid => some oid
      | none => second.filter p := by
  rcases first with _ | first <;> rcases second with _ | second
  · rfl
  · cases hsecond : p second <;> simp [hsecond, Option.filter_some]
  · cases hfirst : p first <;> simp [hfirst, Option.filter_some]
  · cases hfirst : p first <;> cases hsecond : p second <;>
      simp [hfirst, hsecond, Option.filter_some]

/-- The removed head is the first commit the removal names that is known. -/
theorem removedHead_eq_find? (known : List String) :
    removedHead node known = (namedOids node).find? (isKnown known) := by
  unfold removedHead namedOids
  cases (node.get? "beforeCommit").filter Json.isObj with
  | none => rfl
  | some before =>
    dsimp only
    rw [find?_toList_append]
    cases (before.textAt ["oid"]).filter (isKnown known) with
    | some oid => rfl
    | none =>
      dsimp only [secondParent]
      -- Only a group with exactly two parents names a head.
      rcases parentOids before with _ | _ | ⟨first, _ | ⟨head, _ | ⟨third, rest⟩⟩⟩
      case some.cons.cons.nil => exact (Option.filter_some ..).symm
      all_goals rfl

/-- The commits the pull request is seen to have had. -/
def knownHeads (nodes : List Json) (headOid : Option String) : List String :=
  nodes.filterMap pushedOid ++ headOid.toList

/-- The removed head of an item; none for an item that is no removal. -/
def headOfRemoval (known : List String) (node : Json) : Option String :=
  if itemKind node = .removed then removedHead node known else none

def removedHeads (nodes : List Json) (known : List String) : List (Option String) :=
  nodes.map (headOfRemoval known)

/-! ## New heads -/

inductive NewHeadBasis where
  | removedHeadSha
  | pushAfterRemoval
  | suiteAfterRemoval
  | noEvidence
deriving DecidableEq

section Timestamps

variable (parseTimestamp : String → Option Time)

def earliestSuite (node : Json) : Option Time :=
  (node.itemsAt ["commit", "checkSuites", "nodes"]).bind fun suites =>
    ((suites.filterMap createdAt).filterMap parseTimestamp).min?

/-- A commit of the head whose earliest check suite came after a time. -/
def suiteAfter (head : String) (removedAt : Time) (node : Json) : Bool :=
  itemKind node = .commit && (pushedOid node).any (fun oid => eqIgnoreAsciiCase oid head) &&
    (earliestSuite parseTimestamp node).any fun suite => removedAt < suite

def newHeadSince (nodes : List Json) (index : Nat) (removed head : Option String) :
    Bool × NewHeadBasis :=
  match head with
  | none => (false, .noEvidence)
  | some head =>
    match removed with
    | some removed => (!eqIgnoreAsciiCase removed head, .removedHeadSha)
    | none =>
      if ((nodes.drop (index + 1)).filterMap pushedOid).any
          (fun oid => eqIgnoreAsciiCase oid head) then
        (true, .pushAfterRemoval)
      else
        let removedAt := ((nodes[index]?).bind createdAt).bind parseTimestamp
        if removedAt.any fun removedAt =>
            nodes.any (suiteAfter parseTimestamp head removedAt) then
          (true, .suiteAfterRemoval)
        else (false, .noEvidence)

end Timestamps

/-! ## The walk -/

/-- The index of the first removal from an index on. -/
def nextRemoval (nodes : List Json) (start : Nat) : Option Nat :=
  ((nodes.zipIdx.drop start).find? fun item => itemKind item.1 = .removed).map Prod.snd

/-- Whether a re-add re-added the head of an earlier removal, when the commits say so. -/
def sameHeadReAdd (nodes : List Json) (removedHeads : List (Option String)) (removal add : Nat)
    (queuedHead : Option String) : Option Bool :=
  match (removedHeads[removal]?).join with
  | none => none
  | some removed =>
    let reAdded :=
      match nextRemoval nodes (add + 1) with
      | some index => (removedHeads[index]?).join
      | none => queuedHead
    reAdded.map fun reAdded => eqIgnoreAsciiCase reAdded removed

/-- The variables of the walk. -/
structure Walk where
  requeues : Nat := 0
  /-- The hazard removal awaiting its first re-add, and whether a push has followed it. -/
  hazardPending : Option (Nat × Bool) := none
  /-- Index, reason and time of the last removal. -/
  lastRemoval : Option (Nat × String × Option String) := none
  lastNewHead : Option Nat := none
deriving DecidableEq

section Walk

variable (nodes : List Json) (heads : List (Option String)) (queuedHead : Option String)

/-- Whether an add re-adds the head of the pending removal. -/
def reAddsPending (pending : Option (Nat × Bool)) (index : Nat) : Bool :=
  pending.any fun (removal, pushed) =>
    (sameHeadReAdd nodes heads removal index queuedHead).getD !pushed

def walkStep (walk : Walk) (item : Json × Nat) : Walk :=
  match itemKind item.1 with
  | .commit | .forcePush =>
    { walk with
      hazardPending := walk.hazardPending.map fun (removal, _) => (removal, true)
      lastNewHead := some item.2 }
  | .removed =>
    let reason := removalReason item.1
    { walk with
      hazardPending := if sameHeadRequeueCascades reason then some (item.2, false) else none
      lastRemoval := some (item.2, reason, createdAt item.1) }
  | .added =>
    { walk with
      requeues := if reAddsPending nodes heads queuedHead walk.hazardPending item.2 then
        walk.requeues + 1 else walk.requeues
      hazardPending := none }
  | .other => walk

def walkTimeline : Walk := nodes.zipIdx.foldl (walkStep nodes heads queuedHead) {}

end Walk

/-! ## Ejections of a head -/

def countEjectionsOfHead (nodes : List Json) (heads : List (Option String))
    (head : Option String) : Nat :=
  match head with
  | none => 0
  | some head =>
    let firstPush := nodes.findIdx? fun node =>
      (pushedOid node).any fun oid => eqIgnoreAsciiCase oid head
    nodes.zipIdx.countP fun (node, index) =>
      itemKind node = .removed && sameHeadRequeueCascades ((node.textAt ["reason"]).getD "") &&
        match (heads[index]?).join with
        | some removed => eqIgnoreAsciiCase removed head
        | none => firstPush.all fun first => first < index

end Shipyard.PrQueue
