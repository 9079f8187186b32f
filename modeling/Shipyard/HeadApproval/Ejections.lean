import Shipyard.PrQueue.ArmGuard

/-!
# Queue removals of a head

`head_ejections` counts the removals of a head for the ejection cap. It takes the
commit a removal names as the removed head, while the queue-state classifier takes
the first of that commit and its second parent that the pull request is seen to
have had. The two agree exactly when no removal of a merge group tells them apart.
-/

namespace Shipyard.HeadApproval

open Lib Option
open PrQueue

/-! ## The removals that are counted -/

structure Ejection where
  reason : String
  cause : String
  /-- `at` -/
  removedAt : Option String
deriving DecidableEq, Repr

def ejectionCause (reason : String) : String :=
  match toAsciiLowercase reason with
  | "manual" => "removed by hand"
  | "failed_checks" => "checks failed, its own or a batch neighbour's"
  | "merge_conflict" | "invalid_merge_commit" => "main moved under it"
  | "branch_protection" | "branch_protections" => "branch protection changed"
  | "rollback" => "the queue rolled back"
  | _ => "another reason"

variable (queue : Json)

def timelineNodes : List Json :=
  (queue.itemsAt ["data", "repository", "pullRequest", "timelineItems", "nodes"]).getD []

def isRemoval (node : Json) : Bool := itemKind node = .removed

def beforeOid (node : Json) : Option String := node.textAt ["beforeCommit", "oid"]

def removedAtHead (head : String) (node : Json) : Bool :=
  (beforeOid node).any fun oid => eqIgnoreAsciiCase oid head

/-- A removal with a reason, unless it merged. -/
def ejection? (node : Json) : Option Ejection :=
  (node.textAt ["reason"]).bind fun reason =>
    if eqIgnoreAsciiCase reason "merged" then none
    else some { reason, cause := ejectionCause reason, removedAt := createdAt node }

def headEjections (head : String) : List Ejection :=
  (((timelineNodes queue).filter isRemoval).filter (removedAtHead head)).filterMap ejection?

/-- A removal whose reason is not that it merged. -/
def isUnmergedRemoval (node : Json) : Bool := isRemoval node && (ejection? node).isSome

/-- The timeline items that `headEjections` counts. -/
def countedRemovals (head : String) : List Json :=
  (timelineNodes queue).filter fun node => isUnmergedRemoval node && removedAtHead head node

/-! ## The removals the classifier charges to a head -/

/-- The pull request the classifier reads in a response. -/
def classifiedPullRequest : Option Json := (pullRequestNode queue).map Prod.fst

def classifiedNodes : List Json :=
  ((classifiedPullRequest queue).bind fun pr => pr.itemsAt ["timelineItems", "nodes"]).getD []

/-- The commits the pull request is seen to have had. -/
def seenHeads : List String :=
  knownHeads (classifiedNodes queue)
    ((classifiedPullRequest queue).bind fun pr => pr.textAt ["headRefOid"])

def classifiedRemovals (head : String) : List Json :=
  (classifiedNodes queue).filter fun node =>
    isUnmergedRemoval node &&
      (removedHead node (seenHeads queue)).any fun removed => eqIgnoreAsciiCase removed head

/-! ## Where the two readings agree -/

/-- The response carries its pull request where `headEjections` looks for it. -/
def inRepository : Bool :=
  (queue.pointer ["data", "repository", "pullRequest"]).any Json.isObj

/-- The removed merge group merged the head, a commit that was seen. -/
def groupOfHead (seen : List String) (head : String) (node : Json) : Bool :=
  ((node.get? "beforeCommit").bind secondParent).any fun oid =>
    isKnown seen oid && eqIgnoreAsciiCase oid head

/-- No removal is read in two ways: where the commit a removal names was not seen,
it is the head just when the merge group merged the head. A response that carries
its pull request elsewhere has no removal of the head at all. -/
def RemovalsReadAlike (head : String) : Prop :=
  ∀ node ∈ classifiedNodes queue, isUnmergedRemoval node = true →
    if inRepository queue then
      (beforeOid node).any (isKnown (seenHeads queue)) = false →
        removedAtHead head node = groupOfHead (seenHeads queue) head node
    else
      (removedHead node (seenHeads queue)).any (fun removed => eqIgnoreAsciiCase removed head) =
        false

theorem itemsAt_repository :
    queue.itemsAt ["data", "repository", "pullRequest", "timelineItems", "nodes"] =
      (queue.pointer ["data", "repository", "pullRequest"]).bind fun pr =>
        pr.itemsAt ["timelineItems", "nodes"] :=
  Json.itemsAt_append queue ["data", "repository", "pullRequest"] ["timelineItems", "nodes"]

theorem timelineNodes_of_inRepository {queue : Json} (hplace : inRepository queue = true) :
    timelineNodes queue = classifiedNodes queue := by
  unfold inRepository at hplace
  unfold timelineNodes classifiedNodes classifiedPullRequest pullRequestNode
  rw [itemsAt_repository]
  cases hpr : queue.pointer ["data", "repository", "pullRequest"] with
  | none =>
    rw [hpr] at hplace
    cases hplace
  | some pr =>
    rw [hpr, any_some] at hplace
    simp only [filter_some, hplace, if_true, map_some, bind_some]

theorem timelineNodes_of_not_inRepository {queue : Json} (hplace : inRepository queue = false) :
    timelineNodes queue = [] := by
  unfold inRepository at hplace
  unfold timelineNodes
  rw [itemsAt_repository]
  cases hpr : queue.pointer ["data", "repository", "pullRequest"] with
  | none => rfl
  | some pr =>
    rw [hpr, any_some] at hplace
    rw [bind_some, Json.itemsAt_cons, Json.get?_of_not_isObj hplace]
    rfl

/-- A removal of a commit that was seen removed that commit; any other removed the
head its merge group merged. -/
theorem removedHead_any_eq (seen : List String) (head : String) (node : Json) :
    (removedHead node seen).any (fun removed => eqIgnoreAsciiCase removed head) =
      if (beforeOid node).any (isKnown seen) then removedAtHead head node
      else groupOfHead seen head node := by
  rw [removedHead_eq_find?]
  unfold namedOids removedAtHead beforeOid groupOfHead
  rw [Json.textAt_cons]
  cases hbefore : node.get? "beforeCommit" with
  | none => rfl
  | some before =>
    cases hkind : before.isObj with
    | false =>
      have hoid : before.textAt ["oid"] = none := by
        rw [Json.textAt_cons, Json.get?_of_not_isObj hkind]
        rfl
      have hparent : secondParent before = none := by
        rw [secondParent, parentOids, Json.itemsAt_cons, Json.get?_of_not_isObj hkind]
        rfl
      simp only [filter_some, hkind, Bool.false_eq_true, if_false, bind_some,
        hoid, hparent]
      rfl
    | true =>
      simp only [filter_some, hkind, if_true, bind_some, find?_toList_append]
      rcases before.textAt ["oid"] with _ | oid <;> rcases secondParent before with _ | parent
      · rfl
      · cases hparent : isKnown seen parent <;> simp [filter_some, hparent]
      · cases hoid : isKnown seen oid <;> simp [filter_some, hoid]
      · cases hoid : isKnown seen oid <;> cases hparent : isKnown seen parent <;>
          simp [filter_some, hoid, hparent]

theorem filter_eq_filter_iff {α : Type} {items : List α} {first second : α → Bool} :
    items.filter first = items.filter second ↔ ∀ item ∈ items, first item = second item := by
  constructor
  · intro heq item hitem
    have hmem : item ∈ items.filter first ↔ item ∈ items.filter second := by rw [heq]
    simp only [List.mem_filter, hitem, true_and] at hmem
    exact Bool.eq_iff_iff.mpr hmem
  · exact List.filter_congr

/-- A head that failed its checks in two merge groups. -/
def groupRemovals : Json :=
  openResponse "head" false .null false
    [commitItem "head",
      addedItem, removedItem "failed_checks" [parent "base", parent "head"],
      addedItem, removedItem "failed_checks" [parent "base", parent "head"]]

end Shipyard.HeadApproval
