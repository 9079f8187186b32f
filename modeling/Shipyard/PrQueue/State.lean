import Shipyard.PrQueue.Timeline

/-!
# The merge-queue state of a pull request

`explain_pr_queue_state` reads a response and classifies the pull request, and
`internal_enqueue_verdict` decides from the report whether a head may be
enqueued. The facts a report lists for its reader are left out.
-/

namespace Shipyard.PrQueue

open Lib List

/-! ## Reading the response -/

/-- What the classifier reads of a pull request. -/
structure PullRequest where
  number : Option Nat
  headOid : Option String
  state : String
  inQueue : Bool
  /-- `mergeQueueEntry`, when it is not null. -/
  entry : Option Json
  /-- `autoMergeRequest`, when it is not null. -/
  autoMerge : Option Json
  nodes : List Json
  timelineComplete : Option Bool

/-- The pull request object of a response, and the path it is found at. -/
def pullRequestNode (response : Json) : Option (Json × String) :=
  match (response.pointer ["data", "repository", "pullRequest"]).filter Json.isObj with
  | some node => some (node, "data.repository.pullRequest")
  | none =>
    match (response.pointer ["data", "node"]).filter Json.isObj with
    | some node => some (node, "data.node")
    | none =>
      if response.isObj && (response.get? "state").isSome then some (response, "pullRequest")
      else none

/-- The errors of a response, when there are some. -/
def responseErrors (response : Json) : Option (List Json) :=
  (response.itemsAt ["errors"]).filter fun errors => !errors.isEmpty

def readPullRequest (response : Json) : Except String PullRequest :=
  match responseErrors response with
  | some errors =>
    .error ("GraphQL errors: " ++
      "; ".intercalate (errors.filterMap fun error => error.textAt ["message"]))
  | none =>
    match pullRequestNode response with
    | none => .error "response carries no pull request object"
    | some (pr, root) =>
      match pr.textAt ["state"] with
      | none => .error (root ++ ".state is missing")
      | some state =>
        match (pr.get? "isInMergeQueue").bind Json.asBool? with
        | none => .error (root ++ ".isInMergeQueue is missing")
        | some inQueue =>
          match pr.itemsAt ["timelineItems", "nodes"] with
          | none => .error (root ++ ".timelineItems.nodes is missing")
          | some nodes =>
            .ok
              { number := (pr.get? "number").bind Json.asU64?
                headOid := pr.textAt ["headRefOid"]
                state
                inQueue
                entry := (pr.get? "mergeQueueEntry").filter fun entry => !entry.isNull
                autoMerge :=
                  (pr.get? "autoMergeRequest").filter fun request => !request.isNull
                nodes
                timelineComplete :=
                  ((pr.pointer ["timelineItems", "pageInfo", "hasPreviousPage"]).bind
                    Json.asBool?).map fun hasPrevious => !hasPrevious }

/-! ## The report -/

inductive PrQueueState where
  | merged
  | closed
  | queued (entryState : Option String) (position : Option Nat) (requeuesWithoutNewHead : Nat)
  | armedNotQueued (enabledAt : Option String) (requeuesWithoutNewHead : Nat)
  | neverArmed
  | ejected (reason : String) (removedAt : Option String) (newHeadSinceRemoval : Bool)
      (requeuesWithoutNewHead : Nat)
  | unknown (detail : String)
deriving DecidableEq

/-- The last non-merge removal from the queue. -/
structure Ejection where
  reason : String
  removedAt : Option String
  newHeadSince : Bool
  removedHead : Option String
  newHeadBasis : NewHeadBasis
  timelineIndex : Nat
  mergeGroupCommit : Option String
deriving DecidableEq

structure PrQueueReport where
  pr : Option Nat := none
  headOid : Option String := none
  state : PrQueueState
  lastEjection : Option Ejection := none
  requeuesWithoutNewHead : Nat := 0
  ejectionsOfCurrentHead : Nat := 0
  timelineComplete : Option Bool := none
deriving DecidableEq

def truncatedDetail : String :=
  "timelineItems window is truncated and contains no queue removal and no new head, so an older " ++
    "ejection of this head cannot be ruled out"

def toAsciiUppercase (text : String) : String := String.ofList (text.toList.map Char.toUpper)

section Classify

variable (parseTimestamp : String → Option Time)

namespace PullRequest

variable (pr : PullRequest)

def removedHeads : List (Option String) :=
  PrQueue.removedHeads pr.nodes (knownHeads pr.nodes pr.headOid)

/-- The walk over the timeline; the head counts as re-added while it is queued. -/
def walk : Walk :=
  walkTimeline pr.nodes pr.removedHeads (if pr.inQueue then pr.headOid else none)

def ejectionAt (index : Nat) (reason : String) (removedAt : Option String) : Ejection :=
  let removed := (pr.removedHeads[index]?).join
  let newHead := newHeadSince parseTimestamp pr.nodes index removed pr.headOid
  { reason
    removedAt
    newHeadSince := newHead.1
    removedHead := removed
    newHeadBasis := newHead.2
    timelineIndex := index
    mergeGroupCommit := (pr.nodes[index]?).bind fun node => node.textAt ["beforeCommit", "oid"] }

def lastEjection : Option Ejection :=
  (pr.walk.lastRemoval.filter fun (_, reason, _) => !eqIgnoreAsciiCase reason "merged").map
    fun (index, reason, removedAt) => pr.ejectionAt parseTimestamp index reason removedAt

def queueState : PrQueueState :=
  let requeues := pr.walk.requeues
  match toAsciiUppercase pr.state with
  | "MERGED" => .merged
  | "CLOSED" => .closed
  | "OPEN" =>
    if pr.inQueue then
      .queued (pr.entry.bind fun entry => entry.textAt ["state"])
        (pr.entry.bind fun entry => (entry.get? "position").bind Json.asU64?) requeues
    else if pr.autoMerge.isSome then
      .armedNotQueued (pr.autoMerge.bind fun request => request.textAt ["enabledAt"]) requeues
    else
      match pr.lastEjection parseTimestamp with
      | some ejection =>
        .ejected ejection.reason ejection.removedAt ejection.newHeadSince requeues
      | none =>
        -- A truncated window could be hiding an older ejection of the head.
        if pr.timelineComplete = some false ∧ pr.walk.lastRemoval = none ∧
            pr.walk.lastNewHead = none then
          .unknown truncatedDetail
        else .neverArmed
  | other => .unknown ("unrecognized pull request state \x60" ++ other ++ "\x60")

def report : PrQueueReport where
  pr := pr.number
  headOid := pr.headOid
  state := pr.queueState parseTimestamp
  lastEjection := pr.lastEjection parseTimestamp
  requeuesWithoutNewHead := pr.walk.requeues
  ejectionsOfCurrentHead := countEjectionsOfHead pr.nodes pr.removedHeads pr.headOid
  timelineComplete := pr.timelineComplete

end PullRequest

def explainPrQueueState (response : Json) : PrQueueReport :=
  match readPullRequest response with
  | .error detail => { state := .unknown detail }
  | .ok pr => pr.report parseTimestamp

end Classify

/-! ## The verdict on an internal enqueue -/

inductive InternalEnqueueVerdict where
  | admitted
  | refuseEjectedSameHead (reason : String) (removedAt : Option String)
  | unknown (detail : String)
deriving DecidableEq

def internalEnqueueVerdict (report : PrQueueReport) (head : String) : InternalEnqueueVerdict :=
  match report.state with
  | .unknown detail => .unknown detail
  | .ejected reason removedAt false _ =>
    if sameHeadRequeueCascades reason &&
        report.headOid.any fun live => eqIgnoreAsciiCase live head then
      .refuseEjectedSameHead reason removedAt
    else .admitted
  | _ => .admitted

/-! ## What the walk remembers -/

section Walk

variable {nodes : List Json} {heads : List (Option String)} {queuedHead : Option String}

/-- The timeline has no removal. -/
def NoRemoval (items : List Json) : Prop := ∀ item ∈ items, itemKind item ≠ .removed

/-- The timeline has neither a commit nor a force-push. -/
def NoNewHead (items : List Json) : Prop := ∀ item ∈ items, (itemKind item).isNewHead = false

instance (items : List Json) : Decidable (NoRemoval items) :=
  inferInstanceAs (Decidable (∀ item ∈ items, itemKind item ≠ .removed))

instance (items : List Json) : Decidable (NoNewHead items) :=
  inferInstanceAs (Decidable (∀ item ∈ items, (itemKind item).isNewHead = false))

theorem foldl_walkStep_lastRemoval {items : List Json} (hnone : NoRemoval items) (walk : Walk)
    (start : Nat) :
    ((items.zipIdx start).foldl (walkStep nodes heads queuedHead) walk).lastRemoval =
      walk.lastRemoval := by
  -- The walk is at any point of the timeline, so its state and the index are generalized.
  induction items generalizing walk start with
  | nil => rfl
  | cons item rest ih =>
    rw [zipIdx_cons, foldl_cons,
      ih fun other hother => hnone other (mem_cons_of_mem _ hother)]
    have hitem := hnone item mem_cons_self
    unfold walkStep
    cases hkind : itemKind item with
    | removed => exact absurd hkind hitem
    | _ => rfl

/-- The last removal of the walk is the last removal of the timeline. -/
theorem walkTimeline_lastRemoval {before after : List Json} {node : Json}
    (hkind : itemKind node = .removed) (hafter : NoRemoval after) :
    (walkTimeline (before ++ node :: after) heads queuedHead).lastRemoval =
      some (before.length, removalReason node, createdAt node) := by
  rw [walkTimeline, zipIdx_append, foldl_append, zipIdx_cons, foldl_cons,
    foldl_walkStep_lastRemoval hafter]
  simp [walkStep, hkind]

theorem walkTimeline_lastRemoval_of_noRemoval (hnone : NoRemoval nodes) :
    (walkTimeline nodes heads queuedHead).lastRemoval = none :=
  foldl_walkStep_lastRemoval hnone {} 0

theorem foldl_walkStep_lastNewHead (items : List Json) (walk : Walk) (start : Nat) :
    ((items.zipIdx start).foldl (walkStep nodes heads queuedHead) walk).lastNewHead = none ↔
      walk.lastNewHead = none ∧ NoNewHead items := by
  induction items generalizing walk start with
  | nil => simp [NoNewHead]
  | cons item rest ih =>
    rw [zipIdx_cons, foldl_cons, ih]
    have hcons : NoNewHead (item :: rest) ↔
        (itemKind item).isNewHead = false ∧ NoNewHead rest := by
      simp [NoNewHead]
    rw [hcons, ← and_assoc]
    refine and_congr_left fun _ => ?_
    unfold walkStep
    cases hkind : itemKind item <;> simp [ItemKind.isNewHead]

theorem walkTimeline_lastNewHead :
    (walkTimeline nodes heads queuedHead).lastNewHead = none ↔ NoNewHead nodes := by
  rw [walkTimeline, foldl_walkStep_lastNewHead]
  simp

end Walk

/-! ## The last removal -/

/-- An item is the last removal of a timeline. -/
structure IsLastRemoval (nodes before : List Json) (node : Json) (after : List Json) : Prop where
  split : nodes = before ++ node :: after
  kind : itemKind node = .removed
  last : NoRemoval after

/-- A timeline has no removal or a last one. -/
theorem noRemoval_or_isLastRemoval (nodes : List Json) :
    NoRemoval nodes ∨ ∃ before node after, IsLastRemoval nodes before node after := by
  induction nodes with
  | nil => exact .inl fun item hitem => absurd hitem not_mem_nil
  | cons first rest ih =>
    rcases ih with hnone | ⟨before, node, after, hlast⟩
    · by_cases hkind : itemKind first = .removed
      · exact .inr ⟨[], first, rest, rfl, hkind, hnone⟩
      · refine .inl fun item hitem => ?_
        rcases mem_cons.mp hitem with rfl | hrest
        · exact hkind
        · exact hnone item hrest
    · exact .inr ⟨first :: before, node, after, by rw [hlast.split, cons_append], hlast.kind,
        hlast.last⟩

theorem not_merged_of_cascades {reason : String} (hreason : sameHeadRequeueCascades reason = true) :
    eqIgnoreAsciiCase reason "merged" = false := by
  simp only [sameHeadRequeueCascades, retryHazardReasons, eqIgnoreAsciiCase, any_cons,
    any_nil, Bool.or_false, Bool.or_eq_true, decide_eq_true_eq] at hreason
  rw [eqIgnoreAsciiCase, decide_eq_false_iff_not]
  -- Both hazards differ from `merged` when lowered.
  rcases hreason with hreason | hreason <;>
  · rw [hreason]
    decide

namespace PullRequest

variable {parseTimestamp : String → Option Time} {pr : PullRequest} {before after : List Json}
  {node : Json}

section

variable (hlast : IsLastRemoval pr.nodes before node after)

include hlast

theorem walk_lastRemoval :
    pr.walk.lastRemoval = some (before.length, removalReason node, createdAt node) := by
  rw [walk, hlast.split]
  exact walkTimeline_lastRemoval hlast.kind hlast.last

theorem removedHeads_of_split :
    (pr.removedHeads[before.length]?).join =
      removedHead node (knownHeads pr.nodes pr.headOid) := by
  simp [removedHeads, PrQueue.removedHeads, hlast.split, headOfRemoval, hlast.kind]

end

/-- The new-head answer about the last removal. -/
def newHeadSinceLast (parseTimestamp : String → Option Time) (pr : PullRequest)
    (before : List Json) (node : Json) : Bool × NewHeadBasis :=
  newHeadSince parseTimestamp pr.nodes before.length
    (removedHead node (knownHeads pr.nodes pr.headOid)) pr.headOid

theorem ejectionAt_newHeadSince (hlast : IsLastRemoval pr.nodes before node after) :
    (pr.ejectionAt parseTimestamp before.length (removalReason node)
      (createdAt node)).newHeadSince = (pr.newHeadSinceLast parseTimestamp before node).1 := by
  rw [ejectionAt, newHeadSinceLast, removedHeads_of_split hlast]

end PullRequest

section Unarmed

variable {parseTimestamp : String → Option Time} {pr : PullRequest}

/-- The pull request is classified by its ejections. -/
structure Unarmed (pr : PullRequest) : Prop where
  isOpen : toAsciiUppercase pr.state = "OPEN"
  unqueued : pr.inQueue = false
  unarmed : pr.autoMerge = none

/-- An unarmed pull request is refused when its last removal is a hazard without a new head. -/
theorem verdict_of_last (hunarmed : Unarmed pr) {head : String} (hhead : pr.headOid = some head)
    {before after : List Json} {node : Json} (hlast : IsLastRemoval pr.nodes before node after)
    (hreason : sameHeadRequeueCascades (removalReason node) = true)
    (hnew : (pr.newHeadSinceLast parseTimestamp before node).1 = false) :
    internalEnqueueVerdict (pr.report parseTimestamp) head =
      .refuseEjectedSameHead (removalReason node) (createdAt node) := by
  have hstate : (pr.report parseTimestamp).state =
      .ejected (removalReason node) (createdAt node) false pr.walk.requeues := by
    rw [← hnew, ← PullRequest.ejectionAt_newHeadSince hlast]
    have hejection : pr.lastEjection parseTimestamp = some (pr.ejectionAt parseTimestamp
        before.length (removalReason node) (createdAt node)) := by
      simp [PullRequest.lastEjection, PullRequest.walk_lastRemoval hlast,
        not_merged_of_cascades hreason]
    simp [PullRequest.report, PullRequest.queueState, hunarmed.isOpen, hunarmed.unqueued,
      hunarmed.unarmed, hejection, PullRequest.ejectionAt]
  have hlive : (pr.report parseTimestamp).headOid = some head := hhead
  simp [internalEnqueueVerdict, hstate, hreason, hlive, eqIgnoreAsciiCase]

end Unarmed

/-- An ejected head without a new head is refused exactly when auto-merge is not
armed: an armed pull request is classified before its ejections are read. -/
theorem ejected_head_refused_iff_unarmed (parseTimestamp : String → Option Time)
    (response : Json) (pr : PullRequest) (head : String) (before after : List Json) (node : Json)
    (hread : readPullRequest response = .ok pr) (hopen : toAsciiUppercase pr.state = "OPEN")
    (hqueue : pr.inQueue = false) (hhead : pr.headOid = some head)
    (hlast : IsLastRemoval pr.nodes before node after)
    (hreason : sameHeadRequeueCascades (removalReason node) = true)
    (hnew : (pr.newHeadSinceLast parseTimestamp before node).1 = false) :
    internalEnqueueVerdict (explainPrQueueState parseTimestamp response) head ≠ .admitted ↔
      pr.autoMerge = none := by
  have hexplain : explainPrQueueState parseTimestamp response = pr.report parseTimestamp := by
    rw [explainPrQueueState, hread]
  rw [hexplain]
  cases harmed : pr.autoMerge with
  | some request =>
    -- The state is that of an armed pull request, which the verdict admits.
    simp [internalEnqueueVerdict, PullRequest.report, PullRequest.queueState, hopen, hqueue,
      harmed]
  | none =>
    rw [verdict_of_last ⟨hopen, hqueue, harmed⟩ hhead hlast hreason hnew]
    simp

/-! ## Responses -/

section Responses

def commitItem (oid : String) : Json :=
  .obj [("__typename", .str "PullRequestCommit"), ("commit", .obj [("oid", .str oid)])]

def forcePushItem (oid : String) : Json :=
  .obj [("__typename", .str "HeadRefForcePushedEvent"), ("afterCommit", .obj [("oid", .str oid)])]

def addedItem : Json := .obj [("__typename", .str "AddedToMergeQueueEvent")]

/-- A removal of a merge group with the given parents. -/
def removedItem (reason : String) (parents : List Json) : Json :=
  .obj [("__typename", .str "RemovedFromMergeQueueEvent"),
    ("createdAt", .str "2026-09-25T04:12:51Z"), ("reason", .str reason),
    ("beforeCommit", .obj [("oid", .str "group"), ("parents", .obj [("nodes", .arr parents)])])]

def parent (oid : String) : Json := .obj [("oid", .str oid)]

/-- The response for an open pull request. -/
def openResponse (head : String) (inQueue : Bool) (autoMerge : Json) (hasPreviousPage : Bool)
    (nodes : List Json) : Json :=
  .obj [("data", .obj [("repository", .obj [("pullRequest", .obj [("state", .str "OPEN"),
    ("headRefOid", .str head), ("isInMergeQueue", .bool inQueue), ("mergeQueueEntry", .null),
    ("autoMergeRequest", autoMerge), ("timelineItems", .obj [
      ("pageInfo", .obj [("hasPreviousPage", .bool hasPreviousPage)]),
      ("nodes", .arr nodes)])])])])]

/-- What is read of such a response. -/
def openPullRequest (head : String) (inQueue : Bool) (autoMerge : Option Json)
    (hasPreviousPage : Bool) (nodes : List Json) : PullRequest where
  number := none
  headOid := some head
  state := "OPEN"
  inQueue
  entry := none
  autoMerge
  nodes
  timelineComplete := some !hasPreviousPage

end Responses

/-- A head the queue removed for failed checks is refused while auto-merge is not armed. -/
theorem unarmed_ejected_head_refused :
    internalEnqueueVerdict (explainPrQueueState (fun _ => none) (openResponse "head" false .null
      false [commitItem "head", removedItem "failed_checks" [parent "base", parent "head"]]))
      "head" ≠ .admitted :=
  (ejected_head_refused_iff_unarmed _ _ _ "head" [commitItem "head"] []
    (removedItem "failed_checks" [parent "base", parent "head"])
    rfl (by decide) rfl rfl
    ⟨rfl, by decide, by decide⟩ (by decide) (by decide +kernel)).mpr rfl

/-- The same head is admitted when auto-merge is armed. -/
theorem armed_ejected_head_admitted :
    let response := openResponse "head" false (.obj [("enabledAt", .str "2026-09-25T05:00:00Z")])
      false [commitItem "head", removedItem "failed_checks" [parent "base", parent "head"]]
    (explainPrQueueState (fun _ => none) response).lastEjection.map Ejection.newHeadSince =
        some false ∧
      internalEnqueueVerdict (explainPrQueueState (fun _ => none) response) "head" = .admitted := by
  decide +kernel

end Shipyard.PrQueue
