import Shipyard.PrQueue.ArmGuard

/-!
# Agreement of the two readers of a timeline

Where a response conforms to the query, the classifier of the binary and the
one of the arm guard read the same commits and reasons, and take the same steps
along the timeline.
-/

namespace Shipyard.PrQueue

open Lib Function Option

/-! ## Conforming responses -/

/-- A commit name as the schema allows it. -/
def IsOid (oid : String) : Prop := oid ≠ "" ∧ IsAscii oid

/-- The commits an item names are commit names. -/
structure ConformingItem (node : Json) : Prop where
  commit : ∀ oid, node.textAt ["commit", "oid"] = some oid → IsOid oid
  afterCommit : ∀ oid, node.textAt ["afterCommit", "oid"] = some oid → IsOid oid
  beforeCommit : ∀ oid, node.textAt ["beforeCommit", "oid"] = some oid → IsOid oid
  parents : ∀ parents, node.itemsAt ["beforeCommit", "parents", "nodes"] = some parents →
    ∀ parent ∈ parents, ∀ oid, parent.textAt ["oid"] = some oid → IsOid oid

/-- The response describes its pull request as the query's schema says. -/
structure ConformingPullRequest (pr : Json) : Prop where
  state : ∀ state, pr.textAt ["state"] = some state → state ∈ ["OPEN", "CLOSED", "MERGED"]
  head : ∀ head, pr.textAt ["headRefOid"] = some head → IsOid head
  autoMerge : ∀ request, pr.get? "autoMergeRequest" = some request →
    request.isObj = true ∨ request.isNull = true
  items : ∀ nodes, pr.itemsAt ["timelineItems", "nodes"] = some nodes →
    ∀ node ∈ nodes, ConformingItem node

def Conforming (response : Json) : Prop :=
  ∀ pr root, pullRequestNode response = some (pr, root) → ConformingPullRequest pr

section Readers

variable (parseTimestamp fromisoformat : String → Option Time)

/-- Both readers take an item to say the same: reasons are ASCII, timestamps
are read as the same instants, and of two parents the first names a commit when
the second does. -/
structure ReadAlike (node : Json) : Prop where
  reason : ∀ reason, node.textAt ["reason"] = some reason → IsAscii reason
  removedAt : ∀ text, createdAt node = some text →
    ArmGuard.timestamp fromisoformat text = parseTimestamp text
  suites : ∀ suites, node.itemsAt ["commit", "checkSuites", "nodes"] = some suites →
    ∀ suite ∈ suites, ∀ text, createdAt suite = some text →
      ArmGuard.timestamp fromisoformat text = parseTimestamp text
  parents : ∀ first second, node.itemsAt ["beforeCommit", "parents", "nodes"] =
      some [first, second] → second.textAt ["oid"] ≠ none → first.textAt ["oid"] ≠ none

def TimelineReadAlike (response : Json) : Prop :=
  ∀ pr root nodes, pullRequestNode response = some (pr, root) →
    pr.itemsAt ["timelineItems", "nodes"] = some nodes →
    ∀ node ∈ nodes, ReadAlike parseTimestamp fromisoformat node

end Readers

/-! ## Text -/

section Text

variable (python : PythonText) {left right : String}

theorem sameLowered_eq (hleft : IsAscii left) (hright : IsAscii right) :
    ArmGuard.sameLowered python left right = eqIgnoreAsciiCase left right := by
  rw [ArmGuard.sameLowered, eqIgnoreAsciiCase, python.lower_ascii left hleft,
    python.lower_ascii right hright, toAsciiLowercase, toAsciiLowercase]
  refine decide_eq_decide.mpr ⟨fun heq => ?_, fun heq => by rw [heq]⟩
  simpa using congrArg String.toList heq

/-- Comparing a lowered text with a lowercase word. -/
theorem lower_eq_word (hleft : IsAscii left) (word : String) (hword : IsAscii word)
    (hlowered : toAsciiLowercase word = word) :
    decide (python.lower left = word) = eqIgnoreAsciiCase left word := by
  rw [← sameLowered_eq python hleft hword, ArmGuard.sameLowered, python.lower_ascii word hword,
    hlowered]

/-- A reason in ASCII is a hazard for both readers or for none. -/
theorem cascades_eq {reason : String} (hreason : IsAscii reason) :
    ArmGuard.cascades python reason = sameHeadRequeueCascades reason := by
  have hchecks := lower_eq_word python hreason "failed_checks" (by decide) (by decide)
  have hconflict := lower_eq_word python hreason "merge_conflict" (by decide) (by decide)
  rw [ArmGuard.cascades, sameHeadRequeueCascades, List.contains_eq_any_beq]
  simp only [retryHazardReasons, List.any_cons, List.any_nil, ← hchecks, ← hconflict,
    beq_eq_decide]

end Text

/-! ## Items -/

section Items

variable (python : PythonText) {node : Json}

/-- A commit name is not empty, so both readers see it. -/
theorem oid_eq {value : Json} (hoid : ∀ oid, value.textAt ["oid"] = some oid → IsOid oid) :
    ArmGuard.oid value = value.textAt ["oid"] := by
  unfold ArmGuard.oid
  cases htext : value.textAt ["oid"] with
  | none => rfl
  | some oid => rw [filter_some, if_pos (by simpa using (hoid oid htext).1)]

theorem bind_oid_eq {name : String}
    (hoid : ∀ oid, node.textAt [name, "oid"] = some oid → IsOid oid) :
    (node.get? name).bind ArmGuard.oid = node.textAt [name, "oid"] := by
  rw [Json.textAt_cons] at hoid ⊢
  cases hget : node.get? name with
  | none => rfl
  | some child =>
    rw [hget] at hoid
    exact oid_eq hoid

theorem pushedOid_eq (hnode : ConformingItem node) :
    ArmGuard.pushedOid node = pushedOid node := by
  unfold ArmGuard.pushedOid pushedOid
  cases itemKind node with
  | commit => exact bind_oid_eq hnode.commit
  | forcePush => exact bind_oid_eq hnode.afterCommit
  | _ => rfl

variable {oid head : String} {before : Json}

theorem isOid_of_pushedOid (hnode : ConformingItem node) (hpushed : pushedOid node = some oid) :
    IsOid oid := by
  unfold pushedOid at hpushed
  cases hkind : itemKind node with
  | commit => exact hnode.commit oid (by simpa [hkind] using hpushed)
  | forcePush => exact hnode.afterCommit oid (by simpa [hkind] using hpushed)
  | added => simp [hkind] at hpushed
  | removed => simp [hkind] at hpushed
  | other => simp [hkind] at hpushed

variable {known : List String}

theorem isKnown_eq (hknown : ∀ seen ∈ known, IsAscii seen) (hoid : IsAscii oid) :
    ArmGuard.isKnown python known oid = isKnown known oid := by
  unfold ArmGuard.isKnown isKnown
  rw [Bool.eq_iff_iff, List.any_eq_true, List.any_eq_true]
  refine exists_congr fun seen => and_congr_right fun hseen => ?_
  rw [sameLowered_eq python (hknown seen hseen) hoid]

/-- Both readers take the same second parent. -/
theorem secondParent_eq
    (hoids : ∀ parents, before.itemsAt ["parents", "nodes"] = some parents →
      ∀ parent ∈ parents, ∀ oid, parent.textAt ["oid"] = some oid → IsOid oid)
    (hfirst : ∀ first second, before.itemsAt ["parents", "nodes"] = some [first, second] →
      second.textAt ["oid"] ≠ none → first.textAt ["oid"] ≠ none) :
    ArmGuard.secondParent before = secondParent before := by
  unfold ArmGuard.secondParent secondParent parentOids
  cases hitems : before.itemsAt ["parents", "nodes"] with
  | none => rfl
  | some parents =>
    have hmap : parents.map ArmGuard.oid = parents.map fun parent => parent.textAt ["oid"] :=
      List.map_congr_left fun parent hparent => oid_eq (hoids parents hitems parent hparent)
    simp only [map_some, bind_some, hmap]
    rcases parents with _ | ⟨first, _ | ⟨second, _ | ⟨third, rest⟩⟩⟩
    · rfl
    · cases hone : first.textAt ["oid"] <;> simp [hone]
    · cases hone : first.textAt ["oid"] with
      | none =>
        -- A second parent alone would be read by one of the readers only.
        have hnone : second.textAt ["oid"] = none := by
          by_contra hsome
          exact hfirst first second hitems hsome hone
        simp [hone, hnone]
      | some one => cases htwo : second.textAt ["oid"] <;> simp [hone, htwo]
    · cases hone : first.textAt ["oid"] <;> cases htwo : second.textAt ["oid"] <;>
        cases hthree : third.textAt ["oid"] <;>
        cases hrest : rest.mapM (fun parent => parent.textAt ["oid"]) <;>
        simp [hone, htwo, hthree, hrest]

theorem beforeCommit_textAt (hbefore : (node.get? "beforeCommit").filter Json.isObj = some before)
    (path : List String) : node.textAt ("beforeCommit" :: path) = before.textAt path ∧
      node.itemsAt ("beforeCommit" :: path) = before.itemsAt path := by
  have hget := (filter_eq_some_iff.mp hbefore).1
  rw [Json.textAt_cons, Json.itemsAt_cons, hget]
  exact ⟨rfl, rfl⟩

theorem namedOids_eq {parseTimestamp fromisoformat : String → Option Time}
    (hnode : ConformingItem node) (halike : ReadAlike parseTimestamp fromisoformat node) :
    ArmGuard.namedOids node = namedOids node := by
  unfold ArmGuard.namedOids namedOids
  cases hbefore : (node.get? "beforeCommit").filter Json.isObj with
  | none => rfl
  | some before =>
    have hat := beforeCommit_textAt hbefore
    have hoid : ArmGuard.oid before = before.textAt ["oid"] :=
      oid_eq fun oid htext => hnode.beforeCommit oid ((hat ["oid"]).1.trans htext)
    have hparents : ArmGuard.secondParent before = secondParent before :=
      secondParent_eq
        (fun parents hitems => hnode.parents parents ((hat ["parents", "nodes"]).2.trans hitems))
        fun first second hitems =>
          halike.parents first second ((hat ["parents", "nodes"]).2.trans hitems)
    simp only [hoid, hparents]

theorem mem_of_secondParent (hhead : secondParent before = some head) :
    ∃ parents, before.itemsAt ["parents", "nodes"] = some parents ∧
      ∃ parent ∈ parents, parent.textAt ["oid"] = some head := by
  unfold secondParent parentOids at hhead
  split at hhead
  next first second hoids =>
    obtain ⟨parents, hitems, hmapM⟩ := bind_eq_some_iff.mp hoids
    obtain rfl := some.inj hhead
    refine ⟨parents, hitems, ?_⟩
    rcases parents with _ | ⟨one, _ | ⟨two, rest⟩⟩
    · simp at hmapM
    · cases hone : one.textAt ["oid"] <;> simp [hone] at hmapM
    · refine ⟨two, by simp, ?_⟩
      cases hone : one.textAt ["oid"] <;> cases htwo : two.textAt ["oid"] <;>
        cases hrest : rest.mapM (fun parent => parent.textAt ["oid"]) <;>
        simp_all
  · cases hhead

theorem isAscii_of_namedOids (hnode : ConformingItem node) (hoid : oid ∈ namedOids node) :
    IsAscii oid := by
  unfold namedOids at hoid
  cases hbefore : (node.get? "beforeCommit").filter Json.isObj with
  | none => simp [hbefore] at hoid
  | some before =>
    have hat := beforeCommit_textAt hbefore
    simp only [hbefore, List.mem_append, mem_toList] at hoid
    rcases hoid with htext | hsecond
    · exact (hnode.beforeCommit oid ((hat ["oid"]).1.trans htext)).2
    · obtain ⟨parents, hitems, parent, hparent, htext⟩ := mem_of_secondParent hsecond
      exact (hnode.parents parents ((hat ["parents", "nodes"]).2.trans hitems) parent hparent oid
        htext).2

theorem isAscii_of_removedHead (hnode : ConformingItem node)
    (hhead : removedHead node known = some head) : IsAscii head := by
  rw [removedHead_eq_find?] at hhead
  exact isAscii_of_namedOids hnode (List.mem_of_find?_eq_some hhead)

end Items

/-! ## Timelines -/

section Lists

variable {α : Type} {items : List α} {p q : α → Bool}

theorem any_eq_of_mem (hsame : ∀ item ∈ items, p item = q item) : items.any p = items.any q := by
  rw [← id_comp p, ← List.any_map, List.map_congr_left hsame, List.any_map,
    id_comp]

theorem findIdx?_eq_of_mem (hsame : ∀ item ∈ items, p item = q item) :
    items.findIdx? p = items.findIdx? q := by
  rw [← id_comp p, ← List.findIdx?_map, List.map_congr_left hsame, List.findIdx?_map,
    id_comp]

end Lists

section Timelines

variable (python : PythonText) {parseTimestamp fromisoformat : String → Option Time}
  {nodes : List Json} {head : Option String} {heads : List (Option String)}
  {queuedHead : Option String}

def AsciiHead (head : Option String) : Prop := ∀ oid, head = some oid → IsAscii oid

section

variable (hitems : ∀ node ∈ nodes, ConformingItem node)

include hitems

theorem knownHeads_eq :
    ArmGuard.knownHeads nodes head = knownHeads nodes head := by
  unfold ArmGuard.knownHeads knownHeads
  rw [List.filterMap_congr fun node hnode => pushedOid_eq (hitems node hnode)]

theorem isAscii_of_knownHeads
    (hhead : AsciiHead head) : ∀ seen ∈ knownHeads nodes head, IsAscii seen := by
  intro seen hseen
  rcases List.mem_append.mp hseen with hpushed | hlive
  · obtain ⟨node, hnode, hoid⟩ := List.mem_filterMap.mp hpushed
    exact (isOid_of_pushedOid (hitems node hnode) hoid).2
  · exact hhead seen (by simpa using hlive)

theorem removedHeads_eq (halike : ∀ node ∈ nodes, ReadAlike parseTimestamp fromisoformat node)
    {known : List String} (hknown : ∀ seen ∈ known, IsAscii seen) :
    ArmGuard.removedHeads python nodes known = removedHeads nodes known := by
  unfold ArmGuard.removedHeads removedHeads headOfRemoval
  refine List.map_congr_left fun node hnode => ?_
  have hremoved : ArmGuard.removedHead python node known = removedHead node known := by
    rw [ArmGuard.removedHead_eq_find?, removedHead_eq_find?,
      namedOids_eq (hitems node hnode) (halike node hnode), ← List.head?_filter,
      ← List.head?_filter]
    congr 1
    exact List.filter_congr fun oid hoid =>
      isKnown_eq python hknown (isAscii_of_namedOids (hitems node hnode) hoid)
  rw [hremoved]

theorem asciiHead_of_removedHeads (known : List String) (index : Nat) :
    AsciiHead ((removedHeads nodes known)[index]?).join := by
  intro removed hremoved
  rw [removedHeads, List.getElem?_map] at hremoved
  cases hnode : nodes[index]? with
  | none => simp [hnode] at hremoved
  | some node =>
    have hhead : headOfRemoval known node = some removed := by simpa [hnode] using hremoved
    unfold headOfRemoval at hhead
    split at hhead
    · exact isAscii_of_removedHead (hitems node (List.mem_of_getElem? hnode)) hhead
    · cases hhead

end

theorem sameHeadReAdd_eq (hheads : ∀ index : Nat, AsciiHead (heads[index]?).join)
    (hqueued : AsciiHead queuedHead) (removal add : Nat) :
    ArmGuard.sameHeadReAdd python nodes heads removal add queuedHead =
      sameHeadReAdd nodes heads removal add queuedHead := by
  unfold ArmGuard.sameHeadReAdd sameHeadReAdd
  cases hremoved : (heads[removal]?).join with
  | none => rfl
  | some removed =>
    dsimp only
    refine Option.map_congr fun reAdded hreAdded => ?_
    refine sameLowered_eq python ?_ (hheads removal removed hremoved)
    split at hreAdded
    next index _ => exact hheads index reAdded hreAdded
    · exact hqueued reAdded hreAdded

variable {node : Json}

theorem isAscii_reason (halike : ReadAlike parseTimestamp fromisoformat node) (fallback : String)
    (hfallback : IsAscii fallback) : IsAscii ((node.textAt ["reason"]).getD fallback) := by
  cases hreason : node.textAt ["reason"] with
  | none => exact hfallback
  | some reason => exact halike.reason reason hreason

theorem walkStep_eq (hheads : ∀ index : Nat, AsciiHead (heads[index]?).join)
    (hqueued : AsciiHead queuedHead) (walk : Walk) {item : Json × Nat}
    (halike : ReadAlike parseTimestamp fromisoformat item.1) :
    ArmGuard.walkStep python nodes heads queuedHead walk item =
      walkStep nodes heads queuedHead walk item := by
  have hcascades : ArmGuard.cascades python (removalReason item.1) =
      sameHeadRequeueCascades (removalReason item.1) :=
    cascades_eq python (isAscii_reason halike "UNKNOWN" (by decide))
  have hpending : ∀ pending, ArmGuard.reAddsPending python nodes heads queuedHead pending item.2 =
      reAddsPending nodes heads queuedHead pending item.2 := by
    intro pending
    unfold ArmGuard.reAddsPending reAddsPending
    cases pending with
    | none => rfl
    | some pair =>
      simp only [any_some, sameHeadReAdd_eq python hheads hqueued]
      cases sameHeadReAdd nodes heads pair.1 item.2 queuedHead <;> rfl
  unfold ArmGuard.walkStep walkStep
  cases itemKind item.1 <;> simp only [hcascades, hpending]

theorem earliestSuite_eq (halike : ReadAlike parseTimestamp fromisoformat node) :
    ArmGuard.earliestSuite fromisoformat node = earliestSuite parseTimestamp node := by
  unfold ArmGuard.earliestSuite earliestSuite
  cases hitems : node.itemsAt ["commit", "checkSuites", "nodes"] with
  | none => rfl
  | some suites =>
    rw [getD_some, bind_some, List.filterMap_filterMap]
    congr 1
    refine List.filterMap_congr fun suite hsuite => ?_
    exact Option.bind_congr fun text htext => halike.suites suites hitems suite hsuite text htext

/-- Whether an item pushed a head, for both readers. -/
theorem pushed_any_eq (hnode : ConformingItem node) {live : String} (hlive : IsAscii live) :
    (ArmGuard.pushedOid node).any (fun oid => ArmGuard.sameLowered python oid live) =
      (pushedOid node).any fun oid => eqIgnoreAsciiCase oid live := by
  rw [pushedOid_eq hnode]
  cases hpushed : pushedOid node with
  | none => rfl
  | some oid => exact sameLowered_eq python (isOid_of_pushedOid hnode hpushed).2 hlive

theorem newHeadSince_eq (hitems : ∀ node ∈ nodes, ConformingItem node)
    (halike : ∀ node ∈ nodes, ReadAlike parseTimestamp fromisoformat node) (index : Nat)
    {removed : Option String} (hremoved : AsciiHead removed) (hhead : AsciiHead head) :
    ArmGuard.newHeadSince python fromisoformat nodes index removed head =
      newHeadSince parseTimestamp nodes index removed head := by
  unfold ArmGuard.newHeadSince newHeadSince
  cases head with
  | none => rfl
  | some live =>
    have hlive := hhead live rfl
    cases removed with
    | some removed => simp only [sameLowered_eq python (hremoved removed rfl) hlive]
    | none =>
      have hpush : ((nodes.drop (index + 1)).any fun node => (ArmGuard.pushedOid node).any
          fun oid => ArmGuard.sameLowered python oid live) =
          ((nodes.drop (index + 1)).filterMap pushedOid).any
            fun oid => eqIgnoreAsciiCase oid live := by
        rw [List.any_filterMap]
        exact any_eq_of_mem fun node hnode =>
          pushed_any_eq python (hitems node (List.mem_of_mem_drop hnode)) hlive
      have hat : ((nodes[index]?).bind createdAt).bind (ArmGuard.timestamp fromisoformat) =
          ((nodes[index]?).bind createdAt).bind parseTimestamp := by
        refine Option.bind_congr fun text htext => ?_
        obtain ⟨node, hnode, hcreated⟩ := bind_eq_some_iff.mp htext
        exact (halike node (List.mem_of_getElem? hnode)).removedAt text hcreated
      simp only [hpush, hat]
      split
      · rfl
      · cases ((nodes[index]?).bind createdAt).bind parseTimestamp with
        | none => rfl
        | some removedAt =>
          simp only [any_some]
          rw [any_eq_of_mem (q := suiteAfter parseTimestamp live removedAt) fun node hnode => ?_]
          rw [ArmGuard.suiteAfter, suiteAfter, pushed_any_eq python (hitems node hnode) hlive,
            earliestSuite_eq (halike node hnode)]

theorem ejectionsOfHead_eq (hitems : ∀ node ∈ nodes, ConformingItem node)
    (halike : ∀ node ∈ nodes, ReadAlike parseTimestamp fromisoformat node)
    (hheads : ∀ index : Nat, AsciiHead (heads[index]?).join)
    (hhead : ∀ live, head = some live → IsOid live) :
    ArmGuard.ejectionsOfHead python nodes heads head = countEjectionsOfHead nodes heads head := by
  unfold ArmGuard.ejectionsOfHead countEjectionsOfHead
  cases head with
  | none => rfl
  | some live =>
    obtain ⟨hnonempty, hlive⟩ := hhead live rfl
    have hfirst : nodes.findIdx? (fun node =>
        ArmGuard.sameLowered python ((ArmGuard.pushedOid node).getD "") live) =
        nodes.findIdx? fun node =>
          (pushedOid node).any fun oid => eqIgnoreAsciiCase oid live := by
      refine findIdx?_eq_of_mem fun node hnode => ?_
      rw [pushedOid_eq (hitems node hnode)]
      cases hpushed : pushedOid node with
      | none =>
        -- The head is not empty, so an item without a commit does not push it.
        have hempty : eqIgnoreAsciiCase "" live = false := by
          rw [eqIgnoreAsciiCase, decide_eq_false_iff_not]
          intro hsame
          exact hnonempty (by simpa using hsame.symm)
        exact (sameLowered_eq python (by decide) hlive).trans hempty
      | some oid =>
        exact sameLowered_eq python (isOid_of_pushedOid (hitems node hnode) hpushed).2 hlive
    dsimp only
    rw [hfirst]
    refine List.countP_congr fun item hitem => Bool.eq_iff_iff.mp ?_
    have hmem := List.mem_of_getElem? (List.mem_zipIdx_iff_getElem?.mp hitem)
    have hcascades := cascades_eq python (isAscii_reason (halike item.1 hmem) "" (by decide))
    rw [hcascades]
    cases hremoved : (heads[item.2]?).join with
    | none => rfl
    | some removed => simp only [sameLowered_eq python (hheads item.2 removed hremoved) hlive]

end Timelines

end Shipyard.PrQueue
