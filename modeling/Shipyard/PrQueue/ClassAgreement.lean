import Shipyard.PrQueue.Agreement

/-!
# Agreement of the two classifiers

From the agreement along the timeline to the reports: the same class, ejection
and counts. Three kinds of items the readers take differently show that none of
the conditions on the items can be dropped.
-/

namespace Shipyard.PrQueue

open Lib List Option

/-! ## Classes -/

/-- What is reported of the last ejection by both readers. -/
def Ejection.shared (ejection : Ejection) :
    String × Option String × Bool × Option String × NewHeadBasis :=
  (ejection.reason, ejection.removedAt, ejection.newHeadSince, ejection.removedHead,
    ejection.newHeadBasis)

def ArmGuard.Ejection.shared (ejection : ArmGuard.Ejection) :
    String × Option String × Bool × Option String × NewHeadBasis :=
  (ejection.reason, ejection.removedAt, ejection.newHeadSince, ejection.removedHead,
    ejection.newHeadBasis)

/-- The reason, time and new-head answer of an ejected state. -/
def PrQueueState.ejection? : PrQueueState → Option (String × Option String × Bool)
  | .ejected reason removedAt newHead _ => some (reason, removedAt, newHead)
  | _ => none

/-- The two readers report the same state of the pull request. -/
structure SameState (state : PrQueueState) (result : ArmGuard.Classification) : Prop where
  queueClass : state.queueClass = result.queueClass
  reason : state.ejection?.map (fun ejection => ejection.1) = result.reason
  removedAt : (state.ejection?.bind fun ejection => ejection.2.1) = result.removedAt
  newHead : state.ejection?.map (fun ejection => ejection.2.2) = result.newHeadSinceRemoval

structure SameFields (report : PrQueueReport) (fields : ArmGuard.Fields) : Prop where
  requeues : report.requeuesWithoutNewHead = fields.requeuesWithoutNewHead
  ejections : report.ejectionsOfCurrentHead = fields.ejectionsOfCurrentHead
  complete : report.timelineComplete = fields.timelineComplete
  ejection : report.lastEjection.map Ejection.shared =
    fields.lastEjection.map ArmGuard.Ejection.shared

/-- The two reports agree; a pull request that cannot be read is unknown to both. -/
structure Agree (report : PrQueueReport) (result : ArmGuard.Classification) : Prop where
  state : SameState report.state result
  fields : ∀ fields, result.fields = some fields → SameFields report fields

section Classes

variable (python : PythonText) {parseTimestamp fromisoformat : String → Option Time}

theorem agree_of_unknown {report : PrQueueReport} {detail : String}
    (hreport : report = { state := .unknown detail }) (pyDetail : Option String) :
    Agree report { queueClass := .unknown, detail := pyDetail } := by
  subst hreport
  exact ⟨⟨rfl, rfl, rfl, rfl⟩, fun fields hfields => by cases hfields⟩

variable {pr : PullRequest}

theorem sameState_of_read {armed : Bool} (fields : ArmGuard.Fields)
    (hstate : pr.state ∈ ["OPEN", "CLOSED", "MERGED"]) (harmed : pr.autoMerge.isSome = armed)
    (hcomplete : pr.timelineComplete = fields.timelineComplete)
    (hejection : (pr.lastEjection parseTimestamp).map Ejection.shared =
      fields.lastEjection.map ArmGuard.Ejection.shared) : SameState (pr.queueState parseTimestamp)
        (ArmGuard.classifyRead python pr.state pr.inQueue armed pr.walk fields) ∧
      (ArmGuard.classifyRead python pr.state pr.inQueue armed pr.walk fields).fields =
        some fields := by
  have hupper : ∀ word ∈ ["OPEN", "CLOSED", "MERGED"], pr.state = word →
      toAsciiUppercase pr.state = word ∧ python.upper pr.state = word := by
    have hfixed : ∀ word ∈ ["OPEN", "CLOSED", "MERGED"],
        IsAscii word ∧ toAsciiUppercase word = word := by decide
    intro word hword heq
    obtain ⟨hascii, hsame⟩ := hfixed word hword
    rw [heq, python.upper_ascii word hascii]
    exact ⟨hsame, hsame⟩
  simp only [mem_cons, not_mem_nil, or_false] at hstate
  rcases hstate with hopen | hclosed | hmerged
  · obtain ⟨hrust, hpython⟩ := hupper "OPEN" (by decide) hopen
    simp only [PullRequest.queueState, ArmGuard.classifyRead, hrust, hpython, harmed,
      String.reduceEq, if_false, ne_eq, not_true_eq_false]
    cases pr.inQueue with
    | true => exact ⟨⟨rfl, rfl, rfl, rfl⟩, rfl⟩
    | false =>
      cases armed with
      | true => exact ⟨⟨rfl, rfl, rfl, rfl⟩, rfl⟩
      | false =>
        simp only [Bool.false_eq_true, if_false]
        rcases hrustEjection : pr.lastEjection parseTimestamp with _ | rust <;>
          rcases hpythonEjection : fields.lastEjection with _ | python <;>
          rw [hrustEjection, hpythonEjection] at hejection
        · rw [hcomplete]
          dsimp only
          split
          · exact ⟨⟨rfl, rfl, rfl, rfl⟩, rfl⟩
          · exact ⟨⟨rfl, rfl, rfl, rfl⟩, rfl⟩
        · cases hejection
        · cases hejection
        · simp only [map_some, some.injEq, Ejection.shared,
            ArmGuard.Ejection.shared, Prod.mk.injEq] at hejection
          obtain ⟨hreason, hat, hnew, _⟩ := hejection
          refine ⟨⟨rfl, congrArg some hreason, hat, congrArg some hnew⟩, rfl⟩
  · obtain ⟨hrust, hpython⟩ := hupper "CLOSED" (by decide) hclosed
    simp only [PullRequest.queueState, ArmGuard.classifyRead, hrust, hpython]
    exact ⟨⟨rfl, rfl, rfl, rfl⟩, rfl⟩
  · obtain ⟨hrust, hpython⟩ := hupper "MERGED" (by decide) hmerged
    simp only [PullRequest.queueState, ArmGuard.classifyRead, hrust, hpython]
    exact ⟨⟨rfl, rfl, rfl, rfl⟩, rfl⟩

/-- Both readers find the same pull request. -/
theorem pullRequest_eq (response : Json) :
    ArmGuard.pullRequest response = (pullRequestNode response).map Prod.fst := by
  have hisObj : (response.get? "state").isSome = true → response.isObj = true := by
    cases response <;> simp [Json.get?, Json.isObj]
  have hstate : (if response.isObj && (response.get? "state").isSome then
        some (response, "pullRequest") else none).map Prod.fst =
      if (response.get? "state").isSome then some response else none := by
    cases hsome : (response.get? "state").isSome with
    | false => simp
    | true => simp [hisObj hsome]
  have hnested : ∀ data : Json, ((data.get? "repository").filter Json.isObj).bind
      (fun repository => (repository.get? "pullRequest").filter Json.isObj) =
      (data.pointer ["repository", "pullRequest"]).filter Json.isObj := by
    intro data
    rw [Json.pointer_pair]
    cases data.get? "repository" with
    | none => rfl
    | some repository =>
      cases hkind : repository.isObj with
      | true => simp [filter_some, hkind]
      | false => simp [filter_some, hkind, Json.get?_of_not_isObj hkind]
  unfold ArmGuard.pullRequest pullRequestNode
  rw [Json.pointer_pair, Json.pointer]
  cases response.get? "data" with
  | none => exact hstate.symm
  | some data =>
    dsimp only
    rw [← hnested, bind_some]
    cases hkind : data.isObj with
    | false =>
      have hmissing := Json.get?_of_not_isObj hkind
      simpa [filter_some, hkind, hmissing] using hstate.symm
    | true =>
      rw [filter_some, if_pos hkind]
      dsimp only
      cases ((data.get? "repository").filter Json.isObj).bind
          fun repository => (repository.get? "pullRequest").filter Json.isObj with
      | some pr => rfl
      | none =>
        dsimp only
        cases (data.get? "node").filter Json.isObj with
        | some node => rfl
        | none => exact hstate.symm

theorem headOf_eq {pr : Json} (hpr : ConformingPullRequest pr) :
    ArmGuard.headOf pr = pr.textAt ["headRefOid"] := by
  unfold ArmGuard.headOf
  cases hhead : pr.textAt ["headRefOid"] with
  | none => rfl
  | some head => rw [filter_some, if_pos (by simpa using (hpr.head head hhead).1)]

theorem armed_eq {pr : Json} (hpr : ConformingPullRequest pr) :
    ((pr.get? "autoMergeRequest").filter fun request => !request.isNull).isSome =
      (pr.get? "autoMergeRequest").any Json.isObj := by
  cases hrequest : pr.get? "autoMergeRequest" with
  | none => rfl
  | some request =>
    have hkind := hpr.autoMerge request hrequest
    cases request <;> simp_all [Json.isObj, Json.isNull]

/-- Both readers report the same last ejection. -/
theorem lastEjection_eq (hitems : ∀ node ∈ pr.nodes, ConformingItem node)
    (halike : ∀ node ∈ pr.nodes, ReadAlike parseTimestamp fromisoformat node)
    (hhead : AsciiHead pr.headOid) : (pr.lastEjection parseTimestamp).map Ejection.shared =
      (ArmGuard.lastEjection python fromisoformat pr.nodes pr.removedHeads pr.walk pr.headOid).map
        ArmGuard.Ejection.shared := by
  unfold PullRequest.lastEjection ArmGuard.lastEjection
  cases hremoval : pr.walk.lastRemoval with
  | none => rfl
  | some removal =>
    obtain ⟨index, reason, removedAt⟩ := removal
    have hreason : IsAscii reason := by
      rcases noRemoval_or_isLastRemoval pr.nodes with hnone | ⟨before, node, after, hlast⟩
      · rw [PullRequest.walk, walkTimeline_lastRemoval_of_noRemoval hnone] at hremoval
        cases hremoval
      · have hmem : node ∈ pr.nodes := by
          rw [hlast.split]
          simp
        rw [PullRequest.walk_lastRemoval hlast, some.injEq, Prod.mk.injEq,
          Prod.mk.injEq] at hremoval
        rw [← hremoval.2.1]
        exact isAscii_reason (halike node hmem) "UNKNOWN" (by decide)
    have hmerged := lower_eq_word python hreason "merged" (by decide) (by decide)
    have hremoved := asciiHead_of_removedHeads hitems (knownHeads pr.nodes pr.headOid) index
    have hnew := newHeadSince_eq python hitems halike index hremoved hhead
    cases hcase : eqIgnoreAsciiCase reason "merged" with
    | true =>
      rw [hcase, decide_eq_true_eq] at hmerged
      simp [filter_some, hcase, hmerged]
    | false =>
      rw [hcase, decide_eq_false_iff_not] at hmerged
      simp only [filter_some, hcase, Bool.not_false, if_true, ne_eq, hmerged,
        not_false_eq_true, decide_true, map_some, PullRequest.ejectionAt,
        Ejection.shared, ArmGuard.Ejection.shared]
      rw [show pr.removedHeads =
        removedHeads pr.nodes (knownHeads pr.nodes pr.headOid) from rfl, hnew]

/-- The two readers agree on what was read of a conforming pull request. -/
theorem agree_of_read {json : Json} (hjson : ConformingPullRequest json)
    (hstate : pr.state ∈ ["OPEN", "CLOSED", "MERGED"])
    (hhead : pr.headOid = json.textAt ["headRefOid"])
    (harmed : pr.autoMerge =
      (json.get? "autoMergeRequest").filter fun request => !request.isNull)
    (hcomplete : pr.timelineComplete = ArmGuard.timelineComplete json)
    (hitems : ∀ node ∈ pr.nodes, ConformingItem node)
    (halike : ∀ node ∈ pr.nodes, ReadAlike parseTimestamp fromisoformat node) :
    Agree (pr.report parseTimestamp)
      (ArmGuard.classifyTimeline python fromisoformat json pr.state pr.inQueue pr.nodes) := by
  have hoid : ∀ live, pr.headOid = some live → IsOid live := fun live hlive =>
    hjson.head live (hhead ▸ hlive)
  have hascii : AsciiHead pr.headOid := fun live hlive => (hoid live hlive).2
  have hqueued : AsciiHead (if pr.inQueue then pr.headOid else none) := by
    cases pr.inQueue with
    | true => exact hascii
    | false => exact fun live hlive => by cases hlive
  have hknown := isAscii_of_knownHeads hitems hascii
  have hheads : ArmGuard.removedHeads python pr.nodes (ArmGuard.knownHeads pr.nodes pr.headOid) =
      pr.removedHeads := by
    rw [knownHeads_eq hitems]
    exact removedHeads_eq python hitems halike hknown
  have hasciiHeads : ∀ index : Nat, AsciiHead (pr.removedHeads[index]?).join :=
    asciiHead_of_removedHeads hitems (knownHeads pr.nodes pr.headOid)
  have hwalk : ArmGuard.walkTimeline python pr.nodes pr.removedHeads
      (if pr.inQueue then pr.headOid else none) = pr.walk := by
    refine List.foldl_ext _ _ _ fun walk item hitem => ?_
    exact walkStep_eq python hasciiHeads hqueued walk
      (halike item.1 (List.mem_of_getElem? (List.mem_zipIdx_iff_getElem?.mp hitem)))
  unfold ArmGuard.classifyTimeline
  simp only [headOf_eq hjson, ← hhead, hheads, hwalk, ← armed_eq hjson, ← harmed]
  obtain ⟨hsame, hfields⟩ := sameState_of_read python
    { head := pr.headOid
      requeuesWithoutNewHead := pr.walk.requeues
      ejectionsOfCurrentHead := ArmGuard.ejectionsOfHead python pr.nodes pr.removedHeads pr.headOid
      lastEjection :=
        ArmGuard.lastEjection python fromisoformat pr.nodes pr.removedHeads pr.walk pr.headOid
      timelineComplete := ArmGuard.timelineComplete json }
    hstate rfl hcomplete (lastEjection_eq python hitems halike hascii)
  refine ⟨hsame, fun fields hsome => ?_⟩
  obtain rfl := some.inj (hfields.symm.trans hsome)
  exact
    { requeues := rfl
      ejections := (ejectionsOfHead_eq python hitems halike hasciiHeads hoid).symm
      complete := hcomplete
      ejection := lastEjection_eq python hitems halike hascii }

end Classes

section Responses

/-- Python's string methods on ASCII text. -/
def asciiPython : PythonText where
  lower := toAsciiLowercase
  upper := toAsciiUppercase
  lower_ascii := fun _ _ => rfl
  upper_ascii := fun _ _ => rfl

theorem conforming_commitItem {oid : String} (hoid : IsOid oid) :
    ConformingItem (commitItem oid) where
  commit := fun other hother => some.inj (hother : some oid = some other) ▸ hoid
  afterCommit := fun other hother => by cases hother
  beforeCommit := fun other hother => by cases hother
  parents := fun parents hparents => by cases hparents

theorem conforming_removedItem (reason : String) {parents : List Json}
    (hparents : ∀ parent ∈ parents, ∀ oid, parent.textAt ["oid"] = some oid → IsOid oid) :
    ConformingItem (removedItem reason parents) where
  commit := fun oid hoid => by cases hoid
  afterCommit := fun oid hoid => by cases hoid
  beforeCommit := fun oid hoid => by
    rw [← some.inj (hoid : some "group" = some oid)]
    exact ⟨by decide, by decide⟩
  parents := fun found hfound => by
    rw [← some.inj (hfound : some parents = some found)]
    exact hparents

theorem isOid_of_parent {oid : String} (hoid : IsOid oid) :
    ∀ other, (parent oid).textAt ["oid"] = some other → IsOid other := fun other hother =>
  some.inj (hother : some oid = some other) ▸ hoid

theorem conforming_removedPair (reason : String) {first second : Json}
    (hfirst : ∀ oid, first.textAt ["oid"] = some oid → IsOid oid)
    (hsecond : ∀ oid, second.textAt ["oid"] = some oid → IsOid oid) :
    ConformingItem (removedItem reason [first, second]) :=
  conforming_removedItem reason
    (forall_mem_cons.mpr ⟨hfirst, forall_mem_singleton.mpr hsecond⟩)

theorem conforming_openResponse {head : String} (hhead : IsOid head)
    (inQueue hasPreviousPage : Bool) {nodes : List Json}
    (hnodes : ∀ node ∈ nodes, ConformingItem node) :
    Conforming (openResponse head inQueue .null hasPreviousPage nodes) := by
  intro pr root hpr
  obtain ⟨rfl, _⟩ := Prod.mk.inj (some.inj hpr)
  exact
    { state := fun state hstate => by
        rw [← some.inj (hstate : some "OPEN" = some state)]
        decide
      head := fun live hlive => some.inj (hlive : some head = some live) ▸ hhead
      autoMerge := fun request hrequest =>
        .inr (some.inj (hrequest : some Json.null = some request) ▸ rfl)
      items := fun found hfound => some.inj (hfound : some nodes = some found) ▸ hnodes }

variable {parseTimestamp fromisoformat : String → Option Time}

theorem readAlike_commitItem (oid : String) :
    ReadAlike parseTimestamp fromisoformat (commitItem oid) where
  reason := fun reason hreason => by cases hreason
  removedAt := fun text htext => by cases htext
  suites := fun suites hsuites => by cases hsuites
  parents := fun first second hparents => by cases hparents

theorem readAlike_removedItem {reason : String} {parents : List Json} (hreason : IsAscii reason)
    (htime : ArmGuard.timestamp fromisoformat "2026-09-25T04:12:51Z" =
      parseTimestamp "2026-09-25T04:12:51Z")
    (hparents : ∀ first second, parents = [first, second] →
      second.textAt ["oid"] ≠ none → first.textAt ["oid"] ≠ none) :
    ReadAlike parseTimestamp fromisoformat (removedItem reason parents) where
  reason := fun found hfound => some.inj (hfound : some reason = some found) ▸ hreason
  removedAt := fun text htext =>
    some.inj (htext : some "2026-09-25T04:12:51Z" = some text) ▸ htime
  suites := fun suites hsuites => by cases hsuites
  parents := fun first second hfound =>
    hparents first second (some.inj (hfound : some parents = some [first, second]))

end Responses

/-- A commit whose earliest check suite was created at a time. -/
def suiteItem (oid createdAt : String) : Json :=
  .obj [("__typename", .str "PullRequestCommit"), ("commit", .obj [("oid", .str oid),
    ("checkSuites", .obj [("nodes", .arr [.obj [("createdAt", .str createdAt)]])])])]

theorem conforming_suiteItem {oid : String} (hoid : IsOid oid) (createdAt : String) :
    ConformingItem (suiteItem oid createdAt) where
  commit := fun other hother => some.inj (hother : some oid = some other) ▸ hoid
  afterCommit := fun other hother => by cases hother
  beforeCommit := fun other hother => by cases hother
  parents := fun parents hparents => by cases hparents

/-- Lowering that, like Python's, takes the Kelvin sign to an ASCII letter. -/
def unicodePython : PythonText where
  lower := fun text => String.ofList (text.toList.map fun char =>
    if char = Char.ofNat 0x212A then 'k' else char.toLower)
  upper := toAsciiUppercase
  lower_ascii := by
    intro text hascii
    refine congrArg String.ofList (map_congr_left fun char hchar => if_neg ?_)
    rintro rfl
    exact absurd (hascii _ hchar) (by decide)
  upper_ascii := fun _ _ => rfl

/-- The removed head is named by a second parent whose first parent is null. -/
def nullParentResponse : Json :=
  openResponse "fixed" false .null false [commitItem "broken", commitItem "fixed",
    removedItem "failed_checks" [.null, parent "broken"]]

/-- The reason of the removal is spelled with a Kelvin sign. -/
def kelvinResponse : Json :=
  openResponse "head" false .null false [commitItem "head",
    removedItem "failed_chec\u212as" [parent "base", parent "head"]]

/-- The check suite was created less than a microsecond after the removal. -/
def nanosecondResponse : Json :=
  openResponse "head" false .null false
    [suiteItem "head" "2026-09-25T04:12:51.0000002Z", removedItem "merge_conflict" []]

end Shipyard.PrQueue
