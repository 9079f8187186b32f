import Shipyard.HeadApproval.CountingAgreement
import Shipyard.HeadApproval.Finality
import Shipyard.PrQueue.ClassAgreement

/-!
# The gate and the queue-arm guard

Without carries, rollups and queue removals both gates allow the same heads, where
Python converts the case of names, states and commits as ASCII does. The gate also
refuses an approval by the agent that is arming; the guard asks that elsewhere.
-/

namespace Shipyard.HeadApproval

open Lib List Option
open PrQueue (PythonText toAsciiLowercase toAsciiUppercase eqIgnoreAsciiCase
  eqIgnoreAsciiCase_iff asciiPython unicodePython)

/-! ## The same verdicts on a head -/

/-- Texts whose case Python converts as ASCII does, and a head that a review
without a commit is not taken to name. -/
structure SameCase (python : PythonText) (policy : ApprovalPolicy) (author : Option String)
    (head : String) (reviews comments : List ApiRecord) : Prop where
  named : head = "" → ∀ review ∈ reviews, review.commitId.isSome = true
  lowered : python.lower head = toAsciiLowercase head
  author : ∀ login, author = some login → SameLogin python login
  reviewers : ∀ login ∈ policy.reviewerLogins, SameLogin python login
  logins : ∀ record ∈ reviews ++ comments, ∀ login, record.login = some login →
    SameLogin python login
  states : ∀ review ∈ reviews, ∀ state, review.state = some state →
    python.upper state = toAsciiUppercase state
  commits : ∀ review ∈ reviews, ∀ commit, review.commitId = some commit →
    python.lower commit = toAsciiLowercase commit

theorem toAsciiUppercase_eq_iff {text word : String} (hword : toAsciiUppercase word = word) :
    toAsciiUppercase text = word ↔ eqIgnoreAsciiCase text word = true := by
  rw [eqIgnoreAsciiCase, decide_eq_true_iff]
  constructor
  · rintro rfl
    simp [toAsciiUppercase, Char.toLower_toUpper_eq_toLower]
  · intro hlower
    rw [← hword, toAsciiUppercase, toAsciiUppercase]
    have hupper := congrArg (List.map Char.toUpper) hlower
    simp only [List.map_map, Function.comp_def, Char.toUpper_toLower_eq_toUpper] at hupper
    rw [hupper]

section Verdicts

variable {python : PythonText} {host : Host} {policy : ApprovalPolicy} {author : Option String}
variable {head : String} {reviews comments : List ApiRecord}
variable {timestamp : Option String → Option Time}

/-- The state of a review with a verdict. -/
def stateOf : Verdict → String
  | .approve => "APPROVED"
  | .hold => "CHANGES_REQUESTED"

variable {review : ApiRecord} {verdict : Verdict}

theorem stateVerdict_iff
    (hstate : ∀ state, review.state = some state → python.upper state = toAsciiUppercase state) :
    ArmGuard.stateVerdict python review.state = some verdict ↔
      inState (reviewRecord review) (stateOf verdict) = true := by
  have htext : (reviewRecord review).textAt ["state"] = review.state :=
    asStr?_jsonText review.state
  have hword : toAsciiUppercase (stateOf verdict) = stateOf verdict := by
    cases verdict <;> decide +kernel
  rw [inState, htext]
  cases hsome : review.state with
  | none =>
    have hempty : python.upper "" = "" := python.upper_ascii "" (by intro char hchar; cases hchar)
    simp [ArmGuard.stateVerdict, hempty]
  | some state =>
    rw [any_some, ← toAsciiUppercase_eq_iff hword, ArmGuard.stateVerdict,
      getD_some, hstate state hsome]
    split
    next heq => cases verdict <;> simp [heq, stateOf]
    next heq => cases verdict <;> simp [heq, stateOf]
    next happroved hchanges =>
      cases verdict with
      | approve => exact iff_of_false nofun happroved
      | hold => exact iff_of_false nofun hchanges

theorem toAsciiLowercase_eq_empty {text : String} (hempty : toAsciiLowercase text = "") :
    text = "" := by
  have hlist := congrArg String.toList hempty
  simpa [toAsciiLowercase] using hlist

/-- The verdicts Python counts on a head. -/
def CountedOn (python : PythonText) (head : String) (verdict : Verdict)
    (entry : ArmGuard.Counted) : Prop :=
  entry.verdict = verdict ∧ entry.head = python.lower head

theorem onCommit_iff (hcase : SameCase python policy author head reviews comments)
    (hmem : review ∈ reviews) :
    onCommit (reviewRecord review) head = true ↔
      python.lower (review.commitId.getD "") = python.lower head := by
  have htext : (reviewRecord review).textAt ["commit_id"] = review.commitId :=
    asStr?_jsonText review.commitId
  rw [onCommit, htext, hcase.lowered]
  cases hsome : review.commitId with
  | some commit =>
    rw [any_some, getD_some, hcase.commits review hmem commit hsome]
    exact eqIgnoreAsciiCase_iff
  | none =>
    -- Python reads a missing commit as the empty head.
    have hempty : python.lower "" = "" :=
      python.lower_ascii "" (by intro char hchar; cases hchar)
    rw [any_none, getD_none, hempty]
    refine ⟨nofun, fun hlower => ?_⟩
    have hnamed := hcase.named (toAsciiLowercase_eq_empty hlower.symm) review hmem
    rw [hsome] at hnamed
    cases hnamed

/-- Python counts the verdict that a record gives on a head, if its reviewer counts. -/
theorem counted_iff (host : Host) (hbase : policy.signerSource = .base)
    (hcase : SameCase python policy author head reviews comments) {api : ApiRecord}
    (hmem : api ∈ reviews ++ comments) (hplain : ∀ text, api.body = some text → PlainText text)
    {record : Json} (hflat : Flat record api) (verdict : Verdict)
    (found : Option (Verdict × String)) {time : Option Time} {counted : Option ArmGuard.Counted}
    (hcounted : counted = api.login.bind fun name => found.bind fun (given, named) =>
      if ArmGuard.reviewerCounts python (guardPolicy policy) author given api name then
        some ⟨time, given, named⟩ else none) :
    (∃ entry, counted = some entry ∧ CountedOn python head verdict entry) ↔
      verdictCounts host policy author verdict record = true ∧
        found = some (verdict, python.lower head) := by
  rw [hcounted]
  cases hname : api.login with
  | none => simp [verdictCounts, reviewerAllowed, hflat.login, hname]
  | some name =>
    have hcounts (given : Verdict) := reviewerCounts_eq host given hflat hname hbase hplain
      (hcase.logins api hmem name hname) hcase.author hcase.reviewers
    simp only [bind_some, hcounts, bind_eq_some_iff, ite_none_right_eq_some]
    constructor
    · rintro ⟨entry, ⟨⟨given, named⟩, hfound, hgiven, ⟨⟩⟩, rfl, rfl⟩
      exact ⟨hgiven, hfound⟩
    · rintro ⟨hgiven, hfound⟩
      exact ⟨_, ⟨_, hfound, hgiven, rfl⟩, rfl, rfl⟩

theorem countedReview_iff (host : Host) (hbase : policy.signerSource = .base)
    (hcase : SameCase python policy author head reviews comments) (hmem : review ∈ reviews)
    (hplain : ∀ text, review.body = some text → PlainText text) (verdict : Verdict) :
    (∃ entry, ArmGuard.countedReview python timestamp (guardPolicy policy) author review =
        some entry ∧ CountedOn python head verdict entry) ↔
      verdictCounts host policy author verdict (reviewRecord review) = true ∧
        inState (reviewRecord review) (stateOf verdict) = true ∧
        onCommit (reviewRecord review) head = true := by
  rw [← stateVerdict_iff (hcase.states review hmem), onCommit_iff hcase hmem,
    counted_iff host hbase hcase (mem_append_left _ hmem) hplain (flat_reviewRecord review)
      verdict ((ArmGuard.stateVerdict python review.state).map fun given =>
        (given, python.lower (review.commitId.getD "")))]
  · simp [map_eq_some_iff]
  · unfold ArmGuard.countedReview
    cases review.login <;> cases ArmGuard.stateVerdict python review.state <;> rfl

theorem countedComment_iff (host : Host) (hbase : policy.signerSource = .base)
    (hcase : SameCase python policy author head reviews comments)
    {comment : ApiRecord} (hmem : comment ∈ comments)
    (hplain : ∀ text, comment.body = some text → PlainText text) (verdict : Verdict) :
    (∃ entry, ArmGuard.countedComment python timestamp (guardPolicy policy) author comment =
        some entry ∧ CountedOn python head verdict entry) ↔
      verdictCounts host policy author verdict (commentRecord comment) = true ∧
        commentVerdict (commentRecord comment) = some (verdict, toAsciiLowercase head) := by
  have hmarker : comment.body.bind ArmGuard.markerVerdict =
      commentVerdict (commentRecord comment) := by
    rw [commentVerdict, (flat_commentRecord comment).body]
    cases hbody : comment.body with
    | none => rfl
    | some text =>
      change ArmGuard.markerVerdict text = markerVerdict text
      rw [armGuard_markerVerdict_eq_bind, markerVerdict_eq_bind, lastLine_eq (hplain text hbody)]
  rw [← hmarker, ← hcase.lowered, counted_iff host hbase hcase (mem_append_right _ hmem)
    hplain (flat_commentRecord comment) verdict (comment.body.bind ArmGuard.markerVerdict)]
  unfold ArmGuard.countedComment
  cases comment.login <;> cases comment.body.bind ArmGuard.markerVerdict <;> rfl

/-- Python counts a verdict on the head. -/
def GuardCounts (python : PythonText) (timestamp : Option String → Option Time)
    (policy : ApprovalPolicy) (author : Option String) (head : String)
    (reviews comments : List ApiRecord) (verdict : Verdict) : Prop :=
  ∃ entry ∈ ArmGuard.countingVerdicts python timestamp (guardPolicy policy) author reviews
    comments, CountedOn python head verdict entry

theorem guardCounts_iff :
    GuardCounts python timestamp policy author head reviews comments verdict ↔
      (∃ review ∈ reviews, ∃ entry,
        ArmGuard.countedReview python timestamp (guardPolicy policy) author review = some entry ∧
          CountedOn python head verdict entry) ∨
      ∃ comment ∈ comments, ∃ entry,
        ArmGuard.countedComment python timestamp (guardPolicy policy) author comment = some entry ∧
          CountedOn python head verdict entry := by
  simp only [GuardCounts, ArmGuard.countingVerdicts, mem_append, mem_filterMap]
  constructor
  · rintro ⟨entry, ⟨review, hmem, hcounted⟩ | ⟨comment, hmem, hcounted⟩, hon⟩
    · exact .inl ⟨review, hmem, entry, hcounted, hon⟩
    · exact .inr ⟨comment, hmem, entry, hcounted, hon⟩
  · rintro (⟨review, hmem, entry, hcounted, hon⟩ | ⟨comment, hmem, entry, hcounted, hon⟩)
    · exact ⟨entry, .inl ⟨review, hmem, hcounted⟩, hon⟩
    · exact ⟨entry, .inr ⟨comment, hmem, hcounted⟩, hon⟩

/-- The bodies are printable ASCII with newlines. -/
def PlainBodies (records : List ApiRecord) : Prop :=
  ∀ record ∈ records, ∀ text, record.body = some text → PlainText text

section Plain

variable (hbase : policy.signerSource = .base)
  (hcase : SameCase python policy author head reviews comments)
  (hreviews : PlainBodies reviews) (hcomments : PlainBodies comments)

include hbase hcase hreviews hcomments

theorem guardCounts_hold_iff :
    GuardCounts python timestamp policy author head reviews comments .hold ↔
      Held host policy author head (reviews.map reviewRecord) (comments.map commentRecord) := by
  rw [guardCounts_iff, Held]
  simp only [List.mem_map, exists_exists_and_eq_and]
  refine or_congr (exists_congr fun review => and_congr_right fun hmem => ?_)
    (exists_congr fun comment => and_congr_right fun hmem => ?_)
  · rw [countedReview_iff host hbase hcase hmem (hreviews review hmem)]
    simp only [holdingReview, stateOf, Bool.and_eq_true]
    tauto
  · rw [countedComment_iff host hbase hcase hmem (hcomments comment hmem), holdingComment_iff,
      commentEvent_eq_some_iff]

theorem guardCounts_approve_iff :
    GuardCounts python timestamp policy author head reviews comments .approve ↔
      (∃ review ∈ reviews.map reviewRecord,
        approvingReview host policy author head review = true) ∨
      ∃ comment ∈ comments.map commentRecord,
        approvingComment host policy author head comment = true := by
  rw [guardCounts_iff]
  simp only [List.mem_map, exists_exists_and_eq_and]
  refine or_congr (exists_congr fun review => and_congr_right fun hmem => ?_)
    (exists_congr fun comment => and_congr_right fun hmem => ?_)
  · rw [countedReview_iff host hbase hcase hmem (hreviews review hmem)]
    simp only [approvingReview, stateOf, Bool.and_eq_true]
    tauto
  · rw [countedComment_iff host hbase hcase hmem (hcomments comment hmem), approvingComment_iff,
      commentEvent_eq_some_iff]

end Plain

/-! ## The guard allows -/

theorem newest_spec {entries : List ArmGuard.Counted} (hne : entries ≠ []) :
    ∃ entry ∈ entries, ArmGuard.newest entries = some entry := by
  have hnewer (kept entry : ArmGuard.Counted) : ArmGuard.newer (some kept) entry = some kept ∨
      ArmGuard.newer (some kept) entry = some entry := by
    unfold ArmGuard.newer
    dsimp only
    repeat' split
    all_goals simp
  cases entries with
  | nil => exact absurd rfl hne
  | cons first rest =>
    have hfold : ArmGuard.newest (first :: rest) = some (rest.foldl (fun kept entry =>
        (ArmGuard.newer (some kept) entry).getD kept) first) := by
      refine foldl_hom some fun kept entry => ?_
      rcases hnewer kept entry with hkept | hkept <;> simp [hkept]
    refine ⟨_, (foldl_top (r := fun _ _ => True) (fun _ => trivial) (fun _ _ => trivial) ?_ rest
      first).1, hfold⟩
    intro kept entry
    rcases hnewer kept entry with hkept | hkept <;> simp [hkept]

variable (hreviews : ∀ review ∈ reviews, (timestamp review.time).isSome = true)

include hreviews

variable (hcomments : ∀ comment ∈ comments, (timestamp comment.time).isSome = true)

include hcomments

theorem time_isSome
    {policy : ArmGuard.Policy} {entry : ArmGuard.Counted}
    (hentry : entry ∈ ArmGuard.countingVerdicts python timestamp policy author reviews comments) :
    entry.time.isSome = true := by
  rcases mem_append.mp hentry with hmem | hmem
  · obtain ⟨review, hreview, hcounted⟩ := mem_filterMap.mp hmem
    unfold ArmGuard.countedReview at hcounted
    repeat' split at hcounted
    all_goals cases hcounted
    exact hreviews review hreview
  · obtain ⟨comment, hcomment, hcounted⟩ := mem_filterMap.mp hmem
    unfold ArmGuard.countedComment at hcounted
    repeat' split at hcounted
    all_goals cases hcounted
    exact hcomments comment hcomment

/-- The guard allows a head that an approval names and no HOLD. -/
theorem reviewVerdict_iff
    :
    ArmGuard.reviewVerdict python timestamp (guardPolicy policy) author head reviews comments =
        true ↔
      ¬ GuardCounts python timestamp policy author head reviews comments .hold ∧
        GuardCounts python timestamp policy author head reviews comments .approve := by
  have htime := @time_isSome python author reviews comments timestamp hreviews hcomments
    (guardPolicy policy)
  unfold ArmGuard.reviewVerdict ArmGuard.latestOn GuardCounts
  generalize ArmGuard.countingVerdicts python timestamp (guardPolicy policy) author reviews
    comments = entries at htime ⊢
  dsimp only
  cases hfind : (entries.filter fun entry => entry.head = python.lower head).find?
      fun entry => entry.verdict = .hold with
  | some hold =>
    have hverdict := find?_some hfind
    obtain ⟨hmem, hhead⟩ := mem_filter.mp (mem_of_find?_eq_some hfind)
    simp only [decide_eq_true_eq] at hverdict hhead
    have hheld : ∃ entry ∈ entries, CountedOn python head .hold entry :=
      ⟨hold, hmem, hverdict, hhead⟩
    simp [hverdict, hheld]
  | none =>
    have hfree : ¬ ∃ entry ∈ entries, CountedOn python head .hold entry := by
      rintro ⟨entry, hmem, hverdict, hhead⟩
      have hnone := find?_eq_none.mp hfind entry
        (mem_filter.mpr ⟨hmem, decide_eq_true hhead⟩)
      simp [hverdict] at hnone
    -- What names the head is an approval then, and dated.
    have hdated (entry : ArmGuard.Counted) :
        entry ∈ (entries.filter fun entry => entry.head = python.lower head).filter
            (fun entry => entry.time.isSome) ↔
          entry ∈ entries ∧ CountedOn python head .approve entry := by
      rw [mem_filter, mem_filter, decide_eq_true_iff]
      constructor
      · rintro ⟨⟨hmem, hhead⟩, -⟩
        cases hverdict : entry.verdict with
        | approve => exact ⟨hmem, hverdict, hhead⟩
        | hold => exact absurd ⟨entry, hmem, hverdict, hhead⟩ hfree
      · rintro ⟨hmem, -, hhead⟩
        exact ⟨⟨hmem, hhead⟩, htime hmem⟩
    generalize (entries.filter fun entry => entry.head = python.lower head).filter
      (fun entry => entry.time.isSome) = dated at hdated ⊢
    rw [and_iff_right hfree]
    constructor
    · intro hallows
      cases dated with
      | nil => cases hallows
      | cons first rest => exact ⟨first, (hdated first).mp mem_cons_self⟩
    · rintro ⟨entry, happroves⟩
      obtain ⟨latest, hlatest, hfound⟩ :=
        newest_spec (ne_nil_of_mem ((hdated entry).mpr happroves))
      rw [hfound, any_some]
      exact decide_eq_true ((hdated latest).mp hlatest).2.1

end Verdicts

/-! ## The gate allows -/

section Gate

variable {host : Host} {policy : ApprovalPolicy} {author : Option String} {head : String}
variable {reviews comments : List Json} {armingAgent : Option String}

/-- The approval that decides is a comment stamped with the agent that is arming. -/
def DecidedByArmingAgent (host : Host) (armingAgent : Option String) (policy : ApprovalPolicy)
    (author : Option String) (head : String) (reviews comments : List Json) : Prop :=
  newestReview host policy author head reviews .none = none ∧
    ∃ comment id mine, newestComment host policy author head comments .none = some comment ∧
      recordId comment = some id ∧ armingAgent = some mine ∧
      agentOfComment comments id = some mine

theorem refuseSelfApproval_marker_allows (armingAgent : Option String) (head : String)
    (comments : List Json) (name : String) (commentId appId : Option Nat) :
    (refuseSelfApproval armingAgent head comments
        (.approved (.marker name commentId appId))).allows = true ↔
      ¬ ∃ id mine, commentId = some id ∧ armingAgent = some mine ∧
        agentOfComment comments id = some mine := by
  cases commentId with
  | none => simp [refuseSelfApproval, Approval.innermost, HeadGate.allows]
  | some id =>
    cases armingAgent with
    | none => simp [refuseSelfApproval, Approval.innermost, HeadGate.allows]
    | some mine =>
      by_cases hmine : agentOfComment comments id = some mine <;>
        simp [refuseSelfApproval, Approval.innermost, HeadGate.allows, hmine]

/-- A head the queue did not remove is allowed when an approval names it, no HOLD
does, and the approval that decides is not the arming agent's own comment. -/
theorem decideForAuthor_allows_iff (hsource : policy.source = .comments)
    (hrequired : policy.required = true) {queue : Json} (hqueue : headEjections queue head = [])
    (interrupted : Bool) :
    (decideForAuthor host armingAgent policy head reviews comments queue interrupted
        author).allows = true ↔
      ¬ Held host policy author head reviews comments ∧
        ((∃ review ∈ reviews, approvingReview host policy author head review = true) ∨
          ∃ comment ∈ comments, approvingComment host policy author head comment = true) ∧
        ¬ DecidedByArmingAgent host armingAgent policy author head reviews comments := by
  by_cases hheld : Held host policy author head reviews comments
  · simp [decideForAuthor_of_held hsource hrequired hheld, HeadGate.allows, hheld]
  have hcapped : capped queue head interrupted = none := by
    cases interrupted <;> simp [capped, chargedEjections, hqueue, ejectionCap]
  rw [decideForAuthor_of_not_held hsource hrequired hheld, hcapped, and_iff_right hheld]
  dsimp only
  cases hreview : newestReview host policy author head reviews .none with
  | some review =>
    obtain ⟨name, -, hfind⟩ := findApproval_of_review hreview comments
    obtain ⟨hmem, happroves⟩ := newestReview_spec hreview
    rw [hfind, elim_some]
    refine iff_of_true (by cases armingAgent <;> rfl)
      ⟨.inl ⟨review, hmem, happroves⟩, fun hagent => ?_⟩
    cases hreview.symm.trans hagent.1
  | none =>
    have hnoReview := newestReview_eq_none_iff.mp hreview
    rw [or_iff_right hnoReview]
    cases hcomment : newestComment host policy author head comments .none with
    | some comment =>
      obtain ⟨name, -, hfind⟩ := findApproval_of_comment hreview hcomment
      obtain ⟨hmem, happroves⟩ := newestComment_spec hcomment
      rw [hfind, elim_some, refuseSelfApproval_marker_allows,
        and_iff_right ⟨comment, hmem, happroves⟩]
      refine not_congr ⟨?_, ?_⟩
      · rintro ⟨id, mine, hid, hmine, hagent⟩
        exact ⟨hreview, comment, id, mine, hcomment, hid, hmine, hagent⟩
      · rintro ⟨-, other, id, mine, hother, hid, hmine, hagent⟩
        cases hcomment.symm.trans hother
        exact ⟨id, mine, hid, hmine, hagent⟩
    | none =>
      rw [findApproval_of_none hreview hcomment]
      exact iff_of_false nofun fun happroves =>
        newestComment_eq_none_iff.mp hcomment happroves.1

end Gate

/-! ## Both gates -/

section Both

variable {python : PythonText} {host : Host} {policy : ApprovalPolicy} {author : Option String}
variable {head : String} {reviews comments : List ApiRecord}
variable {timestamp : Option String → Option Time}

/-- Both gates allow the same heads, but for the approvals of the arming agent. -/
theorem gates_agree (hsource : policy.source = .comments) (hrequired : policy.required = true)
    (hbase : policy.signerSource = .base) {queue : Json}
    (hqueue : headEjections queue head = []) (interrupted : Bool) (armingAgent : Option String)
    (hreviews : PlainBodies reviews) (hcomments : PlainBodies comments)
    (hreviewTimes : ∀ review ∈ reviews, (timestamp review.time).isSome = true)
    (hcommentTimes : ∀ comment ∈ comments, (timestamp comment.time).isSome = true)
    (hcase : SameCase python policy author head reviews comments) :
    (decideForAuthor host armingAgent policy head (reviews.map reviewRecord)
        (comments.map commentRecord) queue interrupted author).allows = true ↔
      ArmGuard.reviewVerdict python timestamp (guardPolicy policy) author head reviews comments =
          true ∧
        ¬ DecidedByArmingAgent host armingAgent policy author head (reviews.map reviewRecord)
          (comments.map commentRecord) := by
  rw [decideForAuthor_allows_iff hsource hrequired hqueue interrupted,
    reviewVerdict_iff hreviewTimes hcommentTimes,
    guardCounts_hold_iff hbase hcase hreviews hcomments,
    guardCounts_approve_iff hbase hcase hreviews hcomments, and_assoc]

end Both

/-- The policy of a base that lists one reviewer. -/
def listedOnBase (login : String) : ApprovalPolicy :=
  { required := true, reviewerLogins := [login], signerSource := .base }

/-- An approval comment that the agent bot-7 posted for the reviewer. -/
def stampedApproval : ApiRecord where
  id := 4
  login := some "reviewer"
  kind := some "User"
  association := none
  time := some "2026-09-24T10:00:00Z"
  body := some ("<!-- session: host/session agent: bot-7 -->\n" ++
    s!"verdict: APPROVE head:{sampleHead}")

/-- An approving review of a commit. -/
def approvingApiReview (login : String) (commitId : Option String) : ApiRecord where
  id := 5
  login := some login
  kind := some "User"
  association := none
  time := some "2026-09-24T10:00:00Z"
  state := some "APPROVED"
  commitId := commitId
  body := none

theorem plainBodies_stampedApproval : PlainBodies [stampedApproval] := by
  intro record hrecord text htext
  cases mem_singleton.mp hrecord
  cases htext
  exact fun char hchar => List.all_eq_true.mp
    (show (String.toList _).all isPlain = true by decide +kernel) char hchar

/-- In ASCII, every text has the same case for both. -/
theorem sameCase_asciiPython {policy : ApprovalPolicy} {author : Option String} {head : String}
    {reviews comments : List ApiRecord} (hhead : head ≠ "") :
    SameCase asciiPython policy author head reviews comments where
  named := fun hempty => absurd hempty hhead
  lowered := rfl
  author := fun _ _ => rfl
  reviewers := fun _ _ => rfl
  logins := fun _ _ _ _ => rfl
  states := fun _ _ _ _ => rfl
  commits := fun _ _ _ _ => rfl

/-- The gates agree on an approval by another agent. -/
theorem gates_agree_on_other_agent :
    (decideForAuthor sampleHost (some "bot-8") (listedOnBase "reviewer") sampleHead
        ([].map reviewRecord) ([stampedApproval].map commentRecord) .null false
        (some "author")).allows = true ↔
      ArmGuard.reviewVerdict asciiPython (fun _ => some 0) (guardPolicy (listedOnBase "reviewer"))
          (some "author") sampleHead [] [stampedApproval] = true ∧
        ¬ DecidedByArmingAgent sampleHost (some "bot-8") (listedOnBase "reviewer")
          (some "author") sampleHead ([].map reviewRecord)
          ([stampedApproval].map commentRecord) :=
  gates_agree rfl rfl rfl rfl false (some "bot-8") nofun plainBodies_stampedApproval
    nofun (fun _ _ => rfl) (sameCase_asciiPython (by decide))

/-- The guard allows, and the gate refuses, the arming agent's own approval, a
reviewer whose login only Python lowers to a listed one, and the empty head when a
review has no commit. The guard's verdict does not ask whether approval is required,
nor whether comments are where it comes from. -/
theorem gates_differ :
    (ArmGuard.reviewVerdict asciiPython (fun _ => some 0) (guardPolicy (listedOnBase "reviewer"))
        (some "author") sampleHead [] [stampedApproval] = true ∧
      (decideForAuthor sampleHost (some "bot-7") (listedOnBase "reviewer") sampleHead []
        ([stampedApproval].map commentRecord) .null false (some "author")).allows = false) ∧
    (ArmGuard.reviewVerdict unicodePython (fun _ => some 0) (guardPolicy (listedOnBase "k"))
        (some "author") sampleHead [approvingApiReview "\u212a" (some sampleHead)] [] = true ∧
      (decideForAuthor sampleHost none (listedOnBase "k") sampleHead
        ([approvingApiReview "\u212a" (some sampleHead)].map reviewRecord) [] .null false
        (some "author")).allows = false) ∧
    (ArmGuard.reviewVerdict asciiPython (fun _ => some 0) (guardPolicy (listedOnBase "reviewer"))
        (some "author") "" [approvingApiReview "reviewer" none] [] = true ∧
      (decideForAuthor sampleHost none (listedOnBase "reviewer") ""
        ([approvingApiReview "reviewer" none].map reviewRecord) [] .null false
        (some "author")).allows = false) ∧
    (ArmGuard.reviewVerdict asciiPython (fun _ => some 0) (guardPolicy (listedOnBase "reviewer"))
        (some "author") sampleHead [] [] = false ∧
      (decideForAuthor sampleHost none { listedOnBase "reviewer" with required := false }
        sampleHead [] [] .null false (some "author")).allows = true) ∧
    (ArmGuard.reviewVerdict asciiPython (fun _ => some 0) (guardPolicy (listedOnBase "reviewer"))
        (some "author") sampleHead [] [stampedApproval] = true ∧
      (decideForAuthor sampleHost none { listedOnBase "reviewer" with source := .guard "check" 1 }
        sampleHead [] ([stampedApproval].map commentRecord) .null false
        (some "author")).allows = false) := by
  refine ⟨⟨?_, ?_⟩, ⟨?_, ?_⟩, ⟨?_, ?_⟩, ⟨?_, ?_⟩, ?_, ?_⟩ <;> decide +kernel

end Shipyard.HeadApproval
