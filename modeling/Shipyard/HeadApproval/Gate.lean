import Mathlib
import Shipyard.HeadApproval.Ejections
import Shipyard.HeadApproval.Records

/-!
# The gate of one head

`decide_for_author` judges a head from records already read: a counting HOLD of
the head refuses it, a head the queue removed too often needs an approval after
the last removal, and any other head an approval that the arming agent did not
post itself.
-/

namespace Shipyard.HeadApproval

open Lib List Option
open PrQueue (eqIgnoreAsciiCase eqIgnoreAsciiCase_iff toAsciiLowercase)

/-! ## Approvals and gates -/

/-- A member of a rollup, with its approval. -/
structure Member (Approval : Type) where
  pr : Nat
  head : String
  merge : String
  files : List String
  approval : Option Approval

inductive Approval where
  | review (login : String) (appId : Option Nat)
  | carried (fromHead : String) (approval : Approval) (rebase : Bool)
  | rollup (members : List (Member Approval))
  | marker (login : String) (commentId appId : Option Nat)
  | admission (check : String) (appId checkRunId : Nat) (policySha classification : String)

/-- The approval below the carries. -/
def Approval.innermost : Approval → Approval
  | .carried _ approval _ => approval.innermost
  | approval => approval

inductive HeadGate where
  | notRequired
  | approved (approval : Approval)
  | notApproved (head : String)
  | selfApproved (head agent : String)
  | ejectionCap (head : String) (ejections : List Ejection)
  | notAdmitted (head detail : String)

def HeadGate.allows : HeadGate → Bool
  | .notRequired => true
  | .approved _ => true
  | _ => false

/-- The instant an approval must follow. Nothing follows the last instant of the
clock, which stands for a removal whose time cannot be read. -/
inductive Floor where
  | none
  | after (time : Time)
  | last

/-! ## Verdicts on a head -/

section Verdicts

variable (host : Host) (policy : ApprovalPolicy) (author : Option String) (head : String)

def fresh (floor : Floor) (record : Json) : Bool :=
  match floor with
  | .none => true
  | .after time => (recordTime host record).any fun recorded => time < recorded
  | .last => false

/-- A counting review that approves the head. -/
def approvingReview (review : Json) : Bool :=
  verdictCounts host policy author .approve review && inState review "APPROVED" &&
    onCommit review head

/-- A counting comment whose last line approves the head. -/
def approvingComment (comment : Json) : Bool :=
  verdictCounts host policy author .approve comment &&
    (body comment).any fun text => markerNamesHead text head

/-- A counting review that holds the head. -/
def holdingReview (review : Json) : Bool :=
  onCommit review head && inState review "CHANGES_REQUESTED" &&
    verdictCounts host policy author .hold review

/-- A counting comment whose last line holds the head. -/
def holdingComment (comment : Json) : Bool :=
  (commentVerdict comment).any (fun (verdict, markerHead) =>
      verdict = .hold && eqIgnoreAsciiCase markerHead head) &&
    verdictCounts host policy author .hold comment

variable (reviews comments : List Json)

/-- The newest counting review that approves the head. -/
def newestReview (floor : Floor) : Option Json :=
  reviews.reverse.find? fun review =>
    fresh host floor review && approvingReview host policy author head review

/-- The newest counting comment that approves the head. -/
def newestComment (floor : Floor) : Option Json :=
  comments.reverse.find? fun comment =>
    fresh host floor comment && approvingComment host policy author head comment

def findApprovalForAuthor (floor : Floor) : Option Approval :=
  match (newestReview host policy author head reviews floor).bind fun review =>
      (login review).map fun login => .review login (performedViaGithubAppId review) with
  | some approval => some approval
  | none =>
    (newestComment host policy author head comments floor).bind fun comment =>
      (login comment).map fun login =>
        .marker login (recordId comment) (performedViaGithubAppId comment)

def headHold : Option Json :=
  (reviews.find? (holdingReview host policy author head)).or
    (comments.find? (holdingComment host policy author head))

/-- The verdict a comment gives on the head, when it counts. -/
def commentEvent (comment : Json) : Option Verdict :=
  match commentVerdict comment with
  | none => none
  | some (verdict, markerHead) =>
    if markerHead = toAsciiLowercase head ∧ verdictCounts host policy author verdict comment then
      some verdict
    else none

def reviewEvent (review : Json) : Option Verdict :=
  if onCommit review head && inState review "APPROVED" &&
      verdictCounts host policy author .approve review then
    some .approve
  else none

/-- A HOLD is final for its head, whatever else names it. -/
def latestVerdict : Option Verdict :=
  if (headHold host policy author head reviews comments).isSome then some .hold
  else (reviews.filterMap (reviewEvent host policy author head) ++
    comments.filterMap (commentEvent host policy author head)).head?

end Verdicts

/-! ## The decision -/

def ejectionCap : Nat := 2

/-- The removals of the head that count against it. An interruption excuses the
latest one. -/
def chargedEjections (queue : Json) (head : String) (latestWasInterruption : Bool) :
    List Ejection :=
  if latestWasInterruption then (headEjections queue head).dropLast else headEjections queue head

/-- The removals when they reach the cap. -/
def capped (queue : Json) (head : String) (latestWasInterruption : Bool) :
    Option (List Ejection) :=
  let ejections := chargedEjections queue head latestWasInterruption
  if ejectionCap ≤ ejections.length then some ejections else none

/-- The time of the last removal. -/
def removalFloor (host : Host) (ejections : List Ejection) : Floor :=
  match (ejections.getLast?.bind Ejection.removedAt).bind host.parseTimestamp with
  | some time => .after time
  | none => .last

/-- The agent a comment with an id is stamped with. -/
def agentOfComment (comments : List Json) (id : Nat) : Option String :=
  ((comments.find? fun comment => recordId comment = some id).bind body).bind stampedAgent

/-- An agent does not approve its own landing: `armingAgent` is this process's. -/
def refuseSelfApproval (armingAgent : Option String) (head : String) (comments : List Json)
    (gate : HeadGate) : HeadGate :=
  match gate with
  | .approved approval =>
    match approval.innermost, armingAgent with
    | .marker _ (some id) _, some mine =>
      if agentOfComment comments id = some mine then .selfApproved head mine else gate
    | _, _ => gate
  | _ => gate

def decideForAuthor (host : Host) (armingAgent : Option String) (policy : ApprovalPolicy)
    (head : String) (reviews comments : List Json) (queue : Json) (latestWasInterruption : Bool)
    (author : Option String) : HeadGate :=
  if !policy.source.isComments then
    .notAdmitted head "judged from comments under a guard-mode policy"
  else if !policy.required then .notRequired
  else if latestVerdict host policy author head reviews comments = some .hold then
    .notApproved head
  else
    match capped queue head latestWasInterruption with
    | some ejections =>
      -- The cap is left by a fresh approval, whoever posted it.
      match findApprovalForAuthor host policy author head reviews comments
          (removalFloor host ejections) with
      | some approval => .approved approval
      | none => .ejectionCap head ejections
    | none =>
      let gate :=
        match findApprovalForAuthor host policy author head reviews comments .none with
        | some approval => HeadGate.approved approval
        | none => .notApproved head
      refuseSelfApproval armingAgent head comments gate

/-! ## What a verdict rests on -/

section Lemmas

variable {host : Host} {policy : ApprovalPolicy} {author : Option String} {head : String}
variable {reviews comments : List Json} {floor : Floor}

/-- A counting HOLD names the head. -/
def Held (host : Host) (policy : ApprovalPolicy) (author : Option String) (head : String)
    (reviews comments : List Json) : Prop :=
  (∃ review ∈ reviews, holdingReview host policy author head review = true) ∨
    ∃ comment ∈ comments, holdingComment host policy author head comment = true

/-- The approval is that of a counting record that approves the head. -/
def RestsOnRecord (host : Host) (policy : ApprovalPolicy) (author : Option String)
    (head : String) (reviews comments : List Json) : Approval → Prop
  | .review name appId => ∃ review ∈ reviews,
      approvingReview host policy author head review = true ∧
      login review = some name ∧ performedViaGithubAppId review = appId
  | .marker name commentId appId => ∃ comment ∈ comments,
      approvingComment host policy author head comment = true ∧ login comment = some name ∧
      recordId comment = commentId ∧ performedViaGithubAppId comment = appId
  | _ => False

variable {verdict : Verdict}

theorem login_isSome_of_verdictCounts {record : Json}
    (hcounts : verdictCounts host policy author verdict record = true) :
    ∃ name, login record = some name := by
  unfold verdictCounts reviewerAllowed at hcounts
  cases hlogin : login record with
  | none => simp [hlogin] at hcounts
  | some name => exact ⟨name, rfl⟩

theorem headHold_isSome_iff :
    (headHold host policy author head reviews comments).isSome = true ↔
      Held host policy author head reviews comments := by
  simp [headHold, Held]

variable {comment : Json}

theorem toAsciiLowercase_idem (text : String) :
    toAsciiLowercase (toAsciiLowercase text) = toAsciiLowercase text := by
  simp [toAsciiLowercase, Function.comp_def, Char.toLower_toLower_eq_toLower]

theorem markerVerdict_head {text : String} {markerHead : String}
    (hmarker : markerVerdict text = some (verdict, markerHead)) :
    ∃ named, markerHead = toAsciiLowercase named := by
  unfold markerVerdict at hmarker
  split at hmarker
  · cases hmarker
  split at hmarker
  · cases hmarker
    exact ⟨_, rfl⟩
  · obtain ⟨word, -, hmarker⟩ := bind_eq_some_iff.mp hmarker
    obtain ⟨given, -, hmarker⟩ := bind_eq_some_iff.mp hmarker
    obtain ⟨named, -, hmarker⟩ := map_eq_some_iff.mp hmarker
    cases hmarker
    exact ⟨named, rfl⟩

/-- A marker's head is in lower case. -/
theorem commentVerdict_any_iff :
    ((commentVerdict comment).any fun (given, markerHead) =>
        given = verdict && eqIgnoreAsciiCase markerHead head) = true ↔
      commentVerdict comment = some (verdict, toAsciiLowercase head) := by
  cases hcomment : commentVerdict comment with
  | none => simp
  | some found =>
    obtain ⟨given, markerHead⟩ := found
    obtain ⟨text, -, hmarker⟩ := bind_eq_some_iff.mp hcomment
    obtain ⟨named, rfl⟩ := markerVerdict_head hmarker
    simp [eqIgnoreAsciiCase_iff, toAsciiLowercase_idem]

theorem commentEvent_eq_some_iff :
    commentEvent host policy author head comment = some verdict ↔
      verdictCounts host policy author verdict comment = true ∧
        commentVerdict comment = some (verdict, toAsciiLowercase head) := by
  unfold commentEvent
  cases commentVerdict comment with
  | none => simp
  | some found =>
    simp only [ite_none_right_eq_some, some.injEq, Prod.ext_iff]
    constructor
    · rintro ⟨⟨hhead, hcounts⟩, rfl⟩
      exact ⟨hcounts, rfl, hhead⟩
    · rintro ⟨hcounts, rfl, hhead⟩
      exact ⟨⟨hhead, hcounts⟩, rfl⟩

theorem holdingComment_iff :
    holdingComment host policy author head comment = true ↔
      commentEvent host policy author head comment = some .hold := by
  rw [holdingComment, Bool.and_eq_true, commentVerdict_any_iff, commentEvent_eq_some_iff, and_comm]

theorem approvingComment_iff :
    approvingComment host policy author head comment = true ↔
      commentEvent host policy author head comment = some .approve := by
  have hany : ((body comment).any fun text => markerNamesHead text head) =
      (commentVerdict comment).any fun (given, markerHead) =>
        given = .approve && eqIgnoreAsciiCase markerHead head := by
    rw [commentVerdict]
    cases body comment <;> rfl
  rw [approvingComment, Bool.and_eq_true, hany, commentVerdict_any_iff, commentEvent_eq_some_iff]

variable {review : Json}

theorem approvingReview_of_reviewEvent
    (hevent : reviewEvent host policy author head review = some verdict) :
    verdict = .approve ∧ approvingReview host policy author head review = true := by
  unfold reviewEvent at hevent
  split at hevent
  next hcounts =>
    cases hevent
    simp only [Bool.and_eq_true] at hcounts
    simp [approvingReview, hcounts]
  · cases hevent

/-- The latest verdict is a HOLD exactly on a held head. -/
theorem latestVerdict_eq_hold_iff :
    latestVerdict host policy author head reviews comments = some .hold ↔
      Held host policy author head reviews comments := by
  rw [← headHold_isSome_iff]
  unfold latestVerdict
  split
  next hheld => simp [hheld]
  next hheld =>
    refine ⟨fun hevent => absurd ?_ hheld, fun h => absurd h hheld⟩
    rcases mem_append.mp (mem_of_mem_head? hevent) with hreview | hcomment
    · obtain ⟨review, -, hevent⟩ := mem_filterMap.mp hreview
      cases (approvingReview_of_reviewEvent hevent).1
    · obtain ⟨comment, hmem, hevent⟩ := mem_filterMap.mp hcomment
      exact headHold_isSome_iff.mpr (.inr ⟨comment, hmem, holdingComment_iff.mpr hevent⟩)

/-- Where a verdict approves the head, a record does. -/
theorem approving_of_latestVerdict
    (hverdict : latestVerdict host policy author head reviews comments = some .approve) :
    (∃ review ∈ reviews, approvingReview host policy author head review = true) ∨
      ∃ comment ∈ comments, approvingComment host policy author head comment = true := by
  unfold latestVerdict at hverdict
  split at hverdict
  · cases hverdict
  rcases mem_append.mp (mem_of_mem_head? hverdict) with hreview | hcomment
  · obtain ⟨review, hmem, hevent⟩ := mem_filterMap.mp hreview
    exact .inl ⟨review, hmem, (approvingReview_of_reviewEvent hevent).2⟩
  · obtain ⟨comment, hmem, hevent⟩ := mem_filterMap.mp hcomment
    exact .inr ⟨comment, hmem, approvingComment_iff.mpr hevent⟩

theorem newestReview_spec
    (hfound : newestReview host policy author head reviews floor = some review) :
    review ∈ reviews ∧ approvingReview host policy author head review = true := by
  have happroves := find?_some hfound
  rw [Bool.and_eq_true] at happroves
  exact ⟨mem_reverse.mp (mem_of_find?_eq_some hfound), happroves.2⟩

theorem newestComment_spec
    (hfound : newestComment host policy author head comments floor = some comment) :
    comment ∈ comments ∧ approvingComment host policy author head comment = true := by
  have happroves := find?_some hfound
  rw [Bool.and_eq_true] at happroves
  exact ⟨mem_reverse.mp (mem_of_find?_eq_some hfound), happroves.2⟩

theorem newestReview_eq_none_iff :
    newestReview host policy author head reviews .none = none ↔
      ¬ ∃ review ∈ reviews, approvingReview host policy author head review = true := by
  simp [newestReview, fresh]

theorem newestComment_eq_none_iff :
    newestComment host policy author head comments .none = none ↔
      ¬ ∃ comment ∈ comments, approvingComment host policy author head comment = true := by
  simp [newestComment, fresh]

theorem login_of_approvingReview (happroves : approvingReview host policy author head review = true)
    : ∃ name, login review = some name := by
  simp only [approvingReview, Bool.and_eq_true] at happroves
  exact login_isSome_of_verdictCounts happroves.1.1

theorem login_of_approvingComment
    (happroves : approvingComment host policy author head comment = true) :
    ∃ name, login comment = some name := by
  simp only [approvingComment, Bool.and_eq_true] at happroves
  exact login_isSome_of_verdictCounts happroves.1

theorem findApproval_of_review
    (hfound : newestReview host policy author head reviews floor = some review)
    (comments : List Json) :
    ∃ name, login review = some name ∧
      findApprovalForAuthor host policy author head reviews comments floor =
        some (.review name (performedViaGithubAppId review)) := by
  obtain ⟨name, hname⟩ := login_of_approvingReview (newestReview_spec hfound).2
  refine ⟨name, hname, ?_⟩
  rw [findApprovalForAuthor, hfound, bind_some, hname]
  rfl

theorem findApproval_of_comment
    (hreview : newestReview host policy author head reviews floor = none)
    (hfound : newestComment host policy author head comments floor = some comment) :
    ∃ name, login comment = some name ∧
      findApprovalForAuthor host policy author head reviews comments floor =
        some (.marker name (recordId comment) (performedViaGithubAppId comment)) := by
  obtain ⟨name, hname⟩ := login_of_approvingComment (newestComment_spec hfound).2
  refine ⟨name, hname, ?_⟩
  rw [findApprovalForAuthor, hreview, hfound, bind_none, bind_some, hname]
  rfl

theorem findApproval_of_none
    (hreview : newestReview host policy author head reviews floor = none)
    (hcomment : newestComment host policy author head comments floor = none) :
    findApprovalForAuthor host policy author head reviews comments floor = none := by
  rw [findApprovalForAuthor, hreview, hcomment]
  rfl

/-- An approval that is found is that of a record. -/
theorem restsOnRecord_of_findApproval {approval : Approval}
    (hfind : findApprovalForAuthor host policy author head reviews comments floor =
      some approval) : RestsOnRecord host policy author head reviews comments approval := by
  cases hreview : newestReview host policy author head reviews floor with
  | some review =>
    obtain ⟨name, hname, hfound⟩ := findApproval_of_review hreview comments
    cases hfound.symm.trans hfind
    obtain ⟨hmem, happroves⟩ := newestReview_spec hreview
    exact ⟨review, hmem, happroves, hname, rfl⟩
  | none =>
    cases hcomment : newestComment host policy author head comments floor with
    | some comment =>
      obtain ⟨name, hname, hfound⟩ := findApproval_of_comment hreview hcomment
      cases hfound.symm.trans hfind
      obtain ⟨hmem, happroves⟩ := newestComment_spec hcomment
      exact ⟨comment, hmem, happroves, hname, rfl, rfl⟩
    | none => cases (findApproval_of_none hreview hcomment).symm.trans hfind

/-- Where a verdict approves the head, an approval is found. -/
theorem findApproval_ne_none
    (hverdict : latestVerdict host policy author head reviews comments = some .approve) :
    findApprovalForAuthor host policy author head reviews comments .none ≠ none := by
  cases hreview : newestReview host policy author head reviews .none with
  | some review =>
    obtain ⟨name, -, hfound⟩ := findApproval_of_review hreview comments
    simp [hfound]
  | none =>
    cases hcomment : newestComment host policy author head comments .none with
    | some comment =>
      obtain ⟨name, -, hfound⟩ := findApproval_of_comment hreview hcomment
      simp [hfound]
    | none =>
      -- Neither list has an approving record, and the verdict rests on one.
      rcases approving_of_latestVerdict hverdict with happroves | happroves
      · exact absurd happroves (newestReview_eq_none_iff.mp hreview)
      · exact absurd happroves (newestComment_eq_none_iff.mp hcomment)

/-- Where no verdict names the head, no approval of it is found. -/
theorem findApproval_eq_none
    (hverdict : latestVerdict host policy author head reviews comments = none) :
    findApprovalForAuthor host policy author head reviews comments .none = none := by
  unfold latestVerdict at hverdict
  split at hverdict
  · cases hverdict
  obtain ⟨hreviews, hcomments⟩ := append_eq_nil_iff.mp (head?_eq_none_iff.mp hverdict)
  rw [filterMap_eq_nil_iff] at hreviews hcomments
  refine findApproval_of_none (newestReview_eq_none_iff.mpr ?_) (newestComment_eq_none_iff.mpr ?_)
  · rintro ⟨review, hmem, happroves⟩
    have hevent := hreviews review hmem
    simp only [approvingReview, Bool.and_eq_true] at happroves
    simp [reviewEvent, happroves] at hevent
  · rintro ⟨comment, hmem, happroves⟩
    have hevent := hcomments comment hmem
    rw [approvingComment_iff.mp happroves] at hevent
    cases hevent

/-! ## What the decision can be -/

theorem refuseSelfApproval_cases (armingAgent : Option String) (head : String)
    (comments : List Json) (gate : HeadGate) :
    refuseSelfApproval armingAgent head comments gate = gate ∨
      ∃ mine, refuseSelfApproval armingAgent head comments gate = .selfApproved head mine := by
  unfold refuseSelfApproval
  split
  · split
    · split
      · exact .inr ⟨_, rfl⟩
      · exact .inl rfl
    · exact .inl rfl
  · exact .inl rfl

variable {armingAgent : Option String} {queue : Json} {interrupted : Bool}

variable (hsource : policy.source = .comments)

include hsource

variable (hrequired : policy.required = true)

include hrequired

/-- A held head is refused, whatever the queue did and whoever arms it. -/
theorem decideForAuthor_of_held
    (hheld : Held host policy author head reviews comments) :
    decideForAuthor host armingAgent policy head reviews comments queue interrupted author =
      .notApproved head := by
  rw [decideForAuthor, hsource, hrequired, if_pos (latestVerdict_eq_hold_iff.mpr hheld)]
  rfl

/-- A head that is not held is judged by its approvals. -/
theorem decideForAuthor_of_not_held
    (hheld : ¬ Held host policy author head reviews comments) (armingAgent : Option String)
    (queue : Json) (interrupted : Bool) :
    decideForAuthor host armingAgent policy head reviews comments queue interrupted author =
      match capped queue head interrupted with
      | some ejections =>
        (findApprovalForAuthor host policy author head reviews comments
          (removalFloor host ejections)).elim (.ejectionCap head ejections) .approved
      | none =>
        refuseSelfApproval armingAgent head comments
          ((findApprovalForAuthor host policy author head reviews comments .none).elim
            (.notApproved head) .approved) := by
  rw [decideForAuthor, hsource, hrequired, if_neg (mt latestVerdict_eq_hold_iff.mp hheld)]
  simp only [ApprovalSource.isComments, Bool.not_true, Bool.false_eq_true, if_false]
  cases capped queue head interrupted with
  | some ejections =>
    dsimp only
    cases findApprovalForAuthor host policy author head reviews comments
      (removalFloor host ejections) <;> rfl
  | none =>
    dsimp only
    cases findApprovalForAuthor host policy author head reviews comments .none <;> rfl

/-- Where approval is required, the decision approves a record or nothing. -/
theorem decideForAuthor_allows
    (hallows : (decideForAuthor host armingAgent policy head reviews comments queue interrupted
      author).allows = true) :
    ∃ approval, decideForAuthor host armingAgent policy head reviews comments queue interrupted
        author = .approved approval ∧
      RestsOnRecord host policy author head reviews comments approval := by
  by_cases hheld : Held host policy author head reviews comments
  · rw [decideForAuthor_of_held hsource hrequired hheld] at hallows
    cases hallows
  rw [decideForAuthor_of_not_held hsource hrequired hheld] at hallows ⊢
  cases hcap : capped queue head interrupted with
  | some ejections =>
    rw [hcap] at hallows
    dsimp only at hallows ⊢
    cases hfind : findApprovalForAuthor host policy author head reviews comments
      (removalFloor host ejections) with
    | none =>
      rw [hfind] at hallows
      cases hallows
    | some approval => exact ⟨approval, rfl, restsOnRecord_of_findApproval hfind⟩
  | none =>
    rw [hcap] at hallows
    dsimp only at hallows ⊢
    cases hfind : findApprovalForAuthor host policy author head reviews comments .none with
    | none =>
      rw [hfind] at hallows
      cases hallows
    | some approval =>
      rw [hfind] at hallows
      dsimp only [Option.elim] at hallows ⊢
      rcases refuseSelfApproval_cases armingAgent head comments (.approved approval) with
        hgate | ⟨mine, hgate⟩
      · exact ⟨approval, hgate, restsOnRecord_of_findApproval hfind⟩
      · rw [hgate] at hallows
        cases hallows

end Lemmas

end Shipyard.HeadApproval
