import Shipyard.HeadApproval.Evaluate

/-!
# A HOLD is final for its head

No allowing gate stands on a head that a counting HOLD names, and an approval that
is neither carried nor a rollup's is that of a counting record of the head. Each
step of an evaluation keeps this. What `evaluate_events` drops beforehand is the
gap: a HOLD comment that is not newer than the head's commit.
-/

namespace Shipyard.HeadApproval

open Lib List

/-- Given to the head by a carry or a rollup, not by a verdict that names it. -/
def Approval.isDerived : Approval → Bool
  | .carried _ _ _ => true
  | .rollup _ => true
  | _ => false

/-- The gate respects the records: a held head is not allowed, and an approval of
its own is that of a record. -/
structure Respects (host : Host) (policy : ApprovalPolicy) (author : Option String)
    (head : String) (reviews comments : List Json) (gate : HeadGate) : Prop where
  held : Held host policy author head reviews comments → gate.allows = false
  rests : gate.allows = true → ∃ approval, gate = .approved approval ∧
    (approval.isDerived = false →
      RestsOnRecord host policy author head reviews comments approval)

/-! ## The steps of an evaluation -/

section Steps

variable {host : Host} {world : World} {input : CarryInput} {gate : HeadGate}

abbrev CarryInput.Respected (input : CarryInput) (host : Host) (gate : HeadGate) : Prop :=
  Respects host input.policy input.author input.head input.reviews input.comments gate

variable {head : String} {armingAgent : Option String}

theorem respects_of_refused {policy : ApprovalPolicy} {author : Option String}
    {reviews comments : List Json} (hrefused : gate.allows = false) :
    Respects host policy author head reviews comments gate where
  held _ := hrefused
  rests hallows := by simp [hrefused] at hallows

theorem respects_decideForAuthor (input : CarryInput) {queue : Json} {interrupted : Bool}
    (hsource : input.policy.source = .comments) (hrequired : input.policy.required = true) :
    input.Respected host (decideForAuthor host armingAgent input.policy input.head input.reviews
      input.comments queue interrupted input.author) where
  held hheld := by
    rw [decideForAuthor_of_held hsource hrequired hheld]
    rfl
  rests hallows := by
    obtain ⟨approval, hgate, hrests⟩ := decideForAuthor_allows hsource hrequired hallows
    exact ⟨approval, hgate, fun _ => hrests⟩

theorem withCarry_cases (host : Host) (world : World) (input : CarryInput) (gate : HeadGate) :
    withCarry host world input gate = gate ∨
      (input.verdict host input.head).isSome = false ∧ ∃ earlier approval rebase,
        withCarry host world input gate = .approved (.carried earlier approval rebase) := by
  unfold withCarry
  split
  · split
    · exact .inl rfl
    next hverdict =>
    split
    · exact .inl rfl
    split
    · exact .inl rfl
    split
    · exact .inl rfl
    split
    · exact .inr ⟨by simpa using hverdict, _, _, _, rfl⟩
    · exact .inl rfl
  · exact .inl rfl

theorem withRollup_cases (host : Host) (world : World) (input : CarryInput) (gate : HeadGate) :
    withRollup host world input gate = gate ∨
      (input.verdict host input.head).isSome = false ∧ ∃ members,
        withRollup host world input gate = .approved (.rollup members) := by
  unfold withRollup
  split
  · split
    · exact .inl rfl
    next hverdict =>
    split
    · exact .inr ⟨by simpa using hverdict, _, rfl⟩
    · exact .inl rfl
  · exact .inl rfl

/-- An approval without a verdict on the head contradicts no HOLD. -/
theorem respects_derived {approval : Approval} (hderived : approval.isDerived = true)
    (hverdict : (input.verdict host input.head).isSome = false) :
    input.Respected host (.approved approval) where
  held hheld := by simp [CarryInput.verdict, latestVerdict_eq_hold_iff.mpr hheld] at hverdict
  rests _ := ⟨approval, rfl, fun hown => by simp [hderived] at hown⟩

variable (hgate : input.Respected host gate)

include hgate

theorem respects_withCarry :
    input.Respected host (withCarry host world input gate) := by
  rcases withCarry_cases host world input gate with hsame | ⟨hverdict, earlier, approval, rebase,
    hcarried⟩
  · rwa [hsame]
  · rw [hcarried]
    exact respects_derived rfl hverdict

theorem respects_withRollup :
    input.Respected host (withRollup host world input gate) := by
  rcases withRollup_cases host world input gate with hsame | ⟨hverdict, members, hrollup⟩
  · rwa [hsame]
  · rw [hrollup]
    exact respects_derived rfl hverdict

theorem respects_refuseSelfApproval {comments : List Json} :
    input.Respected host (refuseSelfApproval armingAgent head comments gate) := by
  rcases refuseSelfApproval_cases armingAgent head comments gate with
    hsame | ⟨mine, hself⟩
  · rwa [hsame]
  · rw [hself]
    exact respects_of_refused rfl

end Steps

/-! ## What an evaluation is made of -/

section Evaluations

variable {host : Host} {world : World} {pr : Nat} {head : String} {policy : ApprovalPolicy}
variable {reviews comments : List Json} {date : Time} {author known : Option String}

/-- What the world answers about one pull request and its head. -/
structure Answers (world : World) (pr : Nat) (head : String) (reviews comments : List Json)
    (date : Time) : Prop where
  reviews : world.reviewRecords pr = .ok reviews
  comments : world.commentRecords pr = .ok comments
  date : world.committerDate head = .ok date

/-- The comments `evaluate_events` judges. -/
def judgedComments (host : Host) (head : String) (date : Time) (comments : List Json) :
    List Json :=
  if comments.any (namesHead head) then comments.filter (newerThan host date) else comments

theorem judgedComments_subset : judgedComments host head date comments ⊆ comments := by
  unfold judgedComments
  split
  · exact filter_sublist.subset
  · exact List.Subset.refl _

theorem datedComments_eq (hdate : world.committerDate head = .ok date) :
    datedComments host world head comments = .ok (judgedComments host head date comments) := by
  unfold datedComments judgedComments
  rw [hdate]
  cases comments.any (namesHead head) <;> rfl

/-- The gate `evaluate_events` reaches from its records, before rollups. -/
def recordsGate (host : Host) (world : World) (queue : Json) (input : CarryInput) : HeadGate :=
  refuseSelfApproval world.armingAgent input.head input.comments
    (withCarry host world input
      (decideForAuthor host world.armingAgent input.policy input.head input.reviews input.comments
        queue false input.author))

theorem evaluateEvents_of_open (host : Host) (hsource : policy.source = .comments)
    (hrequired : policy.required = true) (hguard : world.requiresGuard = false)
    (hanswers : Answers world pr head reviews comments date)
    (hauthor : prAuthor world pr policy known = .ok author) (queue : Json) (rollups : Bool) :
    let input : CarryInput :=
      { pr, head, reviews, comments := judgedComments host head date comments, policy, author }
    evaluateEvents host world pr head policy queue known rollups =
      .ok (if rollups then withRollup host world input (recordsGate host world queue input)
        else recordsGate host world queue input) := by
  unfold evaluateEvents evaluateRecords guardEvaluate
  rw [hsource, hrequired, hguard, hauthor, hanswers.reviews, hanswers.comments]
  simp only [Bool.false_eq_true, if_false, bind, Except.bind, datedComments_eq hanswers.date]
  rfl

theorem evaluateExcusing_of_open (hsource : policy.source = .comments)
    (hrequired : policy.required = true) (hguard : world.requiresGuard = false)
    (hreviews : world.reviewRecords pr = .ok reviews)
    (hcomments : world.commentRecords pr = .ok comments)
    (hauthor : prAuthor world pr policy none = .ok author) (queue : Json) (interrupted : Bool) :
    let input : CarryInput := { pr, head, reviews, comments, policy, author }
    evaluateExcusingWithPolicy host world pr head policy queue interrupted =
      .ok (withRollup host world input (withCarry host world input
        (decideForAuthor host world.armingAgent policy head reviews comments queue interrupted
          author))) := by
  unfold evaluateExcusingWithPolicy guardEvaluate
  rw [hsource, hrequired, hguard, hauthor, hreviews, hcomments]
  rfl

/-- Both evaluations respect the records they judge. -/
theorem respects_recordsGate (input : CarryInput) {queue : Json} {rollups : Bool}
    (hsource : input.policy.source = .comments) (hrequired : input.policy.required = true) :
    input.Respected host (if rollups then
      withRollup host world input (recordsGate host world queue input)
      else recordsGate host world queue input) := by
  have hrecords : input.Respected host (recordsGate host world queue input) :=
    respects_refuseSelfApproval
      (respects_withCarry (respects_decideForAuthor input hsource hrequired))
  cases rollups with
  | true => exact respects_withRollup hrecords
  | false => exact hrecords

/-! ## The HOLDs that are dropped -/

/-- A counting HOLD names the head that `evaluate_events` does not drop. -/
def HeldAfter (host : Host) (policy : ApprovalPolicy) (author : Option String) (head : String)
    (reviews comments : List Json) (date : Time) : Prop :=
  (∃ review ∈ reviews, holdingReview host policy author head review = true) ∨
    ∃ comment ∈ comments, holdingComment host policy author head comment = true ∧
      newerThan host date comment = true

theorem namesHead_of_holdingComment {comment : Json}
    (hholds : holdingComment host policy author head comment = true) :
    namesHead head comment = true := by
  unfold holdingComment at hholds
  unfold namesHead
  cases hverdict : commentVerdict comment with
  | none => simp [hverdict] at hholds
  | some verdict =>
    simp only [hverdict, Option.any_some, Bool.and_eq_true] at hholds ⊢
    exact hholds.1.2

theorem held_judgedComments_iff :
    Held host policy author head reviews (judgedComments host head date comments) ↔
      HeldAfter host policy author head reviews comments date := by
  refine or_congr_right ⟨?_, ?_⟩
  · rintro ⟨comment, hmem, hholds⟩
    have hall := judgedComments_subset hmem
    -- The comment itself names the head, so the older ones were dropped.
    have hnames : comments.any (namesHead head) = true :=
      any_eq_true.mpr ⟨comment, hall, namesHead_of_holdingComment hholds⟩
    rw [judgedComments, if_pos hnames] at hmem
    exact ⟨comment, hall, hholds, (mem_filter.mp hmem).2⟩
  · rintro ⟨comment, hmem, hholds, hnewer⟩
    refine ⟨comment, ?_, hholds⟩
    unfold judgedComments
    split
    · exact mem_filter.mpr ⟨hmem, hnewer⟩
    · exact hmem

/-- Judging fewer comments respects them all, as long as a HOLD stays a HOLD. -/
theorem Respects.of_judged {gate : HeadGate}
    (hgate : Respects host policy author head reviews (judgedComments host head date comments)
      gate)
    (hheld : Held host policy author head reviews comments →
      HeldAfter host policy author head reviews comments date) :
    Respects host policy author head reviews comments gate where
  held h := hgate.held (held_judgedComments_iff.mpr (hheld h))
  rests hallows := by
    obtain ⟨approval, happroved, hrests⟩ := hgate.rests hallows
    refine ⟨approval, happroved, fun hown => ?_⟩
    cases approval with
    | review name appId => exact hrests hown
    | marker name commentId appId =>
      obtain ⟨comment, hmem, hcomment⟩ := hrests hown
      exact ⟨comment, judgedComments_subset hmem, hcomment⟩
    | _ => exact hrests hown

/-- A world that answers with these records and accepts every rollup. -/
def acceptingWorld (reviews comments : List Json) (date : Time) : World where
  reviewRecords _ := .ok reviews
  commentRecords _ := .ok comments
  authorLogin _ := .error "unread"
  committerDate _ := .ok date
  checkRuns _ _ := .ok []
  parseJson _ := .error "unread"
  mergeOnlyCarry _ _ _ _ := .error "no carry"
  rebaseCarry _ _ _ _ := .error "no carry"
  guardAccept _ _ _ _ := .ok (some [])
  armingAgent := none
  requiresGuard := false
  rebaseCarryEnabled := false
  now := 0

theorem refuseSelfApproval_none (head : String) (comments : List Json) (gate : HeadGate) :
    refuseSelfApproval none head comments gate = gate := by
  unfold refuseSelfApproval
  split
  · split
    next hagent => cases hagent
    · rfl
  · rfl

/-- Where no verdict holds the head, the accepting world allows it: by an approval
of its own, or as a rollup. -/
theorem acceptingWorld_allows (input : CarryInput) (hsource : input.policy.source = .comments)
    (hrequired : input.policy.required = true)
    (hheld : ¬ Held host input.policy input.author input.head input.reviews input.comments) :
    (withRollup host (acceptingWorld reviews comments date) input
      (recordsGate host (acceptingWorld reviews comments date) .null input)).allows = true := by
  have hdecide := decideForAuthor_of_not_held hsource hrequired hheld none .null false
  rw [show capped .null input.head false = none from rfl] at hdecide
  dsimp only at hdecide
  rw [refuseSelfApproval_none] at hdecide
  unfold recordsGate
  rw [show (acceptingWorld reviews comments date).armingAgent = none from rfl,
    refuseSelfApproval_none, hdecide]
  cases hfind : findApprovalForAuthor host input.policy input.author input.head input.reviews
    input.comments .none with
  | some approval => rfl
  | none =>
    have hverdict : input.verdict host input.head = none := by
      cases hlatest : input.verdict host input.head with
      | none => rfl
      | some verdict =>
        cases verdict with
        | hold => exact absurd (latestVerdict_eq_hold_iff.mp hlatest) hheld
        | approve => exact absurd hfind (findApproval_ne_none hlatest)
    dsimp only [Option.elim]
    rcases withCarry_cases host (acceptingWorld reviews comments date) input
      (.notApproved input.head) with hsame | ⟨-, earlier, approval, rebase, hcarried⟩
    · rw [hsame, withRollup, hverdict]
      rfl
    · rw [hcarried]
      rfl

theorem prAuthor_known (hauthor : policy.defaultRule = true → author.isSome = true) :
    prAuthor world pr policy author = .ok author := by
  unfold prAuthor
  cases author with
  | some name => rfl
  | none =>
    cases hrule : policy.defaultRule with
    | false => rfl
    | true => cases hauthor hrule

theorem held_heads_are_refused_iff (hsource : policy.source = .comments)
    (hrequired : policy.required = true)
    (hauthor : policy.defaultRule = true → author.isSome = true) :
    (∀ world, Answers world pr head reviews comments date →
      (∀ queue known rollups gate, prAuthor world pr policy known = .ok author →
        evaluateEvents host world pr head policy queue known rollups = .ok gate →
        Respects host policy author head reviews comments gate) ∧
      ∀ queue interrupted gate, prAuthor world pr policy none = .ok author →
        evaluateExcusingWithPolicy host world pr head policy queue interrupted = .ok gate →
        Respects host policy author head reviews comments gate) ↔
      (Held host policy author head reviews comments →
        HeldAfter host policy author head reviews comments date) := by
  constructor
  · intro hrespects hheld
    by_contra hdropped
    have hanswers : Answers (acceptingWorld reviews comments date) pr head reviews comments date :=
      ⟨rfl, rfl, rfl⟩
    have hevents := evaluateEvents_of_open host hsource hrequired rfl hanswers
      (prAuthor_known hauthor) .null true
    have hrefused := ((hrespects _ hanswers).1 .null author true _ (prAuthor_known hauthor)
      hevents).held hheld
    rw [if_pos rfl, acceptingWorld_allows _ hsource hrequired
      (mt held_judgedComments_iff.mp hdropped)] at hrefused
    cases hrefused
  · intro hafter world hanswers
    refine ⟨fun queue known rollups gate hknown heval => ?_,
      fun queue interrupted gate hknown heval => ?_⟩
    · cases hguard : world.requiresGuard with
      | true =>
        rw [evaluateEvents, evaluateRecords, hsource, hguard] at heval
        cases heval
        exact respects_of_refused rfl
      | false =>
        cases (evaluateEvents_of_open host hsource hrequired hguard hanswers hknown queue
          rollups).symm.trans heval
        exact (respects_recordsGate ⟨pr, head, reviews, judgedComments host head date comments,
          policy, author⟩ hsource hrequired).of_judged hafter
    · cases hguard : world.requiresGuard with
      | true =>
        rw [evaluateExcusingWithPolicy, hsource, hguard] at heval
        cases heval
        exact respects_of_refused rfl
      | false =>
        cases (evaluateExcusing_of_open hsource hrequired hguard hanswers.reviews
          hanswers.comments hknown queue interrupted).symm.trans heval
        exact respects_withRollup (respects_withCarry (respects_decideForAuthor
          ⟨pr, head, reviews, comments, policy, author⟩ hsource hrequired))

end Evaluations

/-! ## A HOLD of a head with a later commit date -/

def sampleHead : String := "0123456789abcdef0123456789abcdef01234567"

/-- A host that reads three timestamps. -/
def sampleHost : Host where
  parseTimestamp text :=
    [("2026-09-24T10:00:00Z", 10), ("2026-09-24T11:00:00Z", 11),
      ("2026-09-24T12:00:00Z", 12)].lookup text
  formatTimestamp _ := ""
  isWord char := char.isAlphanum || char = '_'
  sessions := none
  sessionHosts := []

def listedReviewer : ApprovalPolicy := { required := true, reviewerLogins := ["reviewer"] }

/-- A verdict comment of the listed reviewer. -/
def verdictComment (id : Int) (word time : String) : Json :=
  .obj [("id", .number id), ("login", .str "reviewer"), ("type", .str "User"), ("at", .str time),
    ("body", .str s!"verdict: {word} head:{sampleHead}")]

/-- A head held by a review stays refused. -/
def holdingRecord : Json :=
  .obj [("id", .number 3), ("login", .str "reviewer"), ("type", .str "User"),
    ("state", .str "CHANGES_REQUESTED"), ("commit_id", .str sampleHead)]

theorem held_by_review_is_refused :
    Held sampleHost listedReviewer (some "author") sampleHead [holdingRecord] [] ∧
      ∀ world, Answers world 7 sampleHead [holdingRecord] [] 11 →
        (∀ queue known rollups gate, prAuthor world 7 listedReviewer known = .ok (some "author") →
          evaluateEvents sampleHost world 7 sampleHead listedReviewer queue known rollups =
            .ok gate →
          Respects sampleHost listedReviewer (some "author") sampleHead [holdingRecord] [] gate) ∧
        ∀ queue interrupted gate, prAuthor world 7 listedReviewer none = .ok (some "author") →
          evaluateExcusingWithPolicy sampleHost world 7 sampleHead listedReviewer queue
            interrupted = .ok gate →
          Respects sampleHost listedReviewer (some "author") sampleHead [holdingRecord] []
            gate := by
  have hholds : holdingReview sampleHost listedReviewer (some "author") sampleHead
      holdingRecord = true := by decide +kernel
  have hafter : HeldAfter sampleHost listedReviewer (some "author") sampleHead [holdingRecord] []
      11 := .inl ⟨holdingRecord, mem_cons_self, hholds⟩
  exact ⟨.inl ⟨holdingRecord, mem_cons_self, hholds⟩,
    (held_heads_are_refused_iff rfl rfl (by decide)).mpr fun _ => hafter⟩

/-- The HOLD was posted before the date of the head's commit, the approval after it. -/
def olderHold : List Json :=
  [verdictComment 1 "HOLD" "2026-09-24T10:00:00Z",
    verdictComment 2 "APPROVE" "2026-09-24T12:00:00Z"]

theorem older_hold_is_overruled :
    Held sampleHost listedReviewer (some "author") sampleHead [] olderHold ∧
      ((evaluateEvents sampleHost (acceptingWorld [] olderHold 11) 7 sampleHead listedReviewer
        .null (some "author") true).map HeadGate.allows) = .ok true ∧
      ((evaluateExcusingWithPolicy sampleHost (acceptingWorld [] olderHold 11) 7 sampleHead
        listedReviewer .null false).map HeadGate.allows) = .ok false := by
  refine ⟨.inr ⟨verdictComment 1 "HOLD" "2026-09-24T10:00:00Z", mem_cons_self, ?_⟩, ?_, ?_⟩
  · decide +kernel
  · decide +kernel
  · decide +kernel

end Shipyard.HeadApproval
