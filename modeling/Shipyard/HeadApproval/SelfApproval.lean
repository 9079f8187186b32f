import Shipyard.HeadApproval.Finality

/-!
# Approvals by the arming agent

An agent cannot approve its own landing: a marker comment stamped with the arming
agent's id approves nothing. The refusal stands at the end of the plain path of
`decide_for_author` and of `evaluate_events`. Two ways do not pass it: an approval
that leaves the ejection cap, and a carry in `evaluate_excusing_with_policy`.
-/

namespace Shipyard.HeadApproval

open Lib List Option

/-- Every comment has an id of its own. -/
structure DistinctIds (comments : List Json) : Prop where
  nodup : (comments.map recordId).Nodup
  isSome : ∀ comment ∈ comments, (recordId comment).isSome = true

/-- The comment carries the stamp of the arming agent. -/
def SelfStamped (armingAgent : Option String) (comment : Json) : Prop :=
  ∃ mine, armingAgent = some mine ∧ (body comment).bind stampedAgent = some mine

/-- The comment behind an approval, below its carries. -/
def Approval.markerId (approval : Approval) : Option Nat :=
  match approval.innermost with
  | .marker _ commentId _ => commentId
  | _ => none

/-- No comment of the arming agent is behind the approval of the gate. -/
def NotSelfApproved (armingAgent : Option String) (comments : List Json) (gate : HeadGate) :
    Prop :=
  ∀ approval, gate = .approved approval → ∀ comment ∈ comments,
    approval.markerId = recordId comment → ¬ SelfStamped armingAgent comment

section

variable {host : Host} {policy : ApprovalPolicy} {author : Option String} {head : String}
variable {reviews comments : List Json} {armingAgent : Option String} {floor : Floor}

theorem DistinctIds.eq_of_recordId (hids : DistinctIds comments) {first second : Json}
    (hfirst : first ∈ comments) (hsecond : second ∈ comments)
    (hid : recordId first = recordId second) : first = second :=
  inj_on_of_nodup_map hids.nodup hfirst hsecond hid

theorem agentOfComment_eq (hids : DistinctIds comments) {comment : Json}
    (hmem : comment ∈ comments) {id : Nat} (hid : recordId comment = some id) :
    agentOfComment comments id = (body comment).bind stampedAgent := by
  obtain ⟨found, hfound⟩ : ∃ found,
      comments.find? (fun comment => recordId comment = some id) = some found :=
    isSome_iff_exists.mp (find?_isSome.mpr ⟨comment, hmem, by simpa using hid⟩)
  have hsame : found = comment := by
    refine hids.eq_of_recordId (mem_of_find?_eq_some hfound) hmem ?_
    rw [hid]
    simpa using find?_some hfound
  rw [agentOfComment, hfound, hsame]
  rfl

variable {gate : HeadGate}

theorem notSelfApproved_of_refused (hrefused : gate.allows = false) :
    NotSelfApproved armingAgent comments gate := by
  rintro approval rfl
  cases hrefused

/-- What passes the refusal is not of the arming agent. -/
theorem notSelfApproved_refuseSelfApproval (hids : DistinctIds comments) (gate : HeadGate) :
    NotSelfApproved armingAgent comments
      (refuseSelfApproval armingAgent head comments gate) := by
  rintro approval happroved comment hmem hid ⟨mine, rfl, hagent⟩
  obtain ⟨id, hsome⟩ := isSome_iff_exists.mp (hids.isSome comment hmem)
  rcases refuseSelfApproval_cases (some mine) head comments gate with hsame | ⟨_, hself⟩
  · obtain rfl := hsame.symm.trans happroved
    rw [hsome] at hid
    unfold Approval.markerId at hid
    split at hid
    next name commentId appId hmarker =>
      subst hid
      simp only [refuseSelfApproval, hmarker, agentOfComment_eq hids hmem hsome, hagent,
        if_true] at happroved
      cases happroved
    · cases hid
  · cases hself.symm.trans happroved

theorem notSelfApproved_carried_iff {earlier : String} {approval : Approval} {rebase : Bool} :
    NotSelfApproved armingAgent comments (.approved (.carried earlier approval rebase)) ↔
      NotSelfApproved armingAgent comments (.approved approval) := by
  constructor
  · rintro hcarried _ ⟨⟩
    exact hcarried (.carried earlier approval rebase) rfl
  · rintro happroval _ ⟨⟩
    exact happroval approval rfl

theorem notSelfApproved_of_no_marker {approval : Approval} (hids : DistinctIds comments)
    (hmarker : approval.markerId = none) :
    NotSelfApproved armingAgent comments (.approved approval) := by
  rintro _ ⟨⟩ comment hmem hid
  have hsome := hids.isSome comment hmem
  simp [← hid, hmarker] at hsome

theorem notSelfApproved_marker_iff (hids : DistinctIds comments) {comment : Json}
    (hmem : comment ∈ comments) {name : String} {appId : Option Nat} :
    NotSelfApproved armingAgent comments (.approved (.marker name (recordId comment) appId)) ↔
      ¬ SelfStamped armingAgent comment := by
  constructor
  · intro hgate
    exact hgate _ rfl comment hmem rfl
  · rintro hcomment _ ⟨⟩ other hother hid
    rwa [← hids.eq_of_recordId hmem hother hid]

/-- The newest approval of a head after a floor is a comment of the arming agent. -/
def OwnApproval (host : Host) (policy : ApprovalPolicy) (author : Option String) (head : String)
    (reviews comments : List Json) (floor : Floor) (armingAgent : Option String) : Prop :=
  newestReview host policy author head reviews floor = none ∧
    ∃ comment, newestComment host policy author head comments floor = some comment ∧
      SelfStamped armingAgent comment

theorem notSelfApproved_findApproval_iff (hids : DistinctIds comments) :
    (∀ approval, findApprovalForAuthor host policy author head reviews comments floor =
        some approval → NotSelfApproved armingAgent comments (.approved approval)) ↔
      ¬ OwnApproval host policy author head reviews comments floor armingAgent := by
  unfold OwnApproval
  cases hreview : newestReview host policy author head reviews floor with
  | some review =>
    obtain ⟨name, -, hfind⟩ := findApproval_of_review hreview comments
    refine iff_of_true ?_ (by simp)
    intro approval happroval
    cases hfind.symm.trans happroval
    exact notSelfApproved_of_no_marker hids rfl
  | none =>
    cases hcomment : newestComment host policy author head comments floor with
    | none =>
      have hfind := findApproval_of_none hreview hcomment
      simp [hfind]
    | some comment =>
      obtain ⟨name, -, hfind⟩ := findApproval_of_comment hreview hcomment
      have hmem := (newestComment_spec hcomment).1
      simp only [hfind, some.injEq, forall_eq', true_and, exists_eq_left']
      exact notSelfApproved_marker_iff hids hmem

variable {queue : Json} {interrupted : Bool}

/-- A capped head that the arming agent's own comment approves after the last
removal. -/
def OwnApprovalLeavesCap (host : Host) (policy : ApprovalPolicy) (author : Option String)
    (head : String) (reviews comments : List Json) (queue : Json) (interrupted : Bool)
    (armingAgent : Option String) : Prop :=
  policy.source = .comments ∧ policy.required = true ∧
    ¬ Held host policy author head reviews comments ∧
    ∃ ejections, capped queue head interrupted = some ejections ∧
      OwnApproval host policy author head reviews comments (removalFloor host ejections)
        armingAgent

theorem notSelfApproved_decideForAuthor_iff (hids : DistinctIds comments) :
    NotSelfApproved armingAgent comments (decideForAuthor host armingAgent policy head reviews
        comments queue interrupted author) ↔
      ¬ OwnApprovalLeavesCap host policy author head reviews comments queue interrupted
        armingAgent := by
  unfold OwnApprovalLeavesCap
  by_cases hsource : policy.source = .comments
  case neg =>
    have hcomments : policy.source.isComments = false := by
      cases hkind : policy.source with
      | comments => exact absurd hkind hsource
      | _ => rfl
    rw [decideForAuthor, hcomments]
    exact iff_of_true (notSelfApproved_of_refused rfl) fun h => hsource h.1
  cases hrequired : policy.required with
  | false =>
    rw [decideForAuthor, hsource, hrequired]
    exact iff_of_true (by rintro _ ⟨⟩) fun h => by simp at h
  | true =>
    by_cases hheld : Held host policy author head reviews comments
    · rw [decideForAuthor_of_held hsource hrequired hheld]
      exact iff_of_true (notSelfApproved_of_refused rfl) fun h => h.2.2.1 hheld
    rw [decideForAuthor_of_not_held hsource hrequired hheld]
    cases hcap : capped queue head interrupted with
    | none =>
      exact iff_of_true (notSelfApproved_refuseSelfApproval hids _) fun h => by simp at h
    | some ejections =>
      simp only [hsource, hheld, some.injEq, exists_eq_left', true_and,
        not_false_eq_true]
      rw [← notSelfApproved_findApproval_iff hids]
      cases findApprovalForAuthor host policy author head reviews comments
          (removalFloor host ejections) with
      | none => exact iff_of_true (notSelfApproved_of_refused rfl) fun _ h => by cases h
      | some approval => simp

/-- An earlier head that the arming agent's own comment approves, whose approval
carries to a head no verdict names. -/
def OwnApprovalCarries (host : Host) (world : World) (input : CarryInput) (queue : Json)
    (interrupted : Bool) : Prop :=
  input.policy.source = .comments ∧ input.policy.required = true ∧
    capped queue input.head interrupted = none ∧ input.verdict host input.head = none ∧
    ∃ earlier, approvedEarlier host input = some earlier ∧
      OwnApproval host input.policy input.author earlier input.reviews input.comments .none
        world.armingAgent ∧
      carryLimits host world input earlier = none ∧
      (carryKind world input earlier).isSome = true

variable {world : World} {input : CarryInput}

theorem notSelfApproved_withRollup_iff (input : CarryInput) (hids : DistinctIds input.comments)
    (gate : HeadGate) :
    NotSelfApproved armingAgent input.comments (withRollup host world input gate) ↔
      NotSelfApproved armingAgent input.comments gate := by
  cases gate with
  | notApproved named =>
    refine iff_of_true ?_ (notSelfApproved_of_refused rfl)
    rcases withRollup_cases host world input (.notApproved named) with hsame | ⟨-, members, hsame⟩
    · rw [hsame]
      exact notSelfApproved_of_refused rfl
    · rw [hsame]
      exact notSelfApproved_of_no_marker hids rfl
  | _ => exact Iff.rfl

theorem withCarry_of_verdict (hverdict : (input.verdict host input.head).isSome = true) :
    withCarry host world input gate = gate := by
  rcases withCarry_cases host world input gate with hsame | ⟨hnone, -⟩
  · exact hsame
  · simp [hverdict] at hnone

/-- A carry of the arming agent's approval is not refused. -/
theorem notSelfApproved_withCarry_iff (hids : DistinctIds input.comments)
    (hverdict : input.verdict host input.head = none) (named : String) :
    NotSelfApproved armingAgent input.comments
        (withCarry host world input (.notApproved named)) ↔
      ¬ ∃ earlier, approvedEarlier host input = some earlier ∧
        OwnApproval host input.policy input.author earlier input.reviews input.comments .none
          armingAgent ∧
        carryLimits host world input earlier = none ∧
        (carryKind world input earlier).isSome = true := by
  rw [withCarry, hverdict]
  cases hearlier : approvedEarlier host input with
  | none => exact iff_of_true (notSelfApproved_of_refused rfl) (by simp)
  | some earlier =>
    simp only [isSome_none, Bool.false_eq_true, if_false, some.injEq,
      exists_eq_left']
    have hown : (∀ approval, findApprovalForAuthor host input.policy input.author earlier
        input.reviews input.comments .none = some approval →
        NotSelfApproved armingAgent input.comments (.approved approval)) ↔
        ¬ OwnApproval host input.policy input.author earlier input.reviews input.comments .none
          armingAgent := notSelfApproved_findApproval_iff hids
    cases hfind : findApprovalForAuthor host input.policy input.author earlier input.reviews
        input.comments .none with
    | none =>
      rw [hfind] at hown
      exact iff_of_true (notSelfApproved_of_refused rfl)
        fun h => hown.mp (fun _ hnone => by cases hnone) h.1
    | some approval =>
      simp only [hfind, some.injEq, forall_eq'] at hown
      dsimp only
      cases carryLimits host world input earlier with
      | some limit => exact iff_of_true (notSelfApproved_of_refused rfl) (by simp)
      | none =>
        cases carryKind world input earlier with
        | none => exact iff_of_true (notSelfApproved_of_refused rfl) (by simp)
        | some rebase => simpa [notSelfApproved_carried_iff] using hown

/-- The gate of `evaluate_excusing_with_policy` from its records lets the arming
agent's approval pass in two ways. -/
theorem notSelfApproved_excusing_iff (input : CarryInput) (hids : DistinctIds input.comments)
    (hsource : input.policy.source = .comments) (hrequired : input.policy.required = true) :
    NotSelfApproved world.armingAgent input.comments (withCarry host world input
        (decideForAuthor host world.armingAgent input.policy input.head input.reviews
          input.comments queue interrupted input.author)) ↔
      ¬ OwnApprovalLeavesCap host input.policy input.author input.head input.reviews
          input.comments queue interrupted world.armingAgent ∧
        ¬ OwnApprovalCarries host world input queue interrupted := by
  cases hverdict : input.verdict host input.head with
  | some verdict =>
    -- A verdict names the head, so nothing carries to it.
    rw [withCarry_of_verdict (by simp [hverdict]), notSelfApproved_decideForAuthor_iff hids]
    refine (and_iff_left ?_).symm
    rintro ⟨-, -, -, hnone, -⟩
    cases hverdict.symm.trans hnone
  | none =>
    have hheld : ¬ Held host input.policy input.author input.head input.reviews
        input.comments := by
      intro hheld
      cases (latestVerdict_eq_hold_iff.mpr hheld).symm.trans hverdict
    cases hcap : capped queue input.head interrupted with
    | some ejections =>
      have hsame : withCarry host world input (decideForAuthor host world.armingAgent
          input.policy input.head input.reviews input.comments queue interrupted
          input.author) = decideForAuthor host world.armingAgent input.policy input.head
          input.reviews input.comments queue interrupted input.author := by
        rw [decideForAuthor_of_not_held hsource hrequired hheld, hcap]
        dsimp only
        cases findApprovalForAuthor host input.policy input.author input.head input.reviews
          input.comments (removalFloor host ejections) <;> rfl
      rw [hsame, notSelfApproved_decideForAuthor_iff hids]
      refine (and_iff_left ?_).symm
      rintro ⟨-, -, hnone, -⟩
      cases hcap.symm.trans hnone
    | none =>
      have hdecide := decideForAuthor_of_not_held hsource hrequired hheld world.armingAgent
        queue interrupted
      rw [hcap] at hdecide
      dsimp only at hdecide
      rw [findApproval_eq_none hverdict] at hdecide
      have hrefused : refuseSelfApproval world.armingAgent input.head input.comments
          (.notApproved input.head) = .notApproved input.head := rfl
      rw [hdecide, Option.elim, hrefused, notSelfApproved_withCarry_iff hids hverdict,
        and_iff_right]
      · simp only [OwnApprovalCarries, hsource, hrequired, hcap, hverdict, true_and]
      · rintro ⟨-, -, -, ejections, hsome, -⟩
        cases hcap.symm.trans hsome

/-- An admission is no comment. -/
theorem notSelfApproved_of_guard (hids : DistinctIds comments)
    (hgate : guardEvaluate world.requiresGuard world.parseJson (world.checkRuns head) head
      policy.source queue interrupted = .ok (some gate)) :
    NotSelfApproved armingAgent comments gate := by
  cases hallows : gate.allows with
  | false => exact notSelfApproved_of_refused hallows
  | true =>
    obtain ⟨check, appId, checkRunId, policySha, classification, rfl⟩ :=
      guardEvaluate_allows hgate hallows
    exact notSelfApproved_of_no_marker hids rfl

/-- Outside the comment mode of an open host, the admission check alone answers. -/
theorem evaluateExcusing_of_admission {pr : Nat}
    (hmode : policy.source = .comments → world.requiresGuard = true)
    (hgate : evaluateExcusingWithPolicy host world pr head policy queue interrupted = .ok gate) :
    guardEvaluate world.requiresGuard world.parseJson (world.checkRuns head) head policy.source
      queue interrupted = .ok (some gate) := by
  obtain ⟨answer, hanswer, hrest⟩ := Except.bind_eq_ok.mp hgate
  cases answer with
  | some found =>
    cases hrest
    exact hanswer
  | none =>
    obtain ⟨hsource, hopen⟩ := of_guardEvaluate_none hanswer
    cases hopen.symm.trans (hmode hsource)

theorem self_approval_is_refused_iff (hids : DistinctIds comments) :
    (∀ armingAgent author, NotSelfApproved armingAgent comments
        (decideForAuthor host armingAgent policy head reviews comments queue interrupted author) ↔
      ¬ OwnApprovalLeavesCap host policy author head reviews comments queue interrupted
        armingAgent) ∧
    ∀ world pr author, world.reviewRecords pr = .ok reviews →
      world.commentRecords pr = .ok comments → prAuthor world pr policy none = .ok author →
      ((∀ gate, evaluateExcusingWithPolicy host world pr head policy queue interrupted = .ok gate →
          NotSelfApproved world.armingAgent comments gate) ↔
        world.requiresGuard = true ∨
          ¬ OwnApprovalLeavesCap host policy author head reviews comments queue interrupted
              world.armingAgent ∧
            ¬ OwnApprovalCarries host world ⟨pr, head, reviews, comments, policy, author⟩ queue
              interrupted) := by
  refine ⟨fun armingAgent author => notSelfApproved_decideForAuthor_iff hids,
    fun world pr author hreviews hcomments hauthor => ?_⟩
  by_cases hmode : policy.source = .comments → world.requiresGuard = true
  · refine iff_of_true (fun gate hgate => notSelfApproved_of_guard hids
      (evaluateExcusing_of_admission hmode hgate)) ?_
    by_cases hsource : policy.source = .comments
    · exact .inl (hmode hsource)
    · exact .inr ⟨fun h => hsource h.1, fun h => hsource h.1⟩
  · obtain ⟨hsource, hopen⟩ := Classical.not_imp.mp hmode
    rw [Bool.not_eq_true] at hopen
    cases hrequired : policy.required with
    | false =>
      refine iff_of_true (fun gate hgate => ?_) (.inr ⟨fun h => ?_, fun h => ?_⟩)
      · rw [evaluateExcusingWithPolicy, hsource, hopen, hrequired] at hgate
        cases hgate
        rintro _ ⟨⟩
      · cases hrequired.symm.trans h.2.1
      · cases hrequired.symm.trans h.2.1
    | true =>
      rw [evaluateExcusing_of_open hsource hrequired hopen hreviews hcomments hauthor]
      simp only [Except.ok.injEq, forall_eq', hopen, Bool.false_eq_true, false_or]
      exact (notSelfApproved_withRollup_iff ⟨pr, head, reviews, comments, policy, author⟩ hids
        _).trans (notSelfApproved_excusing_iff _ hids hsource hrequired)

end

/-! ## An agent that arms what it approved -/

def earlierHead : String := "fedcba9876543210fedcba9876543210fedcba98"

/-- An approval that the agent bot-7 posted. -/
def ownApprovalOf (head : String) : Json :=
  .obj [("id", .number 1), ("login", .str "reviewer"), ("type", .str "User"),
    ("at", .str "2026-09-24T12:00:00Z"),
    ("body", .str s!"<!-- session: m3/lane agent: bot-7 -->\nverdict: APPROVE head:{head}")]

theorem distinctIds_ownApproval (head : String) : DistinctIds [ownApprovalOf head] where
  nodup := nodup_singleton _
  isSome comment hmem := by
    rw [mem_singleton.mp hmem]
    rfl

theorem own_approval_is_refused :
    DistinctIds [ownApprovalOf sampleHead] ∧
      NotSelfApproved (some "bot-7") [ownApprovalOf sampleHead]
        (decideForAuthor sampleHost (some "bot-7") listedReviewer sampleHead []
          [ownApprovalOf sampleHead] .null false (some "author")) := by
  refine ⟨distinctIds_ownApproval _,
    ((self_approval_is_refused_iff (distinctIds_ownApproval _)).1 _ _).mpr ?_⟩
  rintro ⟨-, -, -, ejections, hcapped, -⟩
  cases hcapped

/-- A removal of the head from the merge queue. -/
def headRemoval (time : String) : Json :=
  .obj [("__typename", .str "RemovedFromMergeQueueEvent"), ("createdAt", .str time),
    ("reason", .str "failed_checks"), ("beforeCommit", .obj [("oid", .str sampleHead)])]

def removedTwice : Json :=
  PrQueue.openResponse sampleHead false .null false
    [headRemoval "2026-09-24T10:00:00Z", headRemoval "2026-09-24T11:00:00Z"]

/-- A world of the agent bot-7 in which the earlier head's approval carries. -/
def carryingWorld : World :=
  { acceptingWorld [] [ownApprovalOf earlierHead] 11 with
    mergeOnlyCarry := fun _ _ _ _ => .ok ()
    guardAccept := fun _ _ _ _ => .ok none
    armingAgent := some "bot-7"
    now := 12 }

/-- The comment behind an approved gate. -/
def HeadGate.markerId : HeadGate → Option Nat
  | .approved approval => approval.markerId
  | _ => none

theorem not_notSelfApproved {armingAgent : Option String} {comments : List Json} {comment : Json}
    {gate : HeadGate} (hmem : comment ∈ comments) (hself : SelfStamped armingAgent comment)
    (hid : (recordId comment).isSome = true) (hgate : gate.markerId = recordId comment) :
    ¬ NotSelfApproved armingAgent comments gate := by
  intro hnot
  cases gate with
  | approved approval => exact hnot approval rfl comment hmem hgate hself
  | _ => simp [← hgate, HeadGate.markerId] at hid

theorem own_approvals_pass :
    ¬ NotSelfApproved (some "bot-7") [ownApprovalOf sampleHead]
        (decideForAuthor sampleHost (some "bot-7") listedReviewer sampleHead []
          [ownApprovalOf sampleHead] removedTwice false (some "author")) ∧
      ∃ gate, evaluateExcusingWithPolicy sampleHost carryingWorld 7 sampleHead listedReviewer
          .null false = .ok gate ∧
        ¬ NotSelfApproved (some "bot-7") [ownApprovalOf earlierHead] gate := by
  constructor
  · refine not_notSelfApproved mem_cons_self ⟨"bot-7", rfl, ?_⟩ rfl ?_
    · decide +kernel
    · decide +kernel
  · refine ⟨_, evaluateExcusing_of_open rfl rfl rfl rfl rfl rfl .null false,
      not_notSelfApproved mem_cons_self ⟨"bot-7", rfl, ?_⟩ rfl ?_⟩
    · decide +kernel
    · decide +kernel

end Shipyard.HeadApproval
