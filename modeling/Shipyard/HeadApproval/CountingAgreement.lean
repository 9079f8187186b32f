import Shipyard.HeadApproval.TextAgreement

/-!
# Who counts, in both gates

Where the guard's Python converts the case of logins as ASCII does, both gates
count a reviewer's verdict on the same grounds: they refuse the App's approvals for
the same reasons, in the same words.
-/

namespace Shipyard.HeadApproval

open Lib List Option
open PrQueue (PythonText IsAscii toAsciiLowercase toAsciiUppercase eqIgnoreAsciiCase)

/-! ## Refusals of the App's approvals -/

/-- The policy as the guard keeps it. -/
def guardPolicy (policy : ApprovalPolicy) : ArmGuard.Policy where
  reviewers := policy.reviewerLogins
  anyButAuthor := policy.anyReviewerButAuthor
  humans := policy.humanReviewerLogins
  signers := policy.signers
  signerIdentities := policy.signerIdentities
  stampSessions := policy.stampSessions

/-- The flat record of a review or comment. -/
structure Flat (record : Json) (api : ApiRecord) : Prop where
  login : login record = api.login
  kind : record.textAt ["type"] = api.kind
  association : record.textAt ["association"] = api.association
  body : body record = api.body

theorem asStr?_jsonText (text : Option String) : (jsonText text).asStr? = text := by
  cases text <;> rfl

theorem flat_commentRecord (api : ApiRecord) : Flat (commentRecord api) api where
  login := asStr?_jsonText api.login
  kind := asStr?_jsonText api.kind
  association := asStr?_jsonText api.association
  body := asStr?_jsonText api.body

theorem flat_reviewRecord (api : ApiRecord) : Flat (reviewRecord api) api where
  login := asStr?_jsonText api.login
  kind := asStr?_jsonText api.kind
  association := asStr?_jsonText api.association
  body := asStr?_jsonText api.body

section Refusals

variable {python : PythonText} {host : Host} {policy : ApprovalPolicy}

theorem isAscii_toAsciiLowercase {text : String} (hascii : IsAscii text) :
    IsAscii (toAsciiLowercase text) := by
  have hall : ∀ value < 128, (Char.ofNat value).toLower.val < 128 := by decide +kernel
  intro char hchar
  rw [toAsciiLowercase, String.toList_ofList, List.mem_map] at hchar
  obtain ⟨other, hother, rfl⟩ := hchar
  have hvalue := UInt32.lt_iff_toNat_lt.mp (hascii other hother)
  rw [← Char.ofNat_toNat other]
  exact hall other.toNat hvalue

theorem sessionRefusal_eq {body : String} (patterns : List String) :
    ArmGuard.sessionRefusal python patterns (stampedSession body) =
      (stampSessionRefusal (stampedSession body) patterns).map Prod.snd := by
  unfold ArmGuard.sessionRefusal stampSessionRefusal
  cases hsession : stampedSession body with
  | none => rfl
  | some session =>
    obtain ⟨captures, hstamp, hcapture⟩ := bind_eq_some_iff.mp hsession
    have hascii := isAscii_of_printable (printable_of_lastStamp hstamp hcapture).2
    have hglobs : (patterns.any fun pattern =>
        ArmGuard.globMatch pattern (python.lower session)) =
        patterns.any fun pattern => globMatch pattern (toAsciiLowercase session) := by
      rw [python.lower_ascii session hascii]
      simp only [globMatch_eq _ (isAscii_toAsciiLowercase hascii)]
    dsimp only
    rw [hglobs]
    split <;> rfl

theorem signerRefusal_eq (signers : List String) (body : String) :
    ArmGuard.signerRefusal python (guardPolicy policy) signers body =
      (signerRefusal policy signers body).map Prod.snd := by
  unfold ArmGuard.signerRefusal signerRefusal
  rw [signedNames_eq, stampedIdentity_eq,
    show (guardPolicy policy).signerIdentities = policy.signerIdentities from rfl]
  dsimp only
  by_cases hsigned : (signedNames body).isEmpty = true
  · simp only [if_pos hsigned, map_some]
  by_cases hmatching : ((signedNames body).filter (· ∈ signers)).isEmpty = true
  · simp only [if_neg hsigned, if_pos hmatching, map_some]
  by_cases hidentities : policy.signerIdentities.isEmpty = true
  · simp only [if_neg hsigned, if_neg hmatching, if_pos hidentities, map_none]
  simp only [if_neg hsigned, if_neg hmatching, if_neg hidentities]
  cases stampedIdentity body with
  | none => rfl
  | some identity =>
    dsimp only
    generalize (signedNames body).filter (· ∈ signers) = matching
    -- Rust asks whether a name is bound, Python for the first one that is.
    cases hbound : matching.find? fun name =>
        (policy.signerIdentities.lookup name).any (identity ∈ ·) with
    | some name =>
      have hname := find?_some hbound
      have hany : (matching.any fun name =>
          (policy.signerIdentities.lookup name).any (identity ∈ ·)) = true :=
        List.any_eq_true.mpr ⟨name, mem_of_find?_eq_some hbound, hname⟩
      rw [if_pos hany, map_none]
    | none =>
      have hany : ¬ (matching.any fun name =>
          (policy.signerIdentities.lookup name).any (identity ∈ ·)) = true := by
        simpa using find?_eq_none.mp hbound
      rw [if_neg hany]
      dsimp only
      split <;> rfl

theorem appApprovalRefusal_eq {record : Json} (hbase : policy.signerSource = .base)
    (hrule : policy.defaultRule = true)
    (hplain : ∀ text, body record = some text → PlainText text) :
    ArmGuard.appApprovalRefusal python (guardPolicy policy) (body record) =
      appApprovalRefusal host policy record := by
  have htext : PlainText ((body record).getD "") := by
    cases hbody : body record with
    | none => intro char hchar; cases hchar
    | some text => exact hplain text hbody
  have hrequired : (guardPolicy policy).signersRequired = true := hrule
  unfold ArmGuard.appApprovalRefusal appApprovalRefusal appApprovalRefusalReason
  dsimp only
  rw [noncanonicalStamp_eq htext]
  by_cases hstamp : noncanonicalStamp ((body record).getD "") = true
  · simp only [if_pos hstamp, map_some]
  by_cases hunattributed : stampedSession ((body record).getD "") = some "unattributed"
  · simp only [if_neg hstamp, if_pos hunattributed, map_some]
  by_cases hnone : stampedSession ((body record).getD "") = none
  · simp only [if_neg hstamp, if_neg hunattributed, if_pos hnone, if_pos (And.intro hbase hnone),
      map_some]
  have hhost : ¬ policy.signerSource = .host := by simp [hbase]
  simp only [if_neg hstamp, if_neg hunattributed, hnone, and_false, if_false, if_neg hhost,
    if_pos hbase]
  have hsessions : ((guardPolicy policy).stampSessions.bind fun patterns =>
      ArmGuard.sessionRefusal python patterns (stampedSession ((body record).getD ""))) =
      (policy.stampSessions.bind
        (stampSessionRefusal (stampedSession ((body record).getD "")))).map Prod.snd := by
    cases hpatterns : policy.stampSessions with
    | none => simp [guardPolicy, hpatterns]
    | some patterns => simp [guardPolicy, hpatterns, sessionRefusal_eq]
  rw [hsessions]
  cases policy.stampSessions.bind
      (stampSessionRefusal (stampedSession ((body record).getD ""))) with
  | some refusal => rfl
  | none =>
    rw [map_none, show (guardPolicy policy).signers = policy.signers from rfl]
    dsimp only
    cases policy.signers with
    | none => exact if_pos hrequired
    | some signers => exact signerRefusal_eq signers _

end Refusals

/-! ## Counting verdicts -/

/-- Python converts the case of a login as ASCII does. -/
def SameLogin (python : PythonText) (login : String) : Prop :=
  python.lower (plainLogin login) = normalizedLogin login

section Counting

variable {python : PythonText} {host : Host} {policy : ApprovalPolicy} {author : Option String}

variable {name : String}

theorem author_all_eq (hauthor : ∀ login, author = some login → SameLogin python login) :
    (author.all fun author => ArmGuard.normalizedLogin python author != name) =
      author.all fun author => normalizedLogin author != name := by
  cases author with
  | none => simp only [all_none]
  | some login =>
    have hsame : ArmGuard.normalizedLogin python login = normalizedLogin login :=
      hauthor login rfl
    simp only [all_some, hsame]

theorem reviewers_any_eq (hreviewers : ∀ login ∈ policy.reviewerLogins, SameLogin python login) :
    (policy.reviewerLogins.any fun login => ArmGuard.normalizedLogin python login == name) =
      policy.reviewerLogins.any fun login => normalizedLogin login == name := by
  rw [Bool.eq_iff_iff, List.any_eq_true, List.any_eq_true]
  refine exists_congr fun login => and_congr_right fun hlogin => ?_
  have hsame : ArmGuard.normalizedLogin python login = normalizedLogin login :=
    hreviewers login hlogin
  rw [hsame]

/-- The App reviews its own pull requests, and nobody else does. -/
theorem author_fleet_eq (author : Option String) (name : String) :
    (author.all fun author => normalizedLogin author != normalizedLogin name ||
        isFleetAuthor author) =
      (author.all (fun author => normalizedLogin author != normalizedLogin name) ||
        isFleetAuthor name) := by
  cases author with
  | none => simp only [all_none, Bool.true_or]
  | some login =>
    simp only [all_some, isFleetAuthor]
    by_cases hsame : normalizedLogin login = normalizedLogin name
    · rw [hsame]
    · rw [bne_iff_ne.mpr hsame, Bool.true_or, Bool.true_or]

theorem reviewerCounts_eq (host : Host) {record : Json} {api : ApiRecord} (verdict : Verdict)
    (hflat : Flat record api) (hname : api.login = some name) (hbase : policy.signerSource = .base)
    (hplain : ∀ text, api.body = some text → PlainText text) (hlogin : SameLogin python name)
    (hauthor : ∀ login, author = some login → SameLogin python login)
    (hreviewers : ∀ login ∈ policy.reviewerLogins, SameLogin python login) :
    ArmGuard.reviewerCounts python (guardPolicy policy) author verdict api name =
      verdictCounts host policy author verdict record := by
  have hnormal : ArmGuard.normalizedLogin python name = normalizedLogin name := hlogin
  have hfleet : (normalizedLogin name = ArmGuard.fleetAuthor) ↔ isFleetAuthor name = true :=
    decide_eq_true_iff.symm
  have hrefusal (hrule : policy.defaultRule = true) :
      ArmGuard.appApprovalRefusal python (guardPolicy policy) api.body =
        appApprovalRefusal host policy record := by
    rw [← hflat.body] at hplain ⊢
    exact appApprovalRefusal_eq hbase hrule hplain
  have hpolicy : ((guardPolicy policy).anyButAuthor && (guardPolicy policy).reviewers.isEmpty) =
      policy.defaultRule := rfl
  unfold ArmGuard.reviewerCounts verdictCounts reviewerAllowed approverAllowed trustedReviewer
  rw [hflat.login, hname, hflat.kind, hflat.association]
  dsimp only
  rw [hnormal, hpolicy, author_all_eq hauthor,
    show (guardPolicy policy).reviewers = policy.reviewerLogins from rfl,
    reviewers_any_eq hreviewers, author_fleet_eq]
  generalize (api.kind != some "Bot") = notBot
  have hhumans : (guardPolicy policy).humans = policy.humanReviewerLogins := rfl
  cases hname : isFleetAuthor name with
  | true =>
    have hreviewer := hfleet.mpr hname
    cases notBot with
    | true => simp [hreviewer]
    | false =>
      by_cases hrule : policy.defaultRule = true
      · cases verdict <;> simp [hrule, hrefusal hrule, hname, hreviewer]
      · simp [hrule, hreviewer]
  | false =>
    have hreviewer : ¬ normalizedLogin name = ArmGuard.fleetAuthor := by simp [hfleet, hname]
    by_cases hrule : policy.defaultRule = true
    · cases verdict with
      | hold => simp [hrule, hname, hreviewer]
      | approve =>
        have hlisted : (policy.humanReviewerLogins.any fun human =>
            human == normalizedLogin name) =
            decide (normalizedLogin name ∈ policy.humanReviewerLogins) := by
          rw [Bool.eq_iff_iff]
          simp
        by_cases hmember : normalizedLogin name ∈ policy.humanReviewerLogins
        · simp [hrule, hname, hreviewer, hhumans, hlisted, hmember]
        · generalize api.association.any (· ∈ trustedAssociations) = trusted
          cases trusted <;> simp [hrule, hname, hreviewer, hhumans, hlisted, hmember]
    · simp [hrule, hreviewer]

end Counting

end Shipyard.HeadApproval
