import Mathlib.Data.List.Sort
import Shipyard.Governance.Rules
import Shipyard.Lib.Json

/-!
# Applying branch protection

Drift between the declared rules and what GitHub reports, the plan that removes it, and
the payload it sends. The payload leaves out a section that other fields make empty, and
what GitHub reports of it is then the section's defaults: the theorem says for which
rules a second plan has nothing left to do.
-/

namespace Shipyard.Governance

open Lib List Option
open Config (Table)

/-! ## Drift -/

/-- `GOVERNANCE_FIELDS` -/
inductive GovernanceField where
  | requirePr
  | requireStatusChecks
  | requireStrictStatus
  | requireReviewCount
  | enforceAdmins
  | dismissStaleReviews
  | requireCodeOwnerReviews
  | allowForcePush
  | allowDeletions
  | requireLinearHistory
  | requiredConversationResolution
deriving DecidableEq, Repr

namespace GovernanceField

def all : List GovernanceField :=
  [requirePr, requireStatusChecks, requireStrictStatus, requireReviewCount, enforceAdmins,
    dismissStaleReviews, requireCodeOwnerReviews, allowForcePush, allowDeletions,
    requireLinearHistory, requiredConversationResolution]

theorem mem_all (field : GovernanceField) : field ∈ all := by
  cases field <;> decide

end GovernanceField

/-- A field's value as JSON. -/
inductive RuleValue where
  | null
  | bool (value : Bool)
  | number (value : UInt64)
  | strings (items : List String)
deriving DecidableEq, Repr

/-- A field's value. The order of the checks does not matter. -/
def normalizedRuleValue (rules : BranchProtectionRules) : GovernanceField → RuleValue
  | .requirePr => .bool rules.requirePr
  | .requireStatusChecks => .strings (rules.requireStatusChecks.insertionSort (· ≤ ·))
  | .requireStrictStatus => .bool rules.requireStrictStatus
  | .requireReviewCount => .number rules.requireReviewCount
  | .enforceAdmins => .bool rules.enforceAdmins
  | .dismissStaleReviews => .bool rules.dismissStaleReviews
  | .requireCodeOwnerReviews => .bool rules.requireCodeOwnerReviews
  | .allowForcePush => .bool rules.allowForcePush
  | .allowDeletions => .bool rules.allowDeletions
  | .requireLinearHistory => .bool rules.requireLinearHistory
  | .requiredConversationResolution => .bool rules.requiredConversationResolution

inductive DriftStatus where
  | aligned
  | deviated
  | drifted
  | both
  | unprotected
deriving DecidableEq, Repr

def DriftStatus.needsApply : DriftStatus → Bool
  | .drifted | .both | .unprotected => true
  | .aligned | .deviated => false

structure DriftEntry where
  fieldName : GovernanceField
  profileValue : RuleValue
  declaredValue : RuleValue
  liveValue : RuleValue
  status : DriftStatus
deriving DecidableEq, Repr

structure DriftReport where
  branch : String
  entries : List DriftEntry
  liveUnprotected : Bool
deriving DecidableEq, Repr

def DriftReport.hasDrift (report : DriftReport) : Bool :=
  report.liveUnprotected || report.entries.any fun entry => entry.status.needsApply

def driftStatus (deviated drifted : Bool) : DriftStatus :=
  match deviated, drifted with
  | true, true => .both
  | true, false => .deviated
  | false, true => .drifted
  | false, false => .aligned

def driftEntry (profile declared : BranchProtectionRules) (live : Option BranchProtectionRules)
    (field : GovernanceField) : DriftEntry :=
  let profileValue := normalizedRuleValue profile field
  let declaredValue := normalizedRuleValue declared field
  match live with
  | some live =>
    let liveValue := normalizedRuleValue live field
    { fieldName := field
      profileValue
      declaredValue
      liveValue
      status := driftStatus (declaredValue ≠ profileValue) (liveValue ≠ declaredValue) }
  | none =>
    { fieldName := field
      profileValue
      declaredValue
      liveValue := .null
      status := .unprotected }

def computeDrift (branch : String) (profile declared : BranchProtectionRules)
    (live : Option BranchProtectionRules) : DriftReport where
  branch := branch
  entries := GovernanceField.all.map (driftEntry profile declared live)
  liveUnprotected := live.isNone

/-! ## Plans -/

inductive ApplyAction where
  | noop
  | update
  | create
deriving DecidableEq, Repr

structure ApplyPlan where
  repo : String
  branch : String
  action : ApplyAction
  declaredRules : BranchProtectionRules
  driftReport : DriftReport
  manualFollowups : List String
deriving DecidableEq, Repr

def buildApplyPlan (repo branch : String) (declared : BranchProtectionRules)
    (report : DriftReport) : ApplyPlan where
  repo := repo
  branch := branch
  action :=
    if report.liveUnprotected then .create else if report.hasDrift then .update else .noop
  declaredRules := declared
  driftReport := report
  manualFollowups :=
    ["Immutable releases: verify the 'Immutable releases' checkbox is enabled at " ++
      s!"https://github.com/{repo}/settings. Shipyard cannot read this setting via API on " ++
      "personal repos."]

/-! ## Payloads -/

def enabled (value : Option Json) : Bool :=
  (value.bind fun value => ((value.get? "enabled").bind Json.asBool?).or value.asBool?).getD false

/-- GitHub's answer as rules. -/
def rulesFromApiPayload (payload : Json) : BranchProtectionRules :=
  let checks := (payload.get? "required_status_checks").getD .null
  let reviews := (payload.get? "required_pull_request_reviews").getD .null
  let flag := fun (section_ : Json) name => ((section_.get? name).bind Json.asBool?).getD false
  { requirePr :=
      (payload.get? "required_pull_request_reviews").any fun value => !value.isNull
    requireStatusChecks :=
      (((checks.get? "contexts").bind Json.asArr?).getD []).filterMap Json.asStr?
    requireStrictStatus := flag checks "strict"
    requireReviewCount := UInt64.ofNat
      (((reviews.get? "required_approving_review_count").bind Json.asU64?).getD 0)
    enforceAdmins := enabled (payload.get? "enforce_admins")
    dismissStaleReviews := flag reviews "dismiss_stale_reviews"
    requireCodeOwnerReviews := flag reviews "require_code_owner_reviews"
    allowForcePush := enabled (payload.get? "allow_force_pushes")
    allowDeletions := enabled (payload.get? "allow_deletions")
    requireLinearHistory := enabled (payload.get? "required_linear_history")
    requiredConversationResolution :=
      enabled (payload.get? "required_conversation_resolution") }

def statusChecksPayload (rules : BranchProtectionRules) : Json :=
  if rules.requireStatusChecks.isEmpty then .null
  else .obj [("strict", .bool rules.requireStrictStatus),
    ("contexts", .arr (rules.requireStatusChecks.map .str))]

def reviewsPayload (rules : BranchProtectionRules) : Json :=
  if rules.requirePr || 0 < rules.requireReviewCount then
    .obj [("required_approving_review_count", .number rules.requireReviewCount.toNat),
      ("dismiss_stale_reviews", .bool rules.dismissStaleReviews),
      ("require_code_owner_reviews", .bool rules.requireCodeOwnerReviews)]
  else .null

/-- The payload as it is sent: a section that is left out is null. -/
def apiPayloadFromRules (rules : BranchProtectionRules) : Json :=
  .obj [("required_status_checks", statusChecksPayload rules),
    ("enforce_admins", .bool rules.enforceAdmins),
    ("required_pull_request_reviews", reviewsPayload rules),
    ("restrictions", .null),
    ("required_linear_history", .bool rules.requireLinearHistory),
    ("allow_force_pushes", .bool rules.allowForcePush),
    ("allow_deletions", .bool rules.allowDeletions),
    ("required_conversation_resolution", .bool rules.requiredConversationResolution)]

/-! ## Runs -/

/-- The plan for a branch whose protection is what GitHub stores. A branch without
protection stores nothing. -/
def planFor (repo : String) (data : Table) (branch : String) (declared : BranchProtectionRules)
    (live : Option Json) : ApplyPlan :=
  buildApplyPlan repo branch declared
    (computeDrift branch ((resolveProfileRules data).toOption.getD {}) declared
      (live.map rulesFromApiPayload))

structure ApplyResult where
  plan : ApplyPlan
  executed : Bool
  errorMessage : Option String
deriving DecidableEq, Repr

/-- A plan is executed: its result, and what GitHub stores after it. A put that is
answered well stores the payload as it was sent. -/
def executeApplyPlan (plan : ApplyPlan) (dryRun : Bool) (answer : Except String Unit)
    (live : Option Json) : ApplyResult × Option Json :=
  if plan.action = .noop || dryRun then
    ({ plan, executed := false, errorMessage := none }, live)
  else
    match answer with
    | .ok () =>
      ({ plan, executed := true, errorMessage := none },
        some (apiPayloadFromRules plan.declaredRules))
    | .error error => ({ plan, executed := false, errorMessage := some error }, live)

/-- What GitHub stores once the rules were applied. -/
def applied (repo : String) (data : Table) (branch : String) (declared : BranchProtectionRules)
    (live : Option Json) : Option Json :=
  (executeApplyPlan (planFor repo data branch declared live) false (.ok ()) live).2

/-! ## What drifts -/

/-- Two rules agree on every field. -/
def Agree (live declared : BranchProtectionRules) : Prop :=
  ∀ field, normalizedRuleValue live field = normalizedRuleValue declared field

/-- A branch is protected by rules that agree with the declared ones. -/
def ReadsAs (live : Option Json) (declared : BranchProtectionRules) : Prop :=
  ∃ payload, live = some payload ∧ Agree (rulesFromApiPayload payload) declared

theorem driftStatus_needsApply (deviated drifted : Bool) :
    (driftStatus deviated drifted).needsApply = drifted := by
  cases deviated <;> cases drifted <;> rfl

variable {live : Option Json}

theorem computeDrift_hasDrift {branch : String} {profile declared : BranchProtectionRules} :
    (computeDrift branch profile declared (live.map rulesFromApiPayload)).hasDrift = false ↔
      ReadsAs live declared := by
  unfold ReadsAs
  cases live with
  | none => simp [DriftReport.hasDrift, computeDrift]
  | some payload =>
    simp only [DriftReport.hasDrift, computeDrift, map_some, isNone_some,
      Bool.false_or, List.any_eq_false, List.mem_map, forall_exists_index, and_imp,
      forall_apply_eq_imp_iff₂, driftEntry, driftStatus_needsApply, decide_eq_true_eq, not_not,
      some.injEq, exists_eq_left']
    exact ⟨fun hall field => hall field field.mem_all, fun hall field _ => hall field⟩

variable {declared : BranchProtectionRules} {repo branch : String}

theorem buildApplyPlan_noop {report : DriftReport} :
    (buildApplyPlan repo branch declared report).action = .noop ↔ report.hasDrift = false := by
  unfold buildApplyPlan DriftReport.hasDrift
  cases report.liveUnprotected with
  | true => simp
  | false =>
    cases report.entries.any fun entry => entry.status.needsApply <;> simp

variable {data : Table}

theorem planFor_noop :
    (planFor repo data branch declared live).action = .noop ↔ ReadsAs live declared :=
  buildApplyPlan_noop.trans computeDrift_hasDrift

theorem applied_of_reads (hreads : ReadsAs live declared) :
    applied repo data branch declared live = live := by
  have hnoop : (planFor repo data branch declared live).action = .noop := planFor_noop.mpr hreads
  simp [applied, executeApplyPlan, hnoop]

theorem applied_of_not_reads (hreads : ¬ ReadsAs live declared) :
    applied repo data branch declared live = some (apiPayloadFromRules declared) := by
  have hnoop : (planFor repo data branch declared live).action ≠ .noop :=
    fun hnoop => hreads (planFor_noop.mp hnoop)
  simp only [applied, executeApplyPlan, hnoop, decide_false, Bool.or_self, Bool.false_eq_true,
    if_false]
  rfl

/-! ## What is read back -/

/-- Reviews are asked for. -/
def BranchProtectionRules.asksReviews (rules : BranchProtectionRules) : Bool :=
  rules.requirePr || 0 < rules.requireReviewCount

/-- The rules as they are read back from their payload. -/
def BranchProtectionRules.sent (rules : BranchProtectionRules) : BranchProtectionRules :=
  { rules with
    requirePr := rules.asksReviews
    requireStrictStatus := rules.requireStrictStatus && !rules.requireStatusChecks.isEmpty
    dismissStaleReviews := rules.dismissStaleReviews && rules.asksReviews
    requireCodeOwnerReviews := rules.requireCodeOwnerReviews && rules.asksReviews }

/-- Strict checks are declared with checks, and what is asked of reviews with reviews. -/
def Expressible (rules : BranchProtectionRules) : Prop :=
  (rules.requireStrictStatus = true → rules.requireStatusChecks ≠ []) ∧
    (rules.requirePr = true ∨ rules.requireReviewCount = 0 ∧
      rules.dismissStaleReviews = false ∧ rules.requireCodeOwnerReviews = false)

theorem asU64?_toNat (count : UInt64) :
    Json.asU64? (.number count.toNat) = some count.toNat := by
  have hbound := count.toNat_lt
  simp only [Json.asU64?, Int.toNat_natCast]
  rw [if_pos ⟨by omega, by exact_mod_cast hbound⟩]

theorem filterMap_asStr?_map_str (names : List String) :
    (names.map Json.str).filterMap Json.asStr? = names := by
  rw [filterMap_map]
  exact filterMap_some

variable {rules : BranchProtectionRules}

/-- A payload without reviews has no count to lose. -/
theorem count_of_not_asksReviews (hasks : rules.asksReviews = false) :
    rules.requireReviewCount = 0 := by
  have hpos := (Bool.or_eq_false_iff.mp hasks).2
  rw [decide_eq_false_iff_not, UInt64.not_lt] at hpos
  exact UInt64.le_zero_iff.mp hpos

theorem rulesFromApiPayload_apiPayloadFromRules (rules : BranchProtectionRules) :
    rulesFromApiPayload (apiPayloadFromRules rules) = rules.sent := by
  have hchecks : (apiPayloadFromRules rules).get? "required_status_checks" =
      some (statusChecksPayload rules) := rfl
  have hreviews : (apiPayloadFromRules rules).get? "required_pull_request_reviews" =
      some (reviewsPayload rules) := rfl
  have hcontexts : (((statusChecksPayload rules).get? "contexts").bind Json.asArr?).getD [] =
      rules.requireStatusChecks.map .str := by
    unfold statusChecksPayload
    cases rules.requireStatusChecks <;> rfl
  have hstrict : (((statusChecksPayload rules).get? "strict").bind Json.asBool?).getD false =
      (rules.requireStrictStatus && !rules.requireStatusChecks.isEmpty) := by
    unfold statusChecksPayload
    cases rules.requireStatusChecks with
    | nil => rw [isEmpty_nil, Bool.not_true, Bool.and_false]; rfl
    | cons check rest => rw [isEmpty_cons, Bool.not_false, Bool.and_true]; rfl
  have hpayload : reviewsPayload rules = if rules.asksReviews then
      .obj [("required_approving_review_count", .number rules.requireReviewCount.toNat),
        ("dismiss_stale_reviews", .bool rules.dismissStaleReviews),
        ("require_code_owner_reviews", .bool rules.requireCodeOwnerReviews)]
      else .null := rfl
  unfold rulesFromApiPayload
  simp only [hchecks, hreviews, getD_some, any_some, hcontexts, hstrict,
    filterMap_asStr?_map_str]
  cases hasks : rules.asksReviews with
  | true =>
    have hcount : (Json.obj
        [("required_approving_review_count", .number rules.requireReviewCount.toNat),
          ("dismiss_stale_reviews", .bool rules.dismissStaleReviews),
          ("require_code_owner_reviews", .bool rules.requireCodeOwnerReviews)]).get?
        "required_approving_review_count" = some (.number rules.requireReviewCount.toNat) := rfl
    rw [hpayload, hasks, if_pos rfl, hcount, bind_some, asU64?_toNat, getD_some,
      UInt64.ofNat_toNat]
    simp only [BranchProtectionRules.sent, hasks, Bool.and_true]
    rfl
  | false =>
    rw [hpayload, hasks, if_neg Bool.false_ne_true]
    simp only [BranchProtectionRules.sent, hasks, Bool.and_false, count_of_not_asksReviews hasks]
    rfl

/-- Of the eleven fields, four can be read back otherwise than they were declared. -/
theorem agree_sent :
    Agree rules.sent rules ↔ rules.asksReviews = rules.requirePr ∧
      (rules.requireStrictStatus && !rules.requireStatusChecks.isEmpty) =
        rules.requireStrictStatus ∧
      (rules.dismissStaleReviews && rules.asksReviews) = rules.dismissStaleReviews ∧
      (rules.requireCodeOwnerReviews && rules.asksReviews) = rules.requireCodeOwnerReviews := by
  constructor
  · intro hagree
    exact ⟨RuleValue.bool.inj (hagree .requirePr), RuleValue.bool.inj (hagree .requireStrictStatus),
      RuleValue.bool.inj (hagree .dismissStaleReviews),
      RuleValue.bool.inj (hagree .requireCodeOwnerReviews)⟩
  · rintro ⟨hpr, hstrict, hdismiss, howner⟩ field
    cases field with
    | requirePr => exact congrArg RuleValue.bool hpr
    | requireStrictStatus => exact congrArg RuleValue.bool hstrict
    | dismissStaleReviews => exact congrArg RuleValue.bool hdismiss
    | requireCodeOwnerReviews => exact congrArg RuleValue.bool howner
    | _ => rfl

theorem agree_sent_iff (rules : BranchProtectionRules) :
    Agree rules.sent rules ↔ Expressible rules := by
  have hchecks : (rules.requireStrictStatus && !rules.requireStatusChecks.isEmpty) =
      rules.requireStrictStatus ↔
        (rules.requireStrictStatus = true → rules.requireStatusChecks ≠ []) := by
    cases rules.requireStrictStatus <;> simp
  rw [agree_sent, Expressible, hchecks]
  constructor
  · rintro ⟨hasks, hstrict, hdismiss, howner⟩
    refine ⟨hstrict, ?_⟩
    cases hpr : rules.requirePr with
    | true => exact .inl rfl
    | false =>
      rw [hpr] at hasks
      rw [hasks, Bool.and_false] at hdismiss howner
      exact .inr ⟨count_of_not_asksReviews hasks, hdismiss.symm, howner.symm⟩
  · rintro ⟨hstrict, hreviews⟩
    cases hpr : rules.requirePr with
    | true =>
      rw [BranchProtectionRules.asksReviews, hpr, Bool.true_or, Bool.and_true, Bool.and_true]
      exact ⟨rfl, hstrict, rfl, rfl⟩
    | false =>
      rw [hpr] at hreviews
      obtain ⟨hcount, hdismiss, howner⟩ := hreviews.resolve_left Bool.false_ne_true
      rw [BranchProtectionRules.asksReviews, hpr, hcount, hdismiss, howner]
      exact ⟨rfl, hstrict, rfl, rfl⟩

/-! ## Applying twice -/

/-- Once a branch's rules were applied, reading them back reports no drift and a second
plan has nothing to do, exactly if the branch was protected so before or the payload can
express the rules. -/
theorem apply_is_idempotent_iff (repo : String) (data : Table) (branch : String)
    (live : Option Json) {declared : BranchProtectionRules}
    (_hresolves : resolveBranchRules data branch = .ok declared) :
    ((computeDrift branch ((resolveProfileRules data).toOption.getD {}) declared
        ((applied repo data branch declared live).map rulesFromApiPayload)).hasDrift = false ∧
      (planFor repo data branch declared (applied repo data branch declared live)).action =
        .noop) ↔
      ReadsAs live declared ∨ Expressible declared := by
  rw [computeDrift_hasDrift, planFor_noop, and_self]
  by_cases hreads : ReadsAs live declared
  · rw [applied_of_reads hreads]
    exact iff_of_true hreads (.inl hreads)
  · rw [applied_of_not_reads hreads, or_iff_right hreads, ← agree_sent_iff,
      ← rulesFromApiPayload_apiPayloadFromRules]
    constructor
    · rintro ⟨payload, hpayload, hagree⟩
      rwa [some.inj hpayload]
    · intro hagree
      exact ⟨_, rfl, hagree⟩

/-- A configuration that names a profile and nothing else. -/
def profileOnly (name : String) : Table where
  entries := [("project", .table [("profile", .leaf (.string name))])]
  ordered := rfl

/-- The "solo" profile on a branch without protection. -/
theorem apply_is_idempotent_for_solo :
    resolveBranchRules (profileOnly "solo") "main" = .ok { requirePr := true } ∧
    (planFor "o/r" (profileOnly "solo") "main" { requirePr := true }
      (applied "o/r" (profileOnly "solo") "main" { requirePr := true } none)).action = .noop :=
  have hresolves : resolveBranchRules (profileOnly "solo") "main" = .ok { requirePr := true } := by
    decide +kernel
  ⟨hresolves, ((apply_is_idempotent_iff "o/r" (profileOnly "solo") "main" none hresolves).mpr
    (.inr ⟨Bool.noConfusion, .inl rfl⟩)).2⟩

/-- The "multi" profile with no checks is never read back as declared: the strict flag is
sent with the checks only, so every plan updates the branch again. -/
theorem apply_is_not_idempotent_for_multi :
    ∃ declared, resolveBranchRules (profileOnly "multi") "main" = .ok declared ∧
      (planFor "o/r" (profileOnly "multi") "main" declared none).action = .create ∧
      (planFor "o/r" (profileOnly "multi") "main" declared
        (applied "o/r" (profileOnly "multi") "main" declared none)).action = .update := by
  refine ⟨_, rfl, ?_, ?_⟩
  · decide +kernel
  · decide +kernel

end Shipyard.Governance
