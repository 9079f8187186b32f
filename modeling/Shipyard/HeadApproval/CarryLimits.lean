import Shipyard.HeadApproval.SelfApproval

/-!
# Which approval a carry is judged by

An approval carries from an earlier head only while it is recent, and not when it says
`carry: no`. The approval of the head is found among the verdicts that count, but its age
and its text are read from the newest approval that is written by an allowed reviewer.
Under the default rule such an approval need not count: a member who may hold a head
cannot approve one, and yet a comment of theirs extends a carry that is too old, and
unlocks one that its reviewer has refused.
-/

namespace Shipyard.HeadApproval

open Lib List Option
open PrQueue (eqIgnoreAsciiCase)

variable {host : Host} {world : World} {input : CarryInput} {earlier : String}

/-! ## The approvals of a head -/

/-- The records that approve a head, whoever wrote them. -/
def CarryInput.approvals (input : CarryInput) (head : String) : List Json :=
  input.reviews.filter (fun review => inState review "APPROVED" && onCommit review head) ++
    input.comments.filter fun comment =>
      (commentVerdict comment).any fun (verdict, markerHead) =>
        verdict = .approve && eqIgnoreAsciiCase markerHead head

/-- The approvals by allowed reviewers. -/
def CarryInput.allowedApprovals (input : CarryInput) (head : String) : List Json :=
  (input.approvals head).filter (reviewerAllowed input.policy input.author)

/-- The approvals that count as such. -/
def CarryInput.countingApprovals (input : CarryInput) (host : Host) (head : String) : List Json :=
  (input.approvals head).filter (verdictCounts host input.policy input.author .approve)

/-- The records without those whose approval would not count. -/
def CarryInput.counting (input : CarryInput) (host : Host) : CarryInput :=
  { input with
    reviews := input.reviews.filter (verdictCounts host input.policy input.author .approve)
    comments := input.comments.filter (verdictCounts host input.policy input.author .approve) }

def saysNoCarry (record : Json) : Bool :=
  (((body record).getD "").toList.splitOn '\n').any fun line => isNoCarryLine (String.ofList line)

/-- 48 hours. -/
def maxCarryAge : Time := maxCarryAgeHours * 3600 * 1000000000

theorem reviewerAllowed_of_counts {policy : ApprovalPolicy} {author : Option String}
    {record : Json} (hcounts : verdictCounts host policy author .approve record = true) :
    reviewerAllowed policy author record = true :=
  (Bool.and_eq_true_iff.mp hcounts).1

theorem mem_allowedApprovals_of_counting {record : Json}
    (hmem : record ∈ input.countingApprovals host earlier) :
    record ∈ input.allowedApprovals earlier := by
  obtain ⟨happroval, hcounts⟩ := mem_filter.mp hmem
  exact mem_filter.mpr ⟨happroval, reviewerAllowed_of_counts hcounts⟩

theorem allowedApprovals_counting :
    (input.counting host).allowedApprovals earlier = input.countingApprovals host earlier := by
  have hcommute : ∀ (p : Json → Bool) (records : List Json),
      ((records.filter (verdictCounts host input.policy input.author .approve)).filter p).filter
          (reviewerAllowed input.policy input.author) =
        (records.filter p).filter (verdictCounts host input.policy input.author .approve) := by
    intro p records
    simp only [List.filter_filter]
    refine filter_congr fun record _ => ?_
    cases hcounts : verdictCounts host input.policy input.author .approve record with
    | false => simp
    | true => simp [reviewerAllowed_of_counts hcounts]
  simp only [CarryInput.allowedApprovals, CarryInput.countingApprovals, CarryInput.approvals,
    CarryInput.counting, filter_append, hcommute]

/-! ## The newest record -/

theorem timeLe_refl (time : Option Time) : timeLe time time = true := by
  cases time <;> simp [timeLe]

theorem timeLe_trans {first second third : Option Time} (hfirst : timeLe first second = true)
    (hsecond : timeLe second third = true) : timeLe first third = true := by
  cases first with
  | none => rfl
  | some first =>
    cases second with
    | none => cases hfirst
    | some second =>
      cases third with
      | none => cases hsecond
      | some third =>
        exact decide_eq_true
          (le_trans (of_decide_eq_true hfirst) (of_decide_eq_true hsecond))

theorem timeLe_total {first second : Option Time} (hnot : timeLe first second = false) :
    timeLe second first = true := by
  cases second with
  | none => rfl
  | some second =>
    cases first with
    | none => cases hnot
    | some first => exact decide_eq_true (le_of_not_ge (of_decide_eq_false hnot))

/-- The newest of several records is one of them, and none is newer. -/
def IsNewest (host : Host) (records : List Json) (newest : Json) : Prop :=
  newest ∈ records ∧
    ∀ record ∈ records, timeLe (recordTime host record) (recordTime host newest) = true

theorem newestRecord_cons (host : Host) (record : Json) (rest : List Json) :
    ∃ newest, newestRecord host (record :: rest) = some newest ∧
      IsNewest host (record :: rest) newest := by
  have hfold : newestRecord host (record :: rest) = some (rest.foldl (fun best record =>
      if timeLe (recordTime host best) (recordTime host record) then record else best) record) := by
    refine foldl_hom some fun best record => ?_
    dsimp only
    split <;> rfl
  refine ⟨_, hfold, foldl_top (r := fun first second =>
    timeLe (recordTime host first) (recordTime host second) = true) (fun _ => timeLe_refl _)
    timeLe_trans ?_ rest record⟩
  intro best record
  split
  next hle => exact .inr ⟨rfl, hle⟩
  next hlt => exact .inl ⟨rfl, timeLe_total (Bool.not_eq_true _ ▸ hlt)⟩

theorem isNewest_of_newestRecord {records : List Json} {newest : Json}
    (hnewest : newestRecord host records = some newest) : IsNewest host records newest := by
  cases records with
  | nil => cases hnewest
  | cons record rest =>
    obtain ⟨found, hfold, hfound⟩ := newestRecord_cons host record rest
    cases some.inj (hfold.symm.trans hnewest)
    exact hfound

/-! ## When an approval carries -/

/-- The newest of the records is recent and does not refuse the carry. -/
def Permits (host : Host) (now : Time) (records : List Json) : Prop :=
  ∃ newest posted, newestRecord host records = some newest ∧
    recordTime host newest = some posted ∧ now - posted ≤ maxCarryAge ∧
    saysNoCarry newest = false

theorem carryLimits_eq_none_iff :
    carryLimits host world input earlier = none ↔
      Permits host world.now (input.allowedApprovals earlier) := by
  have hpermits {result} (hnewest : newestRecord host (input.allowedApprovals earlier) = result) :
      Permits host world.now (input.allowedApprovals earlier) ↔ ∃ newest posted,
        result = some newest ∧ recordTime host newest = some posted ∧
        world.now - posted ≤ maxCarryAge ∧ saysNoCarry newest = false := by
    rw [Permits, hnewest]
  fun_cases carryLimits host world input earlier with
  | case1 approving hnewest => simp [hpermits hnewest]
  | case2 approving record hnewest hposted => simp [hpermits hnewest, hposted]
  | case3 approving record hnewest posted hposted hlate =>
    have hlate : ¬ world.now - posted ≤ maxCarryAge := not_le.mpr hlate
    simp [hpermits hnewest, hposted, hlate, -tsub_le_iff_right]
  | case4 approving record hnewest posted hposted hrecent hsays =>
    have hsays : saysNoCarry record = true := hsays
    simp [hpermits hnewest, hposted, hsays]
  | case5 approving record hnewest posted hposted hrecent hsays =>
    have hrecent : world.now - posted ≤ maxCarryAge := not_lt.mp hrecent
    have hsays : saysNoCarry record = false := eq_false_of_ne_true hsays
    simp [hpermits hnewest, hposted, hrecent, hsays, -tsub_le_iff_right]

/-- The head an approval may carry from: no verdict names the current head, and the newest
other head that a counting verdict names is approved. -/
def CarryCandidate (host : Host) (input : CarryInput) (earlier : String)
    (approval : Approval) : Prop :=
  input.verdict host input.head = none ∧ approvedEarlier host input = some earlier ∧
    findApprovalForAuthor host input.policy input.author earlier input.reviews input.comments
      .none = some approval

theorem withCarry_eq_carried_iff {named : String} {approval : Approval} {rebase : Bool} :
    withCarry host world input (.notApproved named) =
        .approved (.carried earlier approval rebase) ↔
      CarryCandidate host input earlier approval ∧
        Permits host world.now (input.allowedApprovals earlier) ∧
        carryKind world input earlier = some rebase := by
  have hpermits : carryLimits host world input earlier = none ↔ _ := carryLimits_eq_none_iff
  rw [← hpermits, CarryCandidate, withCarry]
  clear hpermits
  cases hverdict : input.verdict host input.head with
  | some verdict => simp
  | none =>
    cases hearlier : approvedEarlier host input with
    | none => simp
    | some found =>
      cases hfind : findApprovalForAuthor host input.policy input.author found input.reviews
          input.comments .none with
      | none =>
        refine iff_of_false (by simp [hfind]) ?_
        rintro ⟨⟨-, hsame, happroval⟩, -⟩
        cases hsame
        cases hfind.symm.trans happroval
      | some foundApproval =>
        cases hlimits : carryLimits host world input found with
        | some limit =>
          refine iff_of_false (by simp [hfind, hlimits]) ?_
          rintro ⟨⟨-, hsame, -⟩, hnone, -⟩
          cases hsame
          cases hlimits.symm.trans hnone
        | none =>
          cases hkind : carryKind world input found with
          | none =>
            refine iff_of_false (by simp [hfind, hlimits, hkind]) ?_
            rintro ⟨⟨-, hsame, -⟩, -, hsome⟩
            cases hsame
            cases hkind.symm.trans hsome
          | some foundRebase =>
            simp only [hfind, hlimits, hkind, isSome_none, Bool.false_eq_true,
              if_false, HeadGate.approved.injEq, Approval.carried.injEq, true_and]
            constructor
            · rintro ⟨rfl, rfl, rfl⟩
              exact ⟨⟨rfl, hfind⟩, hlimits, hkind⟩
            · rintro ⟨⟨hsame, happroval⟩, -, hrebase⟩
              cases hsame
              exact ⟨rfl, some.inj (hfind.symm.trans happroval),
                some.inj (hkind.symm.trans hrebase)⟩

/-! ## The approvals that count -/

/-- What a carry from a head has to rest on: a recent approval that counts, of which the
newest does not refuse the carry, and no record that does not count. -/
structure RestsOnCounting (host : Host) (world : World) (input : CarryInput) (earlier : String) :
    Prop where
  recent : ∃ record ∈ input.countingApprovals host earlier, ∃ posted,
    recordTime host record = some posted ∧ world.now - posted ≤ maxCarryAge
  permitted : ∀ newest, newestRecord host (input.countingApprovals host earlier) = some newest →
    saysNoCarry newest = false
  alone : carryLimits host world (input.counting host) earlier = none

/-- Of the approvals by allowed reviewers, the newest one refuses the carry or has no readable
time, or the newest that counts is as new and does not refuse the carry. -/
def CountingDecides (host : Host) (input : CarryInput) (earlier : String) : Prop :=
  ∀ record posted, newestRecord host (input.allowedApprovals earlier) = some record →
    recordTime host record = some posted → saysNoCarry record = false →
    ∃ counting, newestRecord host (input.countingApprovals host earlier) = some counting ∧
      recordTime host counting = some posted ∧ saysNoCarry counting = false

theorem restsOnCounting_iff :
    RestsOnCounting host world input earlier ↔
      Permits host world.now (input.countingApprovals host earlier) := by
  constructor
  · rintro ⟨-, -, halone⟩
    rwa [carryLimits_eq_none_iff, allowedApprovals_counting] at halone
  · intro hpermits
    obtain ⟨newest, posted, hnewest, hposted, hrecent, hcarries⟩ := hpermits
    refine ⟨⟨newest, (isNewest_of_newestRecord hnewest).1, posted, hposted, hrecent⟩, ?_, ?_⟩
    · intro other hother
      rwa [some.inj (hother.symm.trans hnewest)]
    · rw [carryLimits_eq_none_iff, allowedApprovals_counting]
      exact ⟨newest, posted, hnewest, hposted, hrecent, hcarries⟩

/-- A world at a time, in which every carry is taken. -/
def carryingWorldAt (now : Time) : World :=
  { acceptingWorld [] [] 0 with
    mergeOnlyCarry := fun _ _ _ _ => .ok ()
    now := now }

theorem countingDecides_of_always
    (hrests : ∀ now, Permits host now (input.allowedApprovals earlier) →
      Permits host now (input.countingApprovals host earlier)) :
    CountingDecides host input earlier := by
  intro record posted hnewest hposted hcarries
  -- at the last moment at which the newest approval still carries
  have hpermits : Permits host (posted + maxCarryAge) (input.allowedApprovals earlier) :=
    ⟨record, posted, hnewest, hposted, (add_sub_cancel_left posted maxCarryAge).le, hcarries⟩
  obtain ⟨counting, counted, hcounting, hcounted, hrecent, hcountingCarries⟩ :=
    hrests _ hpermits
  have hmem := mem_allowedApprovals_of_counting (isNewest_of_newestRecord hcounting).1
  have hle := (isNewest_of_newestRecord hnewest).2 counting hmem
  rw [hcounted, hposted] at hle
  have hle : counted ≤ posted := of_decide_eq_true hle
  have hge : posted ≤ counted := by
    have hsum := sub_le_iff_le_add.mp hrecent
    rw [add_comm posted] at hsum
    exact le_of_add_le_add_left hsum
  have hsame : counted = posted := le_antisymm hle hge
  exact ⟨counting, hcounting, hsame ▸ hcounted, hcountingCarries⟩

/-- At every time and whatever the repository answers, a carry rests on approvals that count,
exactly if for the head it would come from these decide. -/
theorem carry_rests_on_counting_approvals_iff (host : Host) (input : CarryInput)
    (named : String) :
    (∀ world earlier approval rebase, withCarry host world input (.notApproved named) =
        .approved (.carried earlier approval rebase) →
      RestsOnCounting host world input earlier) ↔
    ∀ earlier approval, CarryCandidate host input earlier approval →
      CountingDecides host input earlier := by
  constructor
  · intro hrests earlier approval hcandidate
    refine countingDecides_of_always fun now hpermits => ?_
    have hcarried : withCarry host (carryingWorldAt now) input (.notApproved named) =
        .approved (.carried earlier approval false) :=
      withCarry_eq_carried_iff.mpr ⟨hcandidate, hpermits, rfl⟩
    exact restsOnCounting_iff.mp (hrests _ _ _ _ hcarried)
  · intro hdecides world earlier approval rebase hcarried
    obtain ⟨hcandidate, hpermits, -⟩ := withCarry_eq_carried_iff.mp hcarried
    obtain ⟨record, posted, hnewest, hposted, hrecent, hcarries⟩ := hpermits
    obtain ⟨counting, hcounting, hcounted, hcountingCarries⟩ :=
      hdecides earlier approval hcandidate record posted hnewest hposted hcarries
    exact restsOnCounting_iff.mpr
      ⟨counting, posted, hcounting, hcounted, hrecent, hcountingCarries⟩

/-! ## A member who may hold but not approve -/

/-- A host that reads the timestamps of three days. -/
def fourDayHost : Host :=
  { sampleHost with
    parseTimestamp := fun text =>
      [("2026-09-20T10:00:00Z", 0), ("2026-09-23T10:00:00Z", 3 * 24 * 3600 * 1000000000),
        ("2026-09-24T10:00:00Z", 4 * 24 * 3600 * 1000000000)].lookup text }

/-- The default rule, with one human reviewer. -/
def humanReviewer : ApprovalPolicy :=
  { required := true, anyReviewerButAuthor := true, humanReviewerLogins := ["alice"] }

/-- A member's approval of the earlier head. -/
def memberApproval (id : Int) (login time text : String) : Json :=
  .obj [("id", .number id), ("login", .str login), ("type", .str "User"),
    ("association", .str "MEMBER"), ("at", .str time),
    ("body", .str s!"{text}\nverdict: APPROVE head:{earlierHead}")]

def memberInput (comments : List Json) : CarryInput where
  pr := 7
  head := sampleHead
  reviews := []
  comments := comments
  policy := humanReviewer
  author := some "author"

/-- Alice's approval is four days old, and Bob's, which does not count, is new. -/
def extended : CarryInput :=
  memberInput [memberApproval 1 "alice" "2026-09-20T10:00:00Z" "",
    memberApproval 2 "bob" "2026-09-24T10:00:00Z" ""]

/-- Alice's approval says not to carry it, and Bob's, which does not count, does not. -/
def unlocked : CarryInput :=
  memberInput [memberApproval 1 "alice" "2026-09-23T10:00:00Z" "carry: no",
    memberApproval 2 "bob" "2026-09-24T10:00:00Z" ""]

/-- Just after Bob's approval. -/
def fourDaysLater : World := carryingWorldAt (4 * 24 * 3600 * 1000000000)

theorem uncounted_approvals_decide_carries :
    (∃ approval, withCarry fourDayHost fourDaysLater extended (.notApproved sampleHead) =
        .approved (.carried earlierHead approval false)) ∧
      ¬ RestsOnCounting fourDayHost fourDaysLater extended earlierHead ∧
    (∃ approval, withCarry fourDayHost fourDaysLater unlocked (.notApproved sampleHead) =
        .approved (.carried earlierHead approval false)) ∧
      ¬ RestsOnCounting fourDayHost fourDaysLater unlocked earlierHead := by
  have hcarried : ∀ input, input.verdict fourDayHost input.head = none →
      approvedEarlier fourDayHost input = some earlierHead →
      (findApprovalForAuthor fourDayHost input.policy input.author earlierHead input.reviews
        input.comments .none).isSome = true →
      carryLimits fourDayHost fourDaysLater input earlierHead = none →
      ∃ approval, withCarry fourDayHost fourDaysLater input (.notApproved sampleHead) =
        .approved (.carried earlierHead approval false) := by
    intro input hverdict hearlier hfound hlimits
    obtain ⟨approval, happroval⟩ := isSome_iff_exists.mp hfound
    exact ⟨approval, withCarry_eq_carried_iff.mpr
      ⟨⟨hverdict, hearlier, happroval⟩, carryLimits_eq_none_iff.mp hlimits, rfl⟩⟩
  refine ⟨hcarried extended ?_ ?_ ?_ ?_, fun hrests => ?_, hcarried unlocked ?_ ?_ ?_ ?_,
    fun hrests => ?_⟩
  · decide +kernel
  · decide +kernel
  · decide +kernel
  · decide +kernel
  · have hlimits : (carryLimits fourDayHost fourDaysLater (extended.counting fourDayHost)
        earlierHead).isSome = true := by decide +kernel
    rw [hrests.alone] at hlimits
    cases hlimits
  · decide +kernel
  · decide +kernel
  · decide +kernel
  · decide +kernel
  · have hlimits : (carryLimits fourDayHost fourDaysLater (unlocked.counting fourDayHost)
        earlierHead).isSome = true := by decide +kernel
    rw [hrests.alone] at hlimits
    cases hlimits

end Shipyard.HeadApproval
