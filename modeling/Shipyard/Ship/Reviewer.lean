import Shipyard.Job
import Shipyard.Lib.Machine

/-!
# Reviewer claims of a ship state

A reviewer claims the exact head of a ship and may publish a verdict while the
claim is current. The record keeps a claim epoch that every claim, revocation,
fence and replacement advances, so that a verdict for an earlier epoch comes too
late. Epochs are `u64` values whose additions are checked.
-/

namespace Shipyard.Ship

open Lib Option

def shipStateSchemaVersion : Nat := 2

def u64Max : Nat := 2 ^ 64 - 1

/-- `u64::checked_add(1)`. -/
def checkedSucc (n : Nat) : Option Nat := if n < u64Max then some (n + 1) else none

theorem checkedSucc_eq_some {n next : Nat} (hsucc : checkedSucc n = some next) : next = n + 1 := by
  unfold checkedSucc at hsucc
  split at hsucc
  · exact (some.inj hsucc).symm
  · cases hsucc

structure ReviewerClaim where
  headSha : String
  epoch : Nat
  reviewer : String
  claimedAt : Time
  deadlineAt : Time
deriving DecidableEq, Repr

/-- The fields of a ship state that the reviewer operations read or write. -/
structure ReviewRecord where
  schemaVersion : Nat
  headSha : String
  reviewerClaimEpoch : Nat
  activeReviewerClaim : Option ReviewerClaim
deriving DecidableEq, Repr

namespace ReviewRecord

/-- An active claim that a new one may not replace. -/
def blocksClaim (record : ReviewRecord) (now : Time) (active : ReviewerClaim) : Bool :=
  record.schemaVersion < shipStateSchemaVersion || active.epoch = 0 ||
    record.reviewerClaimEpoch ≠ active.epoch || now < active.deadlineAt

/-- The record after the call, and the granted claim. -/
def claimReviewer (headSha reviewer : String) (claimedAt deadlineAt now : Time)
    (record : ReviewRecord) : ReviewRecord × Option ReviewerClaim :=
  if headSha ≠ record.headSha ∨ deadlineAt ≤ claimedAt ∨ now < claimedAt then (record, none)
  else if record.activeReviewerClaim.any (record.blocksClaim now) then (record, none)
  else
    match checkedSucc record.reviewerClaimEpoch with
    | none => (record, none)
    | some epoch =>
      let claim : ReviewerClaim := { headSha, epoch, reviewer, claimedAt, deadlineAt }
      ({ record with
          schemaVersion := shipStateSchemaVersion
          reviewerClaimEpoch := epoch
          activeReviewerClaim := some claim }, some claim)

def revokeReviewerClaim (headSha : String) (epoch : Nat) (reviewer : String)
    (record : ReviewRecord) : ReviewRecord × Bool :=
  if record.schemaVersion < shipStateSchemaVersion ∨ epoch = 0 ∨
      record.reviewerClaimEpoch ≠ epoch then (record, false)
  else if !record.activeReviewerClaim.any fun claim =>
      claim.headSha = headSha && claim.epoch = epoch && claim.reviewer = reviewer &&
        record.headSha = headSha then (record, false)
  else
    match checkedSucc record.reviewerClaimEpoch with
    | none => (record, false)
    | some next => ({ record with reviewerClaimEpoch := next, activeReviewerClaim := none }, true)

def fenceReviewerClaim (record : ReviewRecord) : ReviewRecord × Bool :=
  match checkedSucc record.reviewerClaimEpoch with
  | none => (record, false)
  | some next =>
    ({ record with
        schemaVersion := shipStateSchemaVersion
        reviewerClaimEpoch := next
        activeReviewerClaim := none }, true)

/-- The fresh attempt that replaces the archived record. -/
def archiveAndReplace (record : ReviewRecord) : Option ReviewRecord :=
  (checkedSucc record.reviewerClaimEpoch).map fun epoch =>
    { record with
      schemaVersion := shipStateSchemaVersion
      reviewerClaimEpoch := epoch
      activeReviewerClaim := none }

def reviewerClaimIsCurrent (headSha : String) (epoch : Nat) (reviewer : String) (now : Time)
    (record : ReviewRecord) : Bool :=
  if record.schemaVersion < shipStateSchemaVersion ∨ epoch = 0 then false
  else
    record.activeReviewerClaim.any fun claim =>
      record.headSha = headSha && claim.headSha = headSha && claim.epoch = epoch &&
        claim.reviewer = reviewer && record.reviewerClaimEpoch = epoch &&
        claim.claimedAt ≤ now && now < claim.deadlineAt

/-- What a current claim says about the record. -/
structure Current (headSha : String) (epoch : Nat) (reviewer : String) (now : Time)
    (record : ReviewRecord) (claim : ReviewerClaim) : Prop where
  schema : shipStateSchemaVersion ≤ record.schemaVersion
  positive : epoch ≠ 0
  active : record.activeReviewerClaim = some claim
  recordHead : record.headSha = headSha
  claimHead : claim.headSha = headSha
  claimEpoch : claim.epoch = epoch
  claimReviewer : claim.reviewer = reviewer
  recordEpoch : record.reviewerClaimEpoch = epoch
  started : claim.claimedAt ≤ now
  open_ : now < claim.deadlineAt

theorem reviewerClaimIsCurrent_iff {headSha : String} {epoch : Nat} {reviewer : String}
    {now : Time} {record : ReviewRecord} :
    record.reviewerClaimIsCurrent headSha epoch reviewer now = true ↔
      ∃ claim, record.Current headSha epoch reviewer now claim := by
  unfold reviewerClaimIsCurrent
  constructor
  · intro hcurrent
    split at hcurrent
    · cases hcurrent
    next hguard =>
      rw [not_or] at hguard
      cases hactive : record.activeReviewerClaim with
      | none =>
        rw [hactive] at hcurrent
        cases hcurrent
      | some claim =>
        simp only [hactive, any_some, Bool.and_eq_true, decide_eq_true_eq] at hcurrent
        obtain ⟨⟨⟨⟨⟨⟨hhead, hclaim⟩, hepoch⟩, hreviewer⟩, hrecord⟩, hstarted⟩, hopen⟩ := hcurrent
        exact ⟨claim, Nat.le_of_not_lt hguard.1, hguard.2, hactive, hhead, hclaim, hepoch,
          hreviewer, hrecord, hstarted, hopen⟩
  · rintro ⟨claim, hcurrent⟩
    rw [if_neg (not_or.mpr ⟨Nat.not_lt.mpr hcurrent.schema, hcurrent.positive⟩), hcurrent.active]
    simp [hcurrent.recordHead, hcurrent.claimHead, hcurrent.claimEpoch, hcurrent.claimReviewer,
      hcurrent.recordEpoch, hcurrent.started, hcurrent.open_]

end ReviewRecord

/-! ## Runs -/

/-- A record, the latest observation time, and the epochs of the claims granted
so far. -/
structure ReviewState where
  record : ReviewRecord
  clock : Time
  granted : List Nat
deriving DecidableEq, Repr

inductive ReviewLabel where
  | claim (headSha reviewer : String) (claimedAt deadlineAt now : Time)
  | revoke (headSha : String) (epoch : Nat) (reviewer : String)
  | fence
  | replace
  | changeHead (headSha : String)
  | observe (now : Time)
deriving DecidableEq, Repr

/-- Observation times do not go back. -/
def ReviewState.exec (s : ReviewState) : ReviewLabel → Option ReviewState
  | .claim headSha reviewer claimedAt deadlineAt now =>
    if now < s.clock then none
    else
      let (record, claim) := s.record.claimReviewer headSha reviewer claimedAt deadlineAt now
      some { record, clock := now, granted := s.granted ++ claim.toList.map (·.epoch) }
  | .revoke headSha epoch reviewer =>
    some { s with record := (s.record.revokeReviewerClaim headSha epoch reviewer).1 }
  | .fence => some { s with record := s.record.fenceReviewerClaim.1 }
  | .replace => some { s with record := s.record.archiveAndReplace.getD s.record }
  | .changeHead headSha => some { s with record := { s.record with headSha } }
  | .observe now => if now < s.clock then none else some { s with clock := now }

/-- Any record, before any claim of the run. -/
def reviewMachine : Machine ReviewState ReviewLabel where
  init s := s.granted = []
  exec := ReviewState.exec

/-! ## What a step does -/

/-- A step either advances the epoch by one, granting at most a claim of the new
epoch; or it keeps epoch and active claim. Only a change of the head touches the
other fields of the record then. -/
inductive ReviewStep (s s' : ReviewState) (l : ReviewLabel) : Prop where
  | advanced (hepoch : s'.record.reviewerClaimEpoch = s.record.reviewerClaimEpoch + 1)
      (hgranted : s'.granted = s.granted ∨
        s'.granted = s.granted ++ [s'.record.reviewerClaimEpoch])
      (hclock : s.clock ≤ s'.clock)
  | kept (hepoch : s'.record.reviewerClaimEpoch = s.record.reviewerClaimEpoch)
      (hactive : s'.record.activeReviewerClaim = s.record.activeReviewerClaim)
      (hrecord : (∃ headSha, l = .changeHead headSha) ∨ s'.record = s.record)
      (hgranted : s'.granted = s.granted) (hclock : s.clock ≤ s'.clock)

variable {s s' : ReviewState} {l : ReviewLabel}

theorem reviewStep_of_exec (hexec : s.exec l = some s') : ReviewStep s s' l := by
  cases l with
  | claim headSha reviewer claimedAt deadlineAt now =>
    simp only [ReviewState.exec, ReviewRecord.claimReviewer] at hexec
    split at hexec
    · cases hexec
    next hclock =>
      cases hexec
      have hclock : s.clock ≤ now := not_lt.mp hclock
      split
      · exact .kept rfl rfl (.inr rfl) (by simp) hclock
      · split
        · exact .kept rfl rfl (.inr rfl) (by simp) hclock
        · split
          · exact .kept rfl rfl (.inr rfl) (by simp) hclock
          next epoch hsucc => exact .advanced (checkedSucc_eq_some hsucc) (.inr rfl) hclock
  | revoke headSha epoch reviewer =>
    cases hexec
    simp only [ReviewRecord.revokeReviewerClaim]
    split
    · exact .kept rfl rfl (.inr rfl) rfl le_rfl
    · split
      · exact .kept rfl rfl (.inr rfl) rfl le_rfl
      · split
        · exact .kept rfl rfl (.inr rfl) rfl le_rfl
        next next hsucc => exact .advanced (checkedSucc_eq_some hsucc) (.inl rfl) le_rfl
  | fence =>
    cases hexec
    simp only [ReviewRecord.fenceReviewerClaim]
    split
    · exact .kept rfl rfl (.inr rfl) rfl le_rfl
    next next hsucc => exact .advanced (checkedSucc_eq_some hsucc) (.inl rfl) le_rfl
  | replace =>
    cases hexec
    cases hsucc : checkedSucc s.record.reviewerClaimEpoch with
    | none =>
      have hnone : s.record.archiveAndReplace = none := by
        rw [ReviewRecord.archiveAndReplace, hsucc, map_none]
      simp only [hnone, getD_none]
      exact .kept rfl rfl (.inr rfl) rfl le_rfl
    | some epoch =>
      refine .advanced ?_ (.inl rfl) le_rfl
      simp only [ReviewRecord.archiveAndReplace, hsucc, map_some, getD_some]
      exact checkedSucc_eq_some hsucc
  | changeHead headSha =>
    cases hexec
    exact .kept rfl rfl (.inl ⟨headSha, rfl⟩) rfl le_rfl
  | observe now =>
    simp only [ReviewState.exec] at hexec
    split at hexec
    · cases hexec
    next hclock =>
      cases hexec
      exact .kept rfl rfl (.inr rfl) rfl (not_lt.mp hclock)

/-! ## Epochs -/

theorem ReviewStep.epoch_le (hstep : ReviewStep s s' l) :
    s.record.reviewerClaimEpoch ≤ s'.record.reviewerClaimEpoch := by
  cases hstep with
  | advanced hepoch => exact hepoch ▸ Nat.le_succ _
  | kept hepoch => exact hepoch.ge

theorem epoch_le_of_run (hrun : reviewMachine.RunWhen (fun _ _ => True) s s') :
    s.record.reviewerClaimEpoch ≤ s'.record.reviewerClaimEpoch := by
  refine hrun.preserves
    (I := fun later => s.record.reviewerClaimEpoch ≤ later.record.reviewerClaimEpoch) ?_ le_rfl
  intro middle l later hle _ hexec
  exact hle.trans (reviewStep_of_exec hexec).epoch_le

/-- Granted epochs increase, and none is above the epoch of the record. -/
structure GrantsIncrease (s : ReviewState) : Prop where
  increasing : s.granted.Pairwise (· < ·)
  bounded : ∀ epoch ∈ s.granted, epoch ≤ s.record.reviewerClaimEpoch

theorem grantsIncrease_of_reachable {s : ReviewState} (hreach : reviewMachine.Reachable s) :
    GrantsIncrease s := by
  refine hreach.invariant (I := GrantsIncrease) ?_ ?_
  · intro s hinit
    have hnone : s.granted = [] := hinit
    exact ⟨by simp [hnone], by simp [hnone]⟩
  · intro s l s' hgrants _ hexec
    have hstep := reviewStep_of_exec hexec
    have hbounded : ∀ epoch ∈ s.granted, epoch ≤ s'.record.reviewerClaimEpoch :=
      fun epoch hmem => (hgrants.bounded epoch hmem).trans hstep.epoch_le
    cases hstep with
    | kept _ _ _ hgranted => exact ⟨hgranted ▸ hgrants.increasing, hgranted ▸ hbounded⟩
    | advanced hepoch hgranted =>
      rcases hgranted with hgranted | hgranted
      · exact ⟨hgranted ▸ hgrants.increasing, hgranted ▸ hbounded⟩
      · constructor
        case increasing =>
          rw [hgranted, List.pairwise_append]
          refine ⟨hgrants.increasing, List.pairwise_singleton _ _, ?_⟩
          intro epoch hmem new hnew
          rw [List.mem_singleton.mp hnew, hepoch]
          exact Nat.lt_succ_of_le (hgrants.bounded epoch hmem)
        case bounded =>
          intro epoch hmem
          rw [hgranted] at hmem
          rcases List.mem_append.mp hmem with hold | hnew
          · exact hbounded epoch hold
          · rw [List.mem_singleton.mp hnew]

/-! ## Claims that ended -/

/-- No claim of this epoch can be current from now on: the record has moved on,
or its active claim has expired. -/
def Ended (epoch : Nat) (s : ReviewState) : Prop :=
  epoch < s.record.reviewerClaimEpoch ∨
    epoch = s.record.reviewerClaimEpoch ∧
      ∀ claim, s.record.activeReviewerClaim = some claim → claim.deadlineAt ≤ s.clock

variable {epoch : Nat}

theorem Ended.not_current {s : ReviewState} (hended : Ended epoch s) (headSha reviewer : String) :
    s.record.reviewerClaimIsCurrent headSha epoch reviewer s.clock = false := by
  rw [Bool.eq_false_iff]
  intro hcurrent
  obtain ⟨claim, hcurrent⟩ := ReviewRecord.reviewerClaimIsCurrent_iff.mp hcurrent
  rcases hended with hless | ⟨-, hexpired⟩
  · exact absurd hcurrent.recordEpoch (Nat.ne_of_gt hless)
  · exact absurd hcurrent.open_ (not_lt.mpr (hexpired claim hcurrent.active))

theorem ReviewStep.ended (hstep : ReviewStep s s' l) (hended : Ended epoch s) : Ended epoch s' := by
  cases hstep with
  | advanced hepoch =>
    left
    rcases hended with hless | ⟨rfl, -⟩ <;> omega
  | kept hepoch hactive _ _ hclock =>
    rcases hended with hless | ⟨hsame, hexpired⟩
    · exact .inl (hepoch ▸ hless)
    · exact .inr ⟨hsame.trans hepoch.symm,
        fun claim hclaim => (hexpired claim (hactive ▸ hclaim)).trans hclock⟩

theorem ended_of_run (hrun : reviewMachine.RunWhen (fun _ _ => True) s s') (hended : Ended epoch s)
    : Ended epoch s' := by
  refine hrun.preserves (I := Ended epoch) ?_ hended
  intro middle l later hended _ hexec
  exact (reviewStep_of_exec hexec).ended hended

/-- A claim that a step other than a change of the head stops has ended. -/
theorem ReviewStep.ended_of_stopped (hstep : ReviewStep s s' l)
    (hhead : ∀ headSha, l ≠ .changeHead headSha) {headSha : String} {reviewer : String}
    (hcurrent : s.record.reviewerClaimIsCurrent headSha epoch reviewer s.clock = true)
    (hstopped : s'.record.reviewerClaimIsCurrent headSha epoch reviewer s'.clock = false) :
    Ended epoch s' := by
  obtain ⟨claim, hcurrent⟩ := ReviewRecord.reviewerClaimIsCurrent_iff.mp hcurrent
  cases hstep with
  | advanced hepoch =>
    left
    rw [hepoch, hcurrent.recordEpoch]
    exact Nat.lt_succ_self _
  | kept hepoch hactive hrecord _ hclock =>
    rcases hrecord with ⟨head, hlabel⟩ | hsame
    · exact absurd hlabel (hhead head)
    · -- the record is the same, so the deadline has passed
      right
      refine ⟨(hepoch.trans hcurrent.recordEpoch).symm, fun other hother => ?_⟩
      by_contra hopen
      rw [Bool.eq_false_iff] at hstopped
      apply hstopped
      rw [hsame] at hother ⊢
      obtain rfl := some.inj (hother.symm.trans hcurrent.active)
      exact ReviewRecord.reviewerClaimIsCurrent_iff.mpr ⟨other,
        { hcurrent with started := hcurrent.started.trans hclock, open_ := not_le.mp hopen }⟩

/-- A fresh record of a head that a reviewer has claimed. -/
def claimedState : ReviewState where
  record :=
    { schemaVersion := 2
      headSha := "abc"
      reviewerClaimEpoch := 1
      activeReviewerClaim := some ⟨"abc", 1, "r1", 0, 10⟩ }
  clock := 5
  granted := [1]

end Shipyard.Ship
