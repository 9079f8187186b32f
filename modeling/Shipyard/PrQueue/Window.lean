import Shipyard.PrQueue.State

/-!
# Truncated timelines

The same pull request seen through its complete timeline and through a window
that lacks older items. The window forgets commits, so a removal may no longer
name its head there; it also may lack the removal itself.
-/

namespace Shipyard.PrQueue

open Lib List

/-- The pull request as a truncated window of its timeline shows it. -/
def PullRequest.truncated (pr : PullRequest) (window : List Json) : PullRequest :=
  { pr with nodes := window, timelineComplete := some false }

/-! ## Known commits -/

section Known

variable {known more : List String} {node : Json}

theorem isKnown_mono (hsub : known ⊆ more) {oid : String} (hknown : isKnown known oid = true) :
    isKnown more oid = true := by
  obtain ⟨seen, hseen, heq⟩ := any_eq_true.mp hknown
  exact any_eq_true.mpr ⟨seen, hsub hseen, heq⟩

/-- Two lists of commits that agree on what a removal names give it the same head. -/
theorem removedHead_congr
    (hagree : ∀ oid ∈ namedOids node, isKnown known oid = isKnown more oid) :
    removedHead node known = removedHead node more := by
  rw [removedHead_eq_find?, removedHead_eq_find?, ← head?_filter, ← head?_filter,
    filter_congr hagree]

/-- A removal that names no head names none when fewer commits are known. -/
theorem removedHead_eq_none_of_subset (hsub : known ⊆ more) (hnone : removedHead node more = none) :
    removedHead node known = none := by
  rw [removedHead_eq_find?, find?_eq_none] at hnone ⊢
  intro oid hmem hknown
  exact hnone oid hmem (isKnown_mono hsub hknown)

/-- A removed head that stays known stays the removed head. -/
theorem removedHead_of_isKnown (hsub : known ⊆ more) {head : String}
    (hmore : removedHead node more = some head) (hknown : isKnown known head = true) :
    removedHead node known = some head := by
  rw [removedHead_eq_find?, find?_eq_some_iff_append] at hmore ⊢
  obtain ⟨_, earlier, later, hsplit, hunknown⟩ := hmore
  refine ⟨hknown, earlier, later, hsplit, fun oid hmem => ?_⟩
  have hmiss : isKnown more oid = false := by simpa using hunknown oid hmem
  cases hoid : isKnown known oid with
  | false => rfl
  | true =>
    rw [isKnown_mono hsub hoid] at hmiss
    cases hmiss

end Known

/-! ## The last removal through a window -/

section LastRemoval

variable {parseTimestamp : String → Option Time} {pr : PullRequest} {older window : List Json}
  {before after : List Json} {node : Json}

theorem knownHeads_window_subset (older window : List Json) (headOid : Option String) :
    knownHeads window headOid ⊆ knownHeads (older ++ window) headOid := by
  intro oid hoid
  simp only [knownHeads, filterMap_append, mem_append] at hoid ⊢
  tauto

theorem isKnown_head (nodes : List Json) {removed head : String}
    (hsame : eqIgnoreAsciiCase removed head = true) :
    isKnown (knownHeads nodes (some head)) removed = true := by
  refine any_eq_true.mpr ⟨head, by simp [knownHeads], ?_⟩
  simp only [eqIgnoreAsciiCase, decide_eq_true_eq] at hsame ⊢
  exact hsame.symm

/-- Push evidence about a removal that names no head. -/
def hasPushEvidence (parseTimestamp : String → Option Time) (nodes : List Json) (index : Nat)
    (head : String) : Bool :=
  (newHeadSince parseTimestamp nodes index none (some head)).1

/-- A window shows no push evidence that the complete timeline lacks. -/
theorem hasPushEvidence_window (index : Nat) {head : String}
    (hnone : hasPushEvidence parseTimestamp (older ++ window) (older.length + index) head = false) :
    hasPushEvidence parseTimestamp window index head = false := by
  have hdrop : (older ++ window).drop (older.length + index + 1) = window.drop (index + 1) := by
    rw [Nat.add_assoc, drop_length_add_append]
  have hget : (older ++ window)[older.length + index]? = window[index]? := by
    rw [getElem?_append_right (by omega), Nat.add_sub_cancel_left]
  simp only [hasPushEvidence, newHeadSince, hdrop, hget] at hnone ⊢
  split at hnone
  · cases hnone
  next hpush =>
    rw [if_neg hpush]
    split at hnone
    · cases hnone
    next hsuite =>
      rw [if_neg fun hshown => hsuite ?_]
      obtain ⟨removedAt, hat, hany⟩ := (Option.any_eq_true _ _).mp hshown
      refine (Option.any_eq_true _ _).mpr ⟨removedAt, hat, ?_⟩
      rw [any_append, hany, Bool.or_true]

/-- A removal without a new head in the complete timeline has none in a window. -/
theorem newHeadSinceLast_truncated {head : String} (hnodes : pr.nodes = older ++ window)
    (hhead : pr.headOid = some head)
    (hnone : (pr.newHeadSinceLast parseTimestamp (older ++ before) node).1 = false) :
    ((pr.truncated window).newHeadSinceLast parseTimestamp before node).1 = false := by
  have hsub := knownHeads_window_subset older window (some head)
  simp only [PullRequest.newHeadSinceLast, PullRequest.truncated, hnodes, hhead,
    length_append] at hnone ⊢
  cases hremoved : removedHead node (knownHeads (older ++ window) (some head)) with
  | none =>
    -- Fewer commits are known in the window, so the pushes decide there too.
    rw [hremoved] at hnone
    rw [removedHead_eq_none_of_subset hsub hremoved]
    exact hasPushEvidence_window before.length hnone
  | some removed =>
    -- The removed head is the live one, and the live head is known in every window.
    have hsame : eqIgnoreAsciiCase removed head = true := by
      simpa [hremoved, newHeadSince] using hnone
    rw [removedHead_of_isKnown hsub hremoved (isKnown_head window hsame)]
    simp [newHeadSince, hsame]

end LastRemoval

/-! ## Refusals through a window -/

section Refusal

variable {parseTimestamp : String → Option Time} {pr : PullRequest}

theorem Unarmed.truncated (hunarmed : Unarmed pr) (window : List Json) :
    Unarmed (pr.truncated window) :=
  ⟨hunarmed.isOpen, hunarmed.unqueued, hunarmed.unarmed⟩

variable {removedAt : Option String}

theorem exists_ejection_of_queueState {reason : String} {newHead : Bool} {requeues : Nat}
    (hstate : pr.queueState parseTimestamp = .ejected reason removedAt newHead requeues) :
    Unarmed pr ∧ ∃ ejection, pr.lastEjection parseTimestamp = some ejection ∧
      ejection.reason = reason ∧ ejection.newHeadSince = newHead := by
  unfold PullRequest.queueState at hstate
  dsimp only at hstate
  split at hstate
  · cases hstate
  · cases hstate
  next hopen =>
    split at hstate
    · cases hstate
    next hqueue =>
      split at hstate
      · cases hstate
      next harmed =>
        split at hstate
        next ejection hejection =>
          injection hstate with hreason _ hnew _
          exact ⟨⟨hopen, by simpa using hqueue, by simpa using harmed⟩, ejection, hejection,
            hreason, hnew⟩
        · split at hstate <;> cases hstate
  · cases hstate

/-- A refusal is about the last removal, which has no new head. -/
theorem exists_last_of_refusal {head reason : String}
    (hrefused : internalEnqueueVerdict (pr.report parseTimestamp) head =
      .refuseEjectedSameHead reason removedAt) :
    Unarmed pr ∧ ∀ before node after, IsLastRemoval pr.nodes before node after →
      sameHeadRequeueCascades (removalReason node) = true ∧
      (pr.newHeadSinceLast parseTimestamp before node).1 = false := by
  unfold internalEnqueueVerdict at hrefused
  split at hrefused
  · cases hrefused
  next ejectedReason time requeues hstate =>
    obtain ⟨hunarmed, ejection, hejection, hreason, hnew⟩ := exists_ejection_of_queueState hstate
    split at hrefused
    next hcascades =>
      refine ⟨hunarmed, fun before node after hlast => ?_⟩
      -- The ejection of the report is the one at the last removal.
      rw [PullRequest.lastEjection, PullRequest.walk_lastRemoval hlast] at hejection
      obtain ⟨found, hfound, rfl⟩ := Option.map_eq_some_iff.mp hejection
      obtain rfl := Option.some.inj (Option.filter_eq_some_iff.mp hfound).1
      dsimp only at hreason hnew
      rw [PullRequest.ejectionAt_newHeadSince hlast] at hnew
      refine ⟨?_, hnew⟩
      rw [show removalReason node = ejectedReason from hreason]
      exact (Bool.and_eq_true_iff.mp hcascades).1
    · cases hrefused
  · cases hrefused

/-- In a truncated window without a removal nothing is refused but a window
without a new head. -/
theorem verdict_of_noRemoval (hunarmed : Unarmed pr) {window : List Json} (hnone : NoRemoval window)
    (head : String) :
    internalEnqueueVerdict ((pr.truncated window).report parseTimestamp) head ≠ .admitted ↔
      NoNewHead window := by
  have hopen := hunarmed.truncated window
  have hremoval : (pr.truncated window).walk.lastRemoval = none :=
    walkTimeline_lastRemoval_of_noRemoval hnone
  have hnewHead : (pr.truncated window).walk.lastNewHead = none ↔ NoNewHead window :=
    walkTimeline_lastNewHead
  have hejection : (pr.truncated window).lastEjection parseTimestamp = none := by
    simp [PullRequest.lastEjection, hremoval]
  have hcomplete : (pr.truncated window).timelineComplete = some false := rfl
  have hstate : ((pr.truncated window).report parseTimestamp).state =
      if NoNewHead window then .unknown truncatedDetail else .neverArmed := by
    simp [PullRequest.report, PullRequest.queueState, hopen.isOpen, hopen.unqueued, hopen.unarmed,
      hejection, hcomplete, hremoval, hnewHead]
  by_cases hwindow : NoNewHead window
  · simp [internalEnqueueVerdict, hstate, hwindow]
  · simp [internalEnqueueVerdict, hstate, hwindow]

end Refusal

/-- A refusal survives the truncation of the timeline exactly when the window
shows a removal or shows no commit and no force-push. -/
theorem window_keeps_refusal_iff (parseTimestamp : String → Option Time)
    (complete truncated : Json) (pr : PullRequest) (older window : List Json)
    (head reason : String) (removedAt : Option String)
    (hcomplete : readPullRequest complete = .ok pr) (hnodes : pr.nodes = older ++ window)
    (htruncated : readPullRequest truncated = .ok (pr.truncated window))
    (hhead : pr.headOid = some head)
    (hrefused : internalEnqueueVerdict (explainPrQueueState parseTimestamp complete) head =
      .refuseEjectedSameHead reason removedAt) :
    internalEnqueueVerdict (explainPrQueueState parseTimestamp truncated) head ≠ .admitted ↔
      ¬NoRemoval window ∨ NoNewHead window := by
  rw [explainPrQueueState, hcomplete] at hrefused
  rw [explainPrQueueState, htruncated]
  obtain ⟨hunarmed, hlasts⟩ := exists_last_of_refusal hrefused
  rcases noRemoval_or_isLastRemoval window with hnone | ⟨before, node, after, hlast⟩
  · rw [verdict_of_noRemoval hunarmed hnone]
    simp [hnone]
  · -- The last removal of the window is the last one of the complete timeline.
    obtain ⟨hreason, hnew⟩ := hlasts (older ++ before) node after
      ⟨by rw [hnodes, hlast.split, append_assoc], hlast.kind, hlast.last⟩
    have hshown : ¬NoRemoval window := by
      intro hnone
      exact hnone node (by rw [hlast.split]; simp) hlast.kind
    have hverdict := verdict_of_last (hunarmed.truncated window) hhead hlast hreason
      (newHeadSinceLast_truncated hnodes hhead hnew)
    rw [hverdict]
    simp [hshown]

/-- The window that still shows the removal keeps the refusal. -/
theorem window_with_removal_refuses :
    internalEnqueueVerdict (explainPrQueueState (fun _ => none) (openResponse "head" false .null
      true [removedItem "failed_checks" [parent "base", parent "head"]])) "head" ≠ .admitted :=
  (window_keeps_refusal_iff (fun _ => none)
    (openResponse "head" false .null false
      [commitItem "head", removedItem "failed_checks" [parent "base", parent "head"]])
    _ _ [commitItem "head"] [removedItem "failed_checks" [parent "base", parent "head"]] "head"
    "failed_checks" (some "2026-09-25T04:12:51Z") rfl rfl rfl rfl (by decide +kernel)).mpr
    (.inl (by decide))

/-- A push away from the removed head and back hides the removal from the window. -/
theorem window_without_removal_admits :
    let window := [forcePushItem "other", forcePushItem "head"]
    let older := [commitItem "head", removedItem "failed_checks" [parent "base", parent "head"]]
    internalEnqueueVerdict (explainPrQueueState (fun _ => none)
        (openResponse "head" false .null false (older ++ window))) "head" =
        .refuseEjectedSameHead "failed_checks" (some "2026-09-25T04:12:51Z") ∧
      internalEnqueueVerdict (explainPrQueueState (fun _ => none)
        (openResponse "head" false .null true window)) "head" = .admitted := by
  decide +kernel

end Shipyard.PrQueue
