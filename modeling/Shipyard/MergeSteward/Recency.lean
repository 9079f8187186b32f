import Shipyard.Lib.Tournament
import Shipyard.MergeSteward.Checks

/-!
# Which observation is the newest

`cmp_recency` orders two attempts of one surface by their ids and any other pair by
their times, so that it is not transitive: three observations can each be newer than
the next. The selected one is then an older attempt in some orders of the list. It is
never one exactly where a group of equally new observations is newer than the rest.
-/

namespace Shipyard.MergeSteward

open Lib List
open PrQueue (eqIgnoreAsciiCase)

def StewardCheck.isFor (rule : RequiredCheck) (check : StewardCheck) : Bool :=
  eqIgnoreAsciiCase check.name rule.context &&
    rule.appId.all fun appId => check.appId = some appId

/-- The observations of a required rule. -/
def matchingChecks (checks : List StewardCheck) (rule : RequiredCheck) : List StewardCheck :=
  checks.filter (StewardCheck.isFor rule)

theorem cmpRecencyTime_swap (left right : Bool × String × Bool) :
    cmpRecencyTime right left = (cmpRecencyTime left right).swap := by
  rw [cmpRecencyTime, cmpRecencyTime, Ordering.swap_then, Ordering.swap_then,
    Std.OrientedOrd.eq_swap, Std.OrientedOrd.eq_swap (a := right.2.1),
    Std.OrientedOrd.eq_swap (a := right.2.2)]

theorem cmpIdThenTime_swap {τ : Type} {cmpTime : τ → τ → Ordering}
    (hswap : ∀ left right, cmpTime right left = (cmpTime left right).swap)
    (leftId rightId : Option Nat) (left right : τ) :
    cmpIdThenTime cmpTime rightId leftId right left =
      (cmpIdThenTime cmpTime leftId rightId left right).swap := by
  cases leftId with
  | none => cases rightId <;> exact hswap left right
  | some first =>
    cases rightId with
    | none => exact hswap left right
    | some second => exact Std.OrientedOrd.eq_swap

theorem cmpRecency_antisymmetric : Antisymmetric cmpRecency := by
  intro left right
  have hsurface : decide (right.source = left.source) = decide (left.source = right.source) :=
    decide_eq_decide.mpr eq_comm
  simp only [cmpRecency, hsurface]
  exact cmpIdThenTime_swap cmpRecencyTime_swap _ _ _ _

/-- Every order of the matching observations is that of some order of the list. -/
theorem exists_perm_matchingChecks {checks order : List StewardCheck} {rule : RequiredCheck}
    (horder : order.Perm (matchingChecks checks rule)) :
    ∃ all, all.Perm checks ∧ matchingChecks all rule = order := by
  refine ⟨order ++ checks.filter (!StewardCheck.isFor rule ·),
    (horder.append_right _).trans (filter_append_perm _ checks), ?_⟩
  have hmatching : order.filter (StewardCheck.isFor rule) = order :=
    filter_eq_self.mpr fun check hcheck => (mem_filter.mp (horder.mem_iff.mp hcheck)).2
  have hothers : (checks.filter (!StewardCheck.isFor rule ·)).filter (StewardCheck.isFor rule) =
      [] := by
    simp [filter_filter]
  rw [matchingChecks, filter_append, hmatching, hothers, append_nil]

theorem orderFree_matchingChecks_iff (checks : List StewardCheck) (rule : RequiredCheck) :
    OrderFree cmpRecency (matchingChecks checks rule) ↔
      ∀ first second, first.Perm checks → second.Perm checks → ∀ a b,
        selectedRequiredCheck first rule = some a → selectedRequiredCheck second rule = some b →
          cmpRecency a b = .eq := by
  constructor
  · intro hfree first second hfirst hsecond a b ha hb
    exact hfree _ _ (hfirst.filter _) (hsecond.filter _) a b ha hb
  · intro hany first second hfirst hsecond a b ha hb
    obtain ⟨firstAll, hfirstAll, rfl⟩ := exists_perm_matchingChecks hfirst
    obtain ⟨secondAll, hsecondAll, rfl⟩ := exists_perm_matchingChecks hsecond
    exact hany firstAll secondAll hfirstAll hsecondAll a b ha hb

/-- The selected observation of a rule is no older attempt, and the same in every
order of the list up to observations that compare equal. -/
structure SelectsNewest (checks : List StewardCheck) (rule : RequiredCheck) : Prop where
  notOlder : ∀ older ∈ matchingChecks checks rule, ∀ newer ∈ matchingChecks checks rule,
    ∀ first second, older.source = newer.source → older.checkId = some first →
      newer.checkId = some second → first < second →
        selectedRequiredCheck checks rule ≠ some older
  anyOrder : ∀ first second, first.Perm checks → second.Perm checks → ∀ a b,
    selectedRequiredCheck first rule = some a → selectedRequiredCheck second rule = some b →
      cmpRecency a b = .eq

/-- It is so exactly where equally new observations are newer than all the others. -/
theorem selects_newest_iff (checks : List StewardCheck) (rule : RequiredCheck) :
    SelectsNewest checks rule ↔
      matchingChecks checks rule = [] ∨ Decisive cmpRecency (matchingChecks checks rule) := by
  rw [← orderFree_iff cmpRecency_antisymmetric]
  constructor
  · intro hselects
    exact (orderFree_matchingChecks_iff checks rule).mpr hselects.anyOrder
  · intro hfree
    refine ⟨?_, (orderFree_matchingChecks_iff checks rule).mp hfree⟩
    intro older holder newer hnewer first second hsource hfirst hsecond hlt hselected
    rcases (orderFree_iff cmpRecency_antisymmetric).mp hfree with hnone | hdecisive
    · rw [hnone] at holder
      cases holder
    · refine hdecisive.not_lt cmpRecency_antisymmetric hselected hnewer ?_
      simpa [cmpRecency, hsource, hfirst, hsecond, cmpIdThenTime, Option.filter_some,
        compare_lt_iff_lt] using hlt

/-- A rerun of a check. -/
def rerun : StewardCheck :=
  { name := "build", status := "COMPLETED", checkId := some 2,
    observedAt := some "2026-09-24T10:00:00Z" }

/-- A commit status of the same context, posted an hour later. -/
def laterStatus : StewardCheck :=
  { name := "build", source := .statusContext, status := "COMPLETED",
    observedAt := some "2026-09-24T11:00:00Z" }

/-- The first attempt, which a clock change stamped last. -/
def firstAttempt : StewardCheck :=
  { name := "build", status := "COMPLETED", checkId := some 1,
    observedAt := some "2026-09-24T12:00:00Z" }

/-- The first attempt is selected over its rerun. -/
theorem older_attempt_is_selected :
    ¬ SelectsNewest [rerun, laterStatus, firstAttempt] { context := "build" } := by
  intro hselects
  have hmatching : matchingChecks [rerun, laterStatus, firstAttempt] { context := "build" } =
      [rerun, laterStatus, firstAttempt] := by decide +kernel
  refine hselects.notOlder firstAttempt ?_ rerun ?_ 1 2 rfl rfl rfl (by decide)
    (by decide +kernel)
  · simp [hmatching]
  · simp [hmatching]

end Shipyard.MergeSteward
