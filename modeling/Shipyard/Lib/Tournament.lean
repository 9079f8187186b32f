import Mathlib.Data.List.Perm.Basic
import Mathlib.Logic.Relation
import Shipyard.Lib.Table

/-!
# When the greatest row does not depend on the order

`maxBy` takes any comparison. Where the comparison is antisymmetric but not
transitive, different orders of the rows can give different greatest rows. They all
compare equal exactly when some rows, equal among themselves, are greater than all
the others.
-/

namespace Lib

open List

variable {α : Type} {cmp : α → α → Ordering}

/-- The comparison of two rows the other way round is the opposite one. -/
def Antisymmetric (cmp : α → α → Ordering) : Prop := ∀ a b, cmp b a = (cmp a b).swap

/-- Some rows are equal among themselves and greater than all the others. -/
def Decisive (cmp : α → α → Ordering) (rows : List α) : Prop :=
  ∃ top : α → Prop, (∃ a ∈ rows, top a) ∧
    (∀ a ∈ rows, ∀ b ∈ rows, top a → top b → cmp a b = .eq) ∧
    ∀ a ∈ rows, ∀ b ∈ rows, top a → ¬ top b → cmp a b = .gt

/-- Greatest rows of any two orders compare equal. -/
def OrderFree (cmp : α → α → Ordering) (rows : List α) : Prop :=
  ∀ first second, first.Perm rows → second.Perm rows → ∀ a b,
    maxBy cmp first = some a → maxBy cmp second = some b → cmp a b = .eq

theorem maxFrom_cons (cmp : α → α → Ordering) (best row : α) (rest : List α) :
    maxFrom cmp best (row :: rest) =
      if cmp best row = .gt then maxFrom cmp best rest else maxFrom cmp row rest := by
  rw [maxFrom, foldl_cons]
  split <;> rfl

theorem maxBy_append {first : List α} {best : α} (hfirst : maxBy cmp first = some best)
    (second : List α) : maxBy cmp (first ++ second) = some (maxFrom cmp best second) := by
  cases first with
  | nil => cases hfirst
  | cons row rest =>
    cases hfirst
    exact congrArg some foldl_append

/-! ## What the best row takes -/

/-- A row that comes later takes the place of the best row. -/
def Takes (cmp : α → α → Ordering) (row best : α) : Prop := cmp best row ≠ .gt

/-- A row takes the place of a row of the list, or of one that does, and so on. -/
def TakesAll (cmp : α → α → Ordering) (rows : List α) : α → α → Prop :=
  Relation.ReflTransGen fun row best => Takes cmp row best ∧ best ∈ rows

variable {rows : List α}

theorem TakesAll.mem {a b : α} (htakes : TakesAll cmp rows a b) (ha : a ∈ rows) : b ∈ rows := by
  induction htakes with
  | refl => exact ha
  | tail _ hstep _ => exact hstep.2

/-- The best row takes every row it was compared with, if not in one step. -/
theorem maxFrom_takesAll (hanti : Antisymmetric cmp) (rows : List α) (best : α)
    (others : List α) (hsub : ∀ a ∈ best :: others, a ∈ rows) :
    ∀ a ∈ best :: others, TakesAll cmp rows (maxFrom cmp best others) a := by
  induction others generalizing best with
  | nil =>
    intro a ha
    rw [mem_singleton.mp ha]
    exact .refl
  | cons row rest ih =>
    intro a ha
    have hbest : best ∈ rows := hsub best mem_cons_self
    have hrow : row ∈ rows := hsub row (mem_cons_of_mem _ mem_cons_self)
    rw [maxFrom_cons]
    split
    next hgt =>
      have hkept := ih best fun a ha => hsub a
        (mem_cons.mpr ((mem_cons.mp ha).imp_right (mem_cons_of_mem _)))
      rcases mem_cons.mp ha with rfl | ha
      · exact hkept a mem_cons_self
      rcases mem_cons.mp ha with rfl | ha
      · refine (hkept best mem_cons_self).tail ⟨?_, hrow⟩
        rw [Takes, hanti best a, hgt]
        decide
      · exact hkept a (mem_cons_of_mem _ ha)
    next hgt =>
      have hkept := ih row fun a ha => hsub a (mem_cons_of_mem _ ha)
      rcases mem_cons.mp ha with rfl | ha
      · exact (hkept row mem_cons_self).tail ⟨hgt, hbest⟩
      · exact hkept a ha

/-! ## A decisive group -/

section Decisive

variable {rows : List α} {top : α → Prop}

/-- What takes a row of the group is one of the group. -/
theorem top_of_takesAll (hbeats : ∀ a ∈ rows, ∀ b ∈ rows, top a → ¬ top b → cmp a b = .gt) {a b : α}
    (htakes : TakesAll cmp rows a b) (ha : a ∈ rows) (htop : top b) : top a := by
  induction htakes with
  | refl => exact htop
  | tail htakes hstep ih =>
    refine ih ?_
    by_contra hout
    exact hstep.1 (hbeats _ hstep.2 _ (TakesAll.mem htakes ha) htop hout)

theorem maxBy_top (hanti : Antisymmetric cmp)
    (hbeats : ∀ a ∈ rows, ∀ b ∈ rows, top a → ¬ top b → cmp a b = .gt)
    (hseen : ∃ a ∈ rows, top a) {order : List α} {a : α} (horder : order.Perm rows)
    (hmax : maxBy cmp order = some a) : a ∈ rows ∧ top a := by
  have hmem := horder.mem_iff.mp (maxBy_mem hmax)
  refine ⟨hmem, ?_⟩
  obtain ⟨seen, hseen, htop⟩ := hseen
  cases order with
  | nil => cases hmax
  | cons first rest =>
    cases hmax
    have htakes := maxFrom_takesAll hanti rows first rest (fun a ha => horder.mem_iff.mp ha) seen
      (horder.mem_iff.mpr hseen)
    exact top_of_takesAll hbeats htakes hmem htop

theorem Decisive.orderFree (hanti : Antisymmetric cmp) (hdecisive : Decisive cmp rows) :
    OrderFree cmp rows := by
  obtain ⟨top, hseen, hequal, hbeats⟩ := hdecisive
  intro first second hfirst hsecond a b ha hb
  obtain ⟨hmemA, htopA⟩ := maxBy_top hanti hbeats hseen hfirst ha
  obtain ⟨hmemB, htopB⟩ := maxBy_top hanti hbeats hseen hsecond hb
  exact hequal a hmemA b hmemB htopA htopB

/-- Where a group decides, no row is greater than the greatest one. -/
theorem Decisive.not_lt (hanti : Antisymmetric cmp) (hdecisive : Decisive cmp rows) {a b : α}
    (hmax : maxBy cmp rows = some a) (hb : b ∈ rows) : cmp a b ≠ .lt := by
  obtain ⟨top, hseen, hequal, hbeats⟩ := hdecisive
  obtain ⟨hmem, htop⟩ := maxBy_top hanti hbeats hseen (.refl rows) hmax
  by_cases hother : top b
  · rw [hequal a hmem b hb htop hother]
    decide
  · rw [hbeats a hmem b hb htop hother]
    decide

end Decisive

/-! ## Rows that win in some order -/

/-- On the way from a winning row to another, the last winning row takes a row that
takes the other without any winning row. -/
theorem takesAll_rest {wins : α → Bool} {a b : α} (htakes : TakesAll cmp rows a b) (ha : a ∈ rows)
    (hwins : wins a = true) (hb : wins b = false) :
    ∃ c ∈ rows.filter (!wins ·), (∃ d ∈ rows.filter wins, Takes cmp d c) ∧
      TakesAll cmp (rows.filter (!wins ·)) c b := by
  induction htakes with
  | refl => rw [hwins] at hb; cases hb
  | @tail middle last htakes hstep ih =>
    have hlast : last ∈ rows.filter (!wins ·) :=
      mem_filter.mpr ⟨hstep.2, by rw [hb]; rfl⟩
    cases hmiddle : wins middle with
    | true =>
      exact ⟨last, hlast, ⟨middle, mem_filter.mpr ⟨TakesAll.mem htakes ha, hmiddle⟩, hstep.1⟩,
        .refl⟩
    | false =>
      obtain ⟨c, hc, hd, hreach⟩ := ih hmiddle
      exact ⟨c, hc, hd, hreach.tail ⟨hstep.1, hlast⟩⟩

/-- Of rows that together take all the others, one wins in some order. The others
come first, in an order whose winner one of the rows takes directly. -/
theorem exists_perm_winner (rows : List α) (wins : α → Bool)
    (hcovers : ∀ b ∈ rows, ∃ a ∈ rows, wins a = true ∧ TakesAll cmp rows a b) (hne : rows ≠ []) :
    ∃ order, order.Perm rows ∧ ∃ a, maxBy cmp order = some a ∧ wins a = true := by
  classical
  induction hlength : rows.length using Nat.strong_induction_on generalizing rows wins with
  | _ length ih =>
    obtain ⟨row, hrow⟩ := exists_mem_of_ne_nil rows hne
    obtain ⟨winner, hwinner, hwins, -⟩ := hcovers row hrow
    by_cases hall : rows.filter (!wins ·) = []
    · -- Every row wins.
      obtain ⟨first, rest, rfl⟩ := exists_cons_of_ne_nil hne
      refine ⟨first :: rest, .refl _, _, rfl, ?_⟩
      have hnot := filter_eq_nil_iff.mp hall _ (maxFrom_mem cmp first rest)
      simpa using hnot
    · have hshorter : (rows.filter (!wins ·)).length < rows.length :=
        length_filter_lt_length_iff_exists.mpr ⟨winner, hwinner, by simp [hwins]⟩
      have hcovered : ∀ b ∈ rows.filter (!wins ·), ∃ a ∈ rows.filter (!wins ·),
          decide (∃ d ∈ rows.filter wins, Takes cmp d a) = true ∧
            TakesAll cmp (rows.filter (!wins ·)) a b := by
        intro b hb
        obtain ⟨hmem, hout⟩ := mem_filter.mp hb
        obtain ⟨a, ha, hwinsA, htakes⟩ := hcovers b hmem
        obtain ⟨c, hc, hd, hreach⟩ := takesAll_rest htakes ha hwinsA (by simpa using hout)
        exact ⟨c, hc, decide_eq_true hd, hreach⟩
      obtain ⟨order, horder, best, hbest, htaken⟩ :=
        ih _ (hlength ▸ hshorter) _ _ hcovered hall rfl
      obtain ⟨d, hd, htakes⟩ := of_decide_eq_true htaken
      obtain ⟨before, after, hchosen⟩ := append_of_mem hd
      have hparts : (d :: (before ++ after)).Perm (rows.filter wins) :=
        hchosen ▸ perm_middle.symm
      refine ⟨order ++ d :: (before ++ after), ?_, _, maxBy_append hbest _, ?_⟩
      · exact (horder.append hparts).trans
          (perm_append_comm.trans (filter_append_perm wins rows))
      · rw [maxFrom_cons, if_neg htakes]
        have hmem := maxFrom_mem cmp d (before ++ after)
        exact (mem_filter.mp (hparts.mem_iff.mp hmem)).2

/-- A row that takes the winner of one order wins in another. -/
theorem exists_perm_of_takes (hanti : Antisymmetric cmp) {order : List α} {winner row : α}
    (horder : order.Perm rows) (hwinner : maxBy cmp order = some winner) (hrow : row ∈ rows)
    (htakes : Takes cmp row winner) : ∃ other, other.Perm rows ∧ maxBy cmp other = some row := by
  classical
  have hmem : winner ∈ rows := horder.mem_iff.mp (maxBy_mem hwinner)
  have hall : ∀ b ∈ rows, TakesAll cmp rows winner b := by
    intro b hb
    cases order with
    | nil => cases hwinner
    | cons first rest =>
      cases hwinner
      exact maxFrom_takesAll hanti rows first rest (fun a ha => horder.mem_iff.mp ha) b
        (horder.mem_iff.mpr hb)
  obtain ⟨other, hperm, a, hmax, ha⟩ := exists_perm_winner rows (fun a => decide (a = row))
    (fun b hb => ⟨row, hrow, decide_eq_true rfl, .head ⟨htakes, hmem⟩ (hall b hb)⟩)
    (ne_nil_of_mem hrow)
  rw [of_decide_eq_true ha] at hmax
  exact ⟨other, hperm, hmax⟩

/-- The order of the rows does not matter exactly when a group of them decides. -/
theorem orderFree_iff (hanti : Antisymmetric cmp) :
    OrderFree cmp rows ↔ rows = [] ∨ Decisive cmp rows := by
  constructor
  · intro hfree
    refine (eq_or_ne rows []).imp_right fun hne => ?_
    obtain ⟨first, rest, rfl⟩ := exists_cons_of_ne_nil hne
    refine ⟨fun a => ∃ order, order.Perm (first :: rest) ∧ maxBy cmp order = some a,
      ⟨_, maxFrom_mem cmp first rest, first :: rest, .refl _, rfl⟩, ?_, ?_⟩
    · rintro a - b - ⟨order, horder, ha⟩ ⟨other, hother, hb⟩
      exact hfree order other horder hother a b ha hb
    · rintro a - b hb ⟨order, horder, ha⟩ hnever
      by_contra hgt
      exact hnever (exists_perm_of_takes hanti horder ha hb hgt)
  · rintro (rfl | hdecisive)
    · intro first second hfirst _ a b ha
      cases hfirst.eq_nil
      cases ha
    · exact hdecisive.orderFree hanti

end Lib
