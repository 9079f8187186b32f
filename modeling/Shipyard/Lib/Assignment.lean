import Mathlib.Algebra.BigOperators.Fin
import Mathlib.Algebra.Order.BigOperators.Group.Finset

/-!
# Assigning demands to resources of bounded capacity

A demand asks for a number of units, each from one of the resources it accepts.
A list of demands fits when all units can be assigned at once within the
capacities. The first part says when one more demand fits; the second, that
demands which accept a common resource can each fit alone but not together.
-/

namespace Lib

open List Function

variable {α : Type}

structure Demand (α : Type) where
  accepts : Finset α
  amount : ℕ

/-- How the units of a demand are spread over the resources it accepts. -/
structure Demand.Split (demand : Demand α) (part : α → ℕ) : Prop where
  inside : ∀ a, a ∉ demand.accepts → part a = 0
  total : ∑ a ∈ demand.accepts, part a = demand.amount

/-- The units that a resource gives under the given parts. -/
def load (parts : List (α → ℕ)) (a : α) : ℕ := (parts.map (· a)).sum

/-- All demands can be assigned at once. -/
def Fits (cap : α → ℕ) (demands : List (Demand α)) : Prop :=
  ∃ parts, List.Forall₂ Demand.Split demands parts ∧ ∀ a, load parts a ≤ cap a

/-- The units of all demands that accept one of the given resources. -/
def unitsMeeting [DecidableEq α] (resources : Finset α) (demands : List (Demand α)) : ℕ :=
  ((demands.filter fun demand => ¬Disjoint demand.accepts resources).map Demand.amount).sum

theorem unitsMeeting_append [DecidableEq α] (resources : Finset α)
    (demands demands' : List (Demand α)) : unitsMeeting resources (demands ++ demands') =
      unitsMeeting resources demands + unitsMeeting resources demands' := by
  simp [unitsMeeting]

theorem unitsMeeting_mono [DecidableEq α] {resources resources' : Finset α}
    (hsub : resources ⊆ resources') (demands : List (Demand α)) :
    unitsMeeting resources demands ≤ unitsMeeting resources' demands := by
  induction demands with
  | nil => exact le_rfl
  | cons demand rest ih =>
    simp only [unitsMeeting, filter_cons] at ih ⊢
    by_cases hmeets : Disjoint demand.accepts resources'
    · have hdisjoint := hmeets.mono_right hsub
      simpa [hmeets, hdisjoint] using ih
    · by_cases hdisjoint : Disjoint demand.accepts resources
      · simp only [hmeets, hdisjoint, not_true_eq_false, not_false_eq_true, decide_false,
          decide_true, Bool.false_eq_true, if_false, if_true, map_cons, sum_cons]
        exact ih.trans (Nat.le_add_left _ _)
      · simpa [hmeets, hdisjoint] using ih

/-! ## One more demand -/

variable {demand : Demand α} {part : α → ℕ}

theorem Demand.Split.sum_le (hsplit : demand.Split part) (resources : Finset α) :
    ∑ a ∈ resources, part a ≤ demand.amount := by
  rw [← hsplit.total]
  apply Finset.sum_le_sum_of_ne_zero
  intro a _ hne
  by_contra hnot
  exact hne (hsplit.inside a hnot)

variable {resources : Finset α}

theorem Demand.Split.sum_eq_zero (hsplit : demand.Split part)
    (hdisjoint : Disjoint demand.accepts resources) : ∑ a ∈ resources, part a = 0 := by
  apply Finset.sum_eq_zero
  intro a ha
  exact hsplit.inside a (Finset.disjoint_right.mp hdisjoint ha)

variable {parts : List (α → ℕ)}

theorem sum_load (resources : Finset α) : ∑ a ∈ resources, load parts a =
      (parts.map fun part => ∑ a ∈ resources, part a).sum := by
  induction parts with
  | nil => simp [load]
  | cons part rest ih =>
    simp only [load, map_cons, sum_cons, Finset.sum_add_distrib] at ih ⊢
    rw [ih]

variable {demands : List (Demand α)}

/-- Only the demands that accept a resource load it. -/
theorem sum_load_le [DecidableEq α] (hsplits : List.Forall₂ Demand.Split demands parts)
    (resources : Finset α) : ∑ a ∈ resources, load parts a ≤ unitsMeeting resources demands := by
  rw [sum_load]
  induction hsplits with
  | nil => simp [unitsMeeting]
  | @cons demand part demands parts hsplit _ ih =>
    simp only [unitsMeeting, filter_cons, map_cons, sum_cons] at ih ⊢
    split
    · rw [map_cons, sum_cons]
      exact Nat.add_le_add (hsplit.sum_le resources) ih
    next hmeets =>
      have hdisjoint : Disjoint demand.accepts resources := by simpa using hmeets
      rw [hsplit.sum_eq_zero hdisjoint, Nat.zero_add]
      exact ih

/-- A demand can be spread over any capacities that are large enough in sum. -/
theorem exists_split [DecidableEq α] {free : α → ℕ}
    (hroom : demand.amount ≤ ∑ a ∈ demand.accepts, free a) :
    ∃ part, demand.Split part ∧ ∀ a, part a ≤ free a := by
  obtain ⟨accepts, amount⟩ := demand
  induction accepts using Finset.induction_on generalizing amount with
  | empty =>
    refine ⟨fun _ => 0, ⟨fun _ _ => rfl, ?_⟩, fun _ => Nat.zero_le _⟩
    simpa using hroom.antisymm' (Nat.zero_le _)
  | @insert b rest hb ih =>
    simp only [Finset.sum_insert hb] at hroom
    have hrest : amount - min amount (free b) ≤ ∑ a ∈ rest, free a := by omega
    obtain ⟨part, hsplit, hfree⟩ := ih (amount - min amount (free b)) hrest
    refine ⟨Function.update part b (min amount (free b)), ⟨?_, ?_⟩, ?_⟩
    · intro a ha
      rw [Finset.mem_insert, not_or] at ha
      rw [update_of_ne ha.1]
      exact hsplit.inside a ha.2
    · have hsame : ∑ a ∈ rest, Function.update part b (min amount (free b)) a =
          ∑ a ∈ rest, part a := by
        apply Finset.sum_congr rfl
        intro a ha
        rw [update_of_ne (ne_of_mem_of_not_mem ha hb)]
      have htotal : ∑ a ∈ rest, part a = amount - min amount (free b) := hsplit.total
      change ∑ a ∈ insert b rest, Function.update part b (min amount (free b)) a = amount
      rw [Finset.sum_insert hb, update_self, hsame, htotal]
      omega
    · intro a
      by_cases ha : a = b
      · subst ha
        rw [update_self]
        exact min_le_right _ _
      · rw [update_of_ne ha]
        exact hfree a

theorem fits_nil (cap : α → ℕ) : Fits cap [] := ⟨[], .nil, fun _ => Nat.zero_le _⟩

theorem Fits.mono {cap cap' : α → ℕ} (hfits : Fits cap demands) (hle : ∀ a, cap a ≤ cap' a) :
    Fits cap' demands := by
  obtain ⟨parts, hsplits, hload⟩ := hfits
  exact ⟨parts, hsplits, fun a => (hload a).trans (hle a)⟩

variable {cap : α → ℕ}

theorem fits_cons_iff :
    Fits cap (demand :: demands) ↔ ∃ part, demand.Split part ∧ (∀ a, part a ≤ cap a) ∧
      Fits (fun a => cap a - part a) demands := by
  constructor
  · rintro ⟨parts, hsplits, hload⟩
    cases hsplits with
    | @cons _ part _ rest hsplit hrest =>
      simp only [load, map_cons, sum_cons] at hload
      refine ⟨part, hsplit, fun a => ?_, rest, hrest, fun a => ?_⟩
      · have hbound := hload a
        omega
      · have hbound := hload a
        simp only [load]
        omega
  · rintro ⟨part, hsplit, hpart, rest, hrest, hload⟩
    refine ⟨part :: rest, .cons hsplit hrest, ?_⟩
    intro a
    have hfirst := hpart a
    have hother := hload a
    simp only [load, map_cons, sum_cons] at hother ⊢
    omega

/-- A demand spread over some of its resources is spread over all of them. -/
theorem Demand.Split.widen (hsplit : Demand.Split ⟨resources, demand.amount⟩ part)
    (hsub : resources ⊆ demand.accepts) : demand.Split part where
  inside a ha := hsplit.inside a fun hmem => ha (hsub hmem)
  total := by
    rw [← Finset.sum_subset hsub fun a _ hnot => hsplit.inside a hnot]
    exact hsplit.total

/-- One unit of a demand moves from a resource it uses to another one it accepts. -/
theorem Demand.Split.move [DecidableEq α] (hsplit : demand.Split part) {b m : α}
    (hb : b ∈ demand.accepts) (hpos : 0 < part b) (hm : m ∈ demand.accepts) (hne : b ≠ m) :
    demand.Split fun a => part a + (if a = m then 1 else 0) - if a = b then 1 else 0 where
  inside a ha := by
    have ham : a ≠ m := fun heq => ha (heq ▸ hm)
    simp [hsplit.inside a ha, ham]
  total := by
    have hpoint : ∀ a, part a + (if a = m then 1 else 0) - (if a = b then 1 else 0) +
        (if a = b then 1 else 0) = part a + if a = m then 1 else 0 := by
      intro a
      by_cases hab : a = b
      · subst hab
        simp only [if_true, if_neg hne]
        omega
      · simp [hab]
    have hsum := Finset.sum_congr (rfl : demand.accepts = _) fun a _ => hpoint a
    rw [Finset.sum_add_distrib, Finset.sum_add_distrib, Finset.sum_ite_eq', if_pos hb,
      Finset.sum_ite_eq', if_pos hm, hsplit.total] at hsum
    omega

section

variable (hfits : Fits cap demands)

include hfits

/-- One more demand fits beside the others when some of its resources hold its
units and those of all demands that accept one of them. -/
theorem Fits.append_one [DecidableEq α]
    (hsub : resources ⊆ demand.accepts)
    (hroom : demand.amount + unitsMeeting resources demands ≤ ∑ a ∈ resources, cap a) :
    Fits cap (demands ++ [demand]) := by
  obtain ⟨parts, hsplits, hload⟩ := hfits
  have hfree : demand.amount ≤ ∑ a ∈ resources, (cap a - load parts a) := by
    have hsum : ∑ a ∈ resources, (cap a - load parts a) + ∑ a ∈ resources, load parts a =
        ∑ a ∈ resources, cap a := by
      rw [← Finset.sum_add_distrib]
      exact Finset.sum_congr rfl fun a _ => Nat.sub_add_cancel (hload a)
    have hused := sum_load_le hsplits resources
    omega
  let narrowed : Demand α := ⟨resources, demand.amount⟩
  have hnarrowed : narrowed.amount ≤ ∑ a ∈ narrowed.accepts, (cap a - load parts a) := hfree
  obtain ⟨part, hsplit, hpart⟩ := exists_split hnarrowed
  refine ⟨parts ++ [part], rel_append hsplits (.cons (hsplit.widen hsub) .nil), ?_⟩
  intro a
  have hbound := hpart a
  have hbefore := hload a
  simp only [load, map_append, sum_append, map_cons, map_nil,
    sum_cons, sum_nil, Nat.add_zero] at hbound hbefore ⊢
  omega

/-- A demand of no units fits anywhere. -/
theorem Fits.append_zero (hzero : demand.amount = 0) :
    Fits cap (demands ++ [demand]) := by
  obtain ⟨parts, hsplits, hload⟩ := hfits
  have hsplit : demand.Split fun _ => 0 := ⟨fun _ _ => rfl, by simp [hzero]⟩
  refine ⟨parts ++ [fun _ => 0], rel_append hsplits (.cons hsplit .nil), ?_⟩
  intro a
  simpa [load] using hload a

theorem Fits.filter (keep : Demand α → Bool) :
    Fits cap (demands.filter keep) := by
  induction demands generalizing cap with
  | nil => exact hfits
  | cons demand rest ih =>
    obtain ⟨part, hsplit, hpart, hrest⟩ := fits_cons_iff.mp hfits
    rw [filter_cons]
    split
    · exact fits_cons_iff.mpr ⟨part, hsplit, hpart, ih hrest⟩
    · exact (ih hrest).mono fun a => Nat.sub_le _ _

/-- What fits is no more than the capacity of the resources it can use. -/
theorem Fits.amounts_le
    (hinside : ∀ demand ∈ demands, demand.accepts ⊆ resources) :
    (demands.map Demand.amount).sum ≤ ∑ a ∈ resources, cap a := by
  obtain ⟨parts, hsplits, hload⟩ := hfits
  calc (demands.map Demand.amount).sum
      = (parts.map fun part => ∑ a ∈ resources, part a).sum := by
        clear hload
        induction hsplits with
        | nil => rfl
        | @cons demand part demands parts hsplit _ ih =>
          rw [map_cons, map_cons, sum_cons, sum_cons,
            ih fun other hother => hinside other (mem_cons_of_mem _ hother),
            ← hsplit.total]
          congr 1
          apply Finset.sum_subset (hinside demand mem_cons_self)
          intro a _ hnot
          exact hsplit.inside a hnot
    _ = ∑ a ∈ resources, load parts a := (sum_load resources).symm
    _ ≤ ∑ a ∈ resources, cap a := Finset.sum_le_sum fun a _ => hload a

/-- The demands that accept one of the given resources take no more than what
all their resources hold. -/
theorem Fits.unitsMeeting_le [DecidableEq α] {part resources : Finset α}
    (hinside : ∀ demand ∈ demands, ¬Disjoint demand.accepts part → demand.accepts ⊆ resources) :
    unitsMeeting part demands ≤ ∑ a ∈ resources, cap a := by
  apply (hfits.filter fun demand => ¬Disjoint demand.accepts part).amounts_le
  intro demand hdemand
  rw [mem_filter, decide_eq_true_eq] at hdemand
  exact hinside demand hdemand.1 hdemand.2

end

/-! ## Order and merging -/

/-- The order of the demands does not matter. -/
theorem Fits.perm {demands demands' : List (Demand α)} (hfits : Fits cap demands)
    (hperm : demands.Perm demands') : Fits cap demands' := by
  induction hperm generalizing cap with
  | nil => exact hfits
  | cons demand _ ih =>
    obtain ⟨part, hsplit, hpart, hrest⟩ := fits_cons_iff.mp hfits
    exact fits_cons_iff.mpr ⟨part, hsplit, hpart, ih hrest⟩
  | swap first second rest =>
    obtain ⟨part, hsplit, hpart, hrest⟩ := fits_cons_iff.mp hfits
    obtain ⟨part', hsplit', hpart', hrest'⟩ := fits_cons_iff.mp hrest
    refine fits_cons_iff.mpr ⟨part', hsplit', fun a => (hpart' a).trans (Nat.sub_le _ _),
      fits_cons_iff.mpr ⟨part, hsplit, fun a => ?_, hrest'.mono fun a => ?_⟩⟩
    · have hfirst := hpart a
      have hsecond := hpart' a
      omega
    · omega
  | trans _ _ ih ih' => exact ih' (ih hfits)

/-- Two demands that accept the same resources can be made one, of no more than
their units. -/
theorem Fits.merge [DecidableEq α] {first second : Demand α} {amount : ℕ} {rest : List (Demand α)}
    (hfits : Fits cap (first :: second :: rest)) (haccepts : second.accepts = first.accepts)
    (hamount : amount ≤ first.amount + second.amount) :
    Fits cap (⟨first.accepts, amount⟩ :: rest) := by
  obtain ⟨part, hsplit, hpart, hrest⟩ := fits_cons_iff.mp hfits
  obtain ⟨part', hsplit', hpart', hrest'⟩ := fits_cons_iff.mp hrest
  let both : Demand α := ⟨first.accepts, amount⟩
  have hroom : both.amount ≤ ∑ a ∈ both.accepts, (part a + part' a) := by
    rw [Finset.sum_add_distrib, hsplit.total, ← haccepts, hsplit'.total]
    exact hamount
  obtain ⟨merged, hmerged, hbelow⟩ := exists_split hroom
  refine fits_cons_iff.mpr ⟨merged, hmerged, fun a => ?_, hrest'.mono fun a => ?_⟩
  · have hfirst := hpart a
    have hsecond := hpart' a
    have hsum := hbelow a
    omega
  · have hsum := hbelow a
    omega

/-! ## Demands that compete for a resource -/

section Competing

/-- Capacities in which each demand fits alone, though they hold fewer units
than all demands together. -/
def Tight {ι : Type} [Fintype ι] (demand : ι → Demand α) (cap tight : α → ℕ) : Prop :=
  (∀ a, tight a ≤ cap a) ∧
    (∀ k, (demand k).amount ≤ ∑ a ∈ (demand k).accepts, tight a) ∧
      ∀ resources : Finset α, (∀ k, (demand k).accepts ⊆ resources) →
        ∑ a ∈ resources, tight a < ∑ k, (demand k).amount

variable {ι : Type} {demand : ι → Demand α} {part : ι → α → ℕ}
  (hsplit : ∀ k, (demand k).Split (part k))

include hsplit

/-- Units that another demand takes from accepted resources come on top. -/
theorem amount_add_le [Fintype ι] {k l : ι} (hne : l ≠ k) {a : α} (ha : a ∈ (demand k).accepts) :
    (demand k).amount + part l a ≤ ∑ b ∈ (demand k).accepts, ∑ i, part i b := by
  classical
  have hown : (demand k).amount = ∑ b ∈ (demand k).accepts, part k b := (hsplit k).total.symm
  have hother : part l a ≤ ∑ b ∈ (demand k).accepts, part l b :=
    Finset.single_le_sum (fun _ _ => Nat.zero_le _) ha
  have hpair : ∀ b, part k b + part l b ≤ ∑ i, part i b := by
    intro b
    rw [← Finset.sum_pair (f := fun i => part i b) (Ne.symm hne)]
    exact Finset.sum_le_sum_of_subset (Finset.subset_univ _)
  calc (demand k).amount + part l a
      ≤ ∑ b ∈ (demand k).accepts, (part k b + part l b) := by
        rw [Finset.sum_add_distrib, ← hown]
        exact Nat.add_le_add_left hother _
    _ ≤ ∑ b ∈ (demand k).accepts, ∑ i, part i b := Finset.sum_le_sum fun b _ => hpair b

theorem amount_le [Fintype ι] (k : ι) :
    (demand k).amount ≤ ∑ b ∈ (demand k).accepts, ∑ i, part i b := by
  rw [← (hsplit k).total]
  apply Finset.sum_le_sum
  intro b _
  exact Finset.single_le_sum (f := fun i => part i b) (fun _ _ => Nat.zero_le _)
    (Finset.mem_univ k)

theorem sum_parts_le [Fintype ι] (resources : Finset α) :
    ∑ a ∈ resources, ∑ i, part i a ≤ ∑ i, (demand i).amount := by
  rw [Finset.sum_comm]
  exact Finset.sum_le_sum fun i _ => (hsplit i).sum_le resources

/-- A demand of some units uses one of its resources. -/
theorem exists_used {k : ι} (hpos : 0 < (demand k).amount) :
    ∃ a ∈ (demand k).accepts, 0 < part k a := by
  rw [← (hsplit k).total] at hpos
  obtain ⟨a, ha, hne⟩ := Finset.exists_ne_zero_of_sum_ne_zero (Nat.ne_of_gt hpos)
  exact ⟨a, ha, Nat.pos_of_ne_zero hne⟩

variable [Fintype ι] [DecidableEq α] {cap : α → ℕ}

/-- When a demand uses a resource that another one accepts, the other one can
do with one unit less. -/
theorem tight_of_used (hcap : ∀ a, ∑ k, part k a ≤ cap a) {i j : ι} (hne : i ≠ j) {a : α}
    (hused : 0 < part i a) (ha : a ∈ (demand j).accepts) (hj : 0 < (demand j).amount) :
    ∃ tight, Tight demand cap tight := by
  obtain ⟨b, hb, hpos⟩ := exists_used hsplit hj
  have hload : part j b ≤ ∑ k, part k b :=
    Finset.single_le_sum (f := fun k => part k b) (fun _ _ => Nat.zero_le _) (Finset.mem_univ j)
  let tight : α → ℕ := fun c => ∑ k, part k c - if c = b then 1 else 0
  have hsum : ∀ resources : Finset α, ∑ c ∈ resources, tight c + (if b ∈ resources then 1 else 0) =
      ∑ c ∈ resources, ∑ k, part k c := by
    intro resources
    rw [← Finset.sum_ite_eq' resources b fun _ => 1, ← Finset.sum_add_distrib]
    apply Finset.sum_congr rfl
    intro c _
    by_cases hc : c = b
    · subst hc
      simp only [tight, if_true]
      omega
    · simp [tight, hc]
  refine ⟨tight, ?_, ?_, ?_⟩
  · intro c
    exact (Nat.sub_le _ _).trans (hcap c)
  · intro k
    have hk := hsum (demand k).accepts
    by_cases hkj : k = j
    · subst hkj
      have hmore := amount_add_le hsplit hne ha
      rw [if_pos hb] at hk
      omega
    · by_cases hbk : b ∈ (demand k).accepts
      · have hmore := amount_add_le hsplit (Ne.symm hkj) hbk
        rw [if_pos hbk] at hk
        omega
      · have hown := amount_le hsplit k
        rw [if_neg hbk] at hk
        omega
  · intro resources hinside
    have hr := hsum resources
    have hall := sum_parts_le hsplit resources
    rw [if_pos (hinside j hb)] at hr
    omega

/-- Two demands that accept a common resource: one of them can be made to use it. -/
theorem exists_tight (hcap : ∀ a, ∑ k, part k a ≤ cap a) {i j : ι} (hne : i ≠ j)
    (hi : 0 < (demand i).amount) (hj : 0 < (demand j).amount) {m : α}
    (hmi : m ∈ (demand i).accepts) (hmj : m ∈ (demand j).accepts) (hm : 0 < cap m) :
    ∃ tight, Tight demand cap tight := by
  classical
  by_cases hused : ∃ k, 0 < part k m
  · obtain ⟨k, hused⟩ := hused
    by_cases hki : k = i
    · exact tight_of_used hsplit hcap (hki ▸ hne) hused hmj hj
    · exact tight_of_used hsplit hcap hki hused hmi hi
  have hfree : ∀ k, part k m = 0 := by simpa using hused
  obtain ⟨b, hb, hpos⟩ := exists_used hsplit hi
  have hbm : b ≠ m := by
    rintro rfl
    exact absurd (hfree i) (Nat.ne_of_gt hpos)
  let moved := Function.update part i fun a =>
    part i a + (if a = m then 1 else 0) - if a = b then 1 else 0
  have hmoved : ∀ k, (demand k).Split (moved k) := by
    intro k
    by_cases hk : k = i
    · subst hk
      simpa only [moved, update_self] using (hsplit k).move hb hpos hmi hbm
    · simpa only [moved, update_of_ne hk] using hsplit k
  have hpart : ∀ k a, moved k a ≤ part k a + if k = i ∧ a = m then 1 else 0 := by
    intro k a
    by_cases hk : k = i
    · subst hk
      simp [moved]
    · simp [moved, update_of_ne hk]
  refine tight_of_used hmoved (fun a => ?_) hne (a := m) ?_ hmj hj
  · by_cases ham : a = m
    · subst ham
      refine le_trans (Finset.sum_le_sum fun k _ => hpart k a) ?_
      simpa [hfree, Nat.succ_le_iff] using hm
    · exact (Finset.sum_le_sum fun k _ => by simpa [ham] using hpart k a).trans (hcap a)
  · simp [moved, hbm.symm]

end Competing

/-- Demands that fit together, two of which accept a common resource, can be
given capacities in which each fits alone, but not all together. -/
theorem Fits.exists_tight [DecidableEq α] (hfits : Fits cap demands) {i j : Fin demands.length}
    (hne : i ≠ j) (hi : 0 < (demands.get i).amount) (hj : 0 < (demands.get j).amount) {m : α}
    (hmi : m ∈ (demands.get i).accepts) (hmj : m ∈ (demands.get j).accepts) (hm : 0 < cap m) :
    ∃ tight : α → ℕ, (∀ a, tight a ≤ cap a) ∧
      (∀ demand ∈ demands, demand.amount ≤ ∑ a ∈ demand.accepts, tight a) ∧
        ¬Fits tight demands := by
  obtain ⟨parts, hsplits, hload⟩ := hfits
  have hlength := hsplits.length_eq
  let part : Fin demands.length → α → ℕ := fun k => parts.get (k.cast hlength)
  have hsplit : ∀ k, (demands.get k).Split (part k) := by
    intro k
    exact hsplits.get k.2 (hlength ▸ k.2)
  have hsum : ∀ a, ∑ k, part k a = load parts a := by
    intro a
    have hcast : ∑ k, part k a = ∑ k : Fin parts.length, parts.get k a :=
      Fintype.sum_equiv (finCongr hlength) _ _ fun _ => rfl
    rw [hcast, load, ← sum_ofFn]
    congr 1
    exact ext_getElem (by simp) (by simp)
  have hcap : ∀ a, ∑ k, part k a ≤ cap a := fun a => (hsum a).trans_le (hload a)
  obtain ⟨tight, hle, halone, hshort⟩ : ∃ tight, Tight demands.get cap tight :=
    Lib.exists_tight hsplit hcap hne hi hj hmi hmj hm
  refine ⟨tight, hle, ?_, ?_⟩
  · intro demand hdemand
    obtain ⟨k, rfl⟩ := mem_iff_get.mp hdemand
    exact halone k
  · intro hall
    let resources := Finset.univ.biUnion fun k : Fin demands.length => (demands.get k).accepts
    have hinside : ∀ k, (demands.get k).accepts ⊆ resources :=
      fun k => Finset.subset_biUnion_of_mem
        (fun k : Fin demands.length => (demands.get k).accepts) (Finset.mem_univ k)
    have hbound : (demands.map Demand.amount).sum ≤ ∑ a ∈ resources, tight a := by
      apply hall.amounts_le
      intro demand hdemand
      obtain ⟨k, rfl⟩ := mem_iff_get.mp hdemand
      exact hinside k
    have hamounts : ∑ k, (demands.get k).amount = (demands.map Demand.amount).sum := by
      rw [← sum_ofFn]
      congr 1
      exact ext_getElem (by simp) (by simp)
    have hstrict := hshort resources hinside
    omega

end Lib
