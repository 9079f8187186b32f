import Mathlib.Data.Set.Insert
import Shipyard.Lib.Checks
import Shipyard.Lib.SortedMap

/-!
# Sweeps over intervals

A sweep visits intervals in the order of their starts and remembers, of the ones it has
seen, only the one that finishes last: alone, under each key, or within one group of
intervals that stand together. That is enough to find a later interval that starts before
an earlier one has finished.
-/

namespace Lib

open Function List

/-! ## The interval that finishes last -/

section Furthest

variable {α : Type} {finish : α → Nat} {seen : Set α} {furthest : Option α}

/-- The remembered element is one that finishes last, if any was seen. -/
def IsFurthest (finish : α → Nat) (seen : Set α) : Option α → Prop
  | none => seen = ∅
  | some last => last ∈ seen ∧ ∀ y ∈ seen, finish y ≤ finish last

/-- Remembers the new element where it finishes later. -/
def advance (finish : α → Nat) (furthest : Option α) (x : α) : Option α :=
  if furthest.all fun last => finish last < finish x then some x else furthest

/-- The remembered element, if it has not finished when the new one starts. -/
def clashing (start finish : α → Nat) (furthest : Option α) (x : α) : Option α :=
  furthest.filter fun last => start x < finish last

theorem IsFurthest.advance (hlast : IsFurthest finish seen furthest) (x : α) :
    IsFurthest finish (insert x seen) (advance finish furthest x) := by
  cases furthest with
  | none =>
    have hempty : seen = ∅ := hlast
    subst hempty
    exact ⟨Set.mem_insert x _, by simp⟩
  | some last =>
    obtain ⟨hseen, hmax⟩ := hlast
    by_cases hlater : finish last < finish x
    · have hnew : Lib.advance finish (some last) x = some x := by
        simp [Lib.advance, hlater]
      rw [hnew]
      refine ⟨Set.mem_insert x _, Set.forall_mem_insert.mpr ⟨le_rfl, fun y hy => ?_⟩⟩
      exact (hmax y hy).trans hlater.le
    · have hsame : Lib.advance finish (some last) x = some last := by
        simp [Lib.advance, hlater]
      rw [hsame]
      exact ⟨Set.mem_insert_of_mem x hseen,
        Set.forall_mem_insert.mpr ⟨Nat.le_of_not_lt hlater, hmax⟩⟩

/-- The last to finish decides for all. -/
theorem IsFurthest.clashing_eq_none_iff (hlast : IsFurthest finish seen furthest)
    (start : α → Nat) (x : α) :
    clashing start finish furthest x = none ↔ ∀ y ∈ seen, finish y ≤ start x := by
  cases furthest with
  | none =>
    have hempty : seen = ∅ := hlast
    simp [clashing, hempty]
  | some last =>
    obtain ⟨hseen, hmax⟩ := hlast
    rw [clashing, Option.filter_eq_none_iff]
    constructor
    · intro hnone y hy
      have hfinished := hnone last rfl
      simp only [decide_eq_true_eq, not_lt] at hfinished
      exact (hmax y hy).trans hfinished
    · intro hall previous hprevious
      cases hprevious
      simpa using hall last hseen

end Furthest

/-! ## A memory for each key -/

section Keys

variable {α κ ε : Type} [LinearOrder κ] {start finish : α → Nat} {seen : κ → Set α}
  {memory : SortedMap κ α} {x : α} {keys : List κ}

/-- Checks an element against the last one under a key, and remembers it there. -/
def holdKey (start finish : α → Nat) (refusal : κ → α → α → ε) (x : α)
    (memory : SortedMap κ α) (key : κ) : Except ε (SortedMap κ α) :=
  match clashing start finish (memory.get? key) x with
  | some previous => .error (refusal key previous x)
  | none =>
    if (memory.get? key).all fun last => finish last < finish x then
      .ok (memory.insert key x)
    else .ok memory

/-- The memory knows the last to finish under each key. -/
def RemembersKeys (finish : α → Nat) (seen : κ → Set α) (memory : SortedMap κ α) : Prop :=
  ∀ key, IsFurthest finish (seen key) (memory.get? key)

variable (refusal : κ → α → α → ε) {key : κ}

theorem holdKey_clash (hmemory : RemembersKeys finish seen memory) {y : α} (hy : y ∈ seen key)
    (hclash : start x < finish y) (memory' : SortedMap κ α) :
    holdKey start finish refusal x memory key ≠ .ok memory' := by
  cases hprevious : clashing start finish (memory.get? key) x with
  | none =>
    exact absurd (((hmemory key).clashing_eq_none_iff start x).mp hprevious y hy)
      (Nat.not_le_of_lt hclash)
  | some previous =>
    simp [holdKey, hprevious]

theorem holdKey_pass (hmemory : RemembersKeys finish seen memory)
    (hpass : ∀ y ∈ seen key, finish y ≤ start x) :
    ∃ memory', holdKey start finish refusal x memory key = .ok memory' ∧
      RemembersKeys finish (Function.update seen key (insert x (seen key))) memory' := by
  have hnone := ((hmemory key).clashing_eq_none_iff start x).mpr hpass
  have hadvanced := (hmemory key).advance x
  unfold advance at hadvanced
  unfold holdKey
  rw [hnone]
  dsimp only
  split
  next hlater =>
    rw [if_pos hlater] at hadvanced
    refine ⟨_, rfl, fun other => ?_⟩
    by_cases hother : other = key
    · subst hother
      rwa [update_self, SortedMap.get?_insert_self]
    · rw [update_of_ne hother, SortedMap.get?_insert_of_ne _ hother]
      exact hmemory other
  next hearlier =>
    rw [if_neg hearlier] at hadvanced
    refine ⟨_, rfl, fun other => ?_⟩
    by_cases hother : other = key
    · subst hother
      rwa [update_self]
    · rw [update_of_ne hother]
      exact hmemory other

/-- An element that starts after all that hold one of its keys is remembered under them. -/
theorem holdKeys_pass (start : α → Nat) (refusal : κ → α → α → ε) (x : α) (hnodup : keys.Nodup)
    (hmemory : RemembersKeys finish seen memory)
    (hpass : ∀ key ∈ keys, ∀ y ∈ seen key, finish y ≤ start x) :
    ∃ memory', keys.foldlM (holdKey start finish refusal x) memory = .ok memory' ∧
      RemembersKeys finish (fun key => {y | y = x ∧ key ∈ keys ∨ y ∈ seen key}) memory' := by
  induction keys generalizing seen memory with
  | nil =>
    refine ⟨memory, rfl, fun key => ?_⟩
    simpa using hmemory key
  | cons key rest ih =>
    obtain ⟨hkey, hrest⟩ := nodup_cons.mp hnodup
    obtain ⟨next, hnext, hremembers⟩ :=
      holdKey_pass refusal hmemory (hpass key mem_cons_self)
    have hkept : ∀ other ∈ rest,
        Function.update seen key (insert x (seen key)) other = seen other := by
      intro other hother
      have hne : other ≠ key := fun heq => hkey (heq ▸ hother)
      exact update_of_ne hne _ _
    obtain ⟨final, hfinal, hmemory'⟩ := ih hrest hremembers fun other hother => by
      rw [hkept other hother]
      exact hpass other (mem_cons_of_mem _ hother)
    refine ⟨final, ?_, fun other => ?_⟩
    · rw [foldlM_cons, hnext]
      exact hfinal
    · convert hmemory' other using 1
      ext y
      by_cases hother : other = key
      · subst hother
        simp [hkey]
      · simp [hother]

/-- An element that starts before one that holds one of its keys has finished is refused. -/
theorem holdKeys_clash (hnodup : keys.Nodup) (hmemory : RemembersKeys finish seen memory)
    (hkey : key ∈ keys) {y : α} (hy : y ∈ seen key) (hclash : start x < finish y)
    (memory' : SortedMap κ α) :
    keys.foldlM (holdKey start finish refusal x) memory ≠ .ok memory' := by
  intro hfold
  induction keys generalizing seen memory with
  | nil => cases hkey
  | cons first rest ih =>
    obtain ⟨hfirst, hrest⟩ := nodup_cons.mp hnodup
    rw [foldlM_cons] at hfold
    obtain ⟨next, hnext, hfold⟩ := Except.bind_eq_ok.mp hfold
    by_cases hpass : ∀ y ∈ seen first, finish y ≤ start x
    · obtain ⟨next', hnext', hremembers⟩ := holdKey_pass refusal hmemory hpass
      rw [hnext, Except.ok.injEq] at hnext'
      subst hnext'
      rcases mem_cons.mp hkey with rfl | hkey
      · exact Nat.not_le_of_lt hclash (hpass y hy)
      · have hne : key ≠ first := fun heq => hfirst (heq ▸ hkey)
        exact ih hrest hremembers hkey (by rwa [update_of_ne hne]) hfold
    · push Not at hpass
      obtain ⟨z, hz, hlate⟩ := hpass
      exact holdKey_clash refusal hmemory hz hlate next hnext

end Keys

/-! ## Groups -/

/-- The group that is being visited and what is remembered of it. -/
structure Grouped (γ μ : Type) where
  current : Option γ
  memory : μ

section Groups

variable {α γ μ : Type} [LinearOrder γ] {group : α → γ} {fresh : μ}
  {remembers : Set α → μ → Prop} {seen : Set α} {state : Grouped γ μ} {x : α}

/-- Forgets what is remembered when another group begins. -/
def Grouped.enter (fresh : μ) (group : γ) (state : Grouped γ μ) : Grouped γ μ :=
  if state.current ≠ some group then ⟨some group, fresh⟩ else state

theorem Grouped.current_enter (fresh : μ) (group : γ) (state : Grouped γ μ) :
    (state.enter fresh group).current = some group := by
  unfold enter
  split
  · rfl
  next hsame => exact not_not.mp hsame

/-- A step within the group of its element. -/
def Grouped.step {ε : Type} (fresh : μ) (group : α → γ) (inner : μ → α → Except ε μ)
    (state : Grouped γ μ) (x : α) : Except ε (Grouped γ μ) := do
  let state := state.enter fresh (group x)
  let memory ← inner state.memory x
  pure { state with memory }

/-- Of the visited groups, which come in order, the memory knows the last. -/
def RemembersGroup (group : α → γ) (remembers : Set α → μ → Prop) (seen : Set α)
    (state : Grouped γ μ) : Prop :=
  match state.current with
  | none => seen = ∅
  | some current => (∃ y ∈ seen, group y = current) ∧ (∀ y ∈ seen, group y ≤ current) ∧
      remembers {y ∈ seen | group y = current} state.memory

theorem RemembersGroup.enter (hstate : RemembersGroup group remembers seen state)
    (hfresh : remembers ∅ fresh) (hsorted : ∀ y ∈ seen, group y ≤ group x) :
    remembers {y ∈ seen | group y = group x} (state.enter fresh (group x)).memory := by
  unfold RemembersGroup at hstate
  unfold Grouped.enter
  split
  next hother =>
    -- the group of the last element is over, and no group comes back
    have hnew : {y ∈ seen | group y = group x} = ∅ := by
      refine Set.eq_empty_of_forall_notMem fun y ⟨hy, hgroup⟩ => ?_
      cases hcurrent : state.current with
      | none =>
        rw [hcurrent] at hstate
        exact Set.notMem_empty y (hstate ▸ hy)
      | some current =>
        rw [hcurrent] at hstate hother
        obtain ⟨⟨last, hlast, hcurrent⟩, hmax, _⟩ := hstate
        have hle : current ≤ group x := hcurrent ▸ hsorted last hlast
        exact hother (congrArg some (hle.antisymm (hgroup ▸ hmax y hy)))
    rw [hnew]
    exact hfresh
  next hsame =>
    rw [not_not] at hsame
    rw [hsame] at hstate
    exact hstate.2.2

theorem RemembersGroup.visit {memory : μ} (hsorted : ∀ y ∈ seen, group y ≤ group x)
    (hmemory : remembers (insert x {y ∈ seen | group y = group x}) memory) :
    RemembersGroup group remembers (insert x seen) ⟨some (group x), memory⟩ := by
  refine ⟨⟨x, Set.mem_insert x _, rfl⟩, Set.forall_mem_insert.mpr ⟨le_rfl, hsorted⟩, ?_⟩
  have hgroup : {y ∈ insert x seen | group y = group x} =
      insert x {y ∈ seen | group y = group x} := by
    ext y
    simp only [Set.mem_ofPred_eq, Set.mem_insert_iff]
    constructor
    · rintro ⟨rfl | hy, hsame⟩
      · exact .inl rfl
      · exact .inr ⟨hy, hsame⟩
    · rintro (rfl | ⟨hy, hsame⟩)
      · exact ⟨.inl rfl, rfl⟩
      · exact ⟨.inr hy, hsame⟩
  rwa [hgroup]

end Groups

/-! ## Whole sweeps -/

section Sweeps

variable {α σ ε : Type} {step : σ → α → Except ε σ} {valid : α → Prop}
  {sorted clash : α → α → Prop} {remembers : Set α → σ → Prop}

/-- A step of a sweep passes exactly the elements that clash with none seen before. -/
structure SweepStep (step : σ → α → Except ε σ) (valid : α → Prop) (sorted clash : α → α → Prop)
    (remembers : Set α → σ → Prop) : Prop where
  pass : ∀ {seen memory x}, remembers seen memory → valid x → (∀ y ∈ seen, sorted y x) →
    (∀ y ∈ seen, ¬ clash y x) →
    ∃ memory', step memory x = .ok memory' ∧ remembers (insert x seen) memory'
  stop : ∀ {seen memory x y}, remembers seen memory → (∀ y ∈ seen, sorted y x) →
    y ∈ seen → clash y x → ∀ memory', step memory x ≠ .ok memory'

theorem SweepStep.foldlM_from (hstep : SweepStep step valid sorted clash remembers)
    (seen : List α) {rest : List α} {memory : σ} (hmemory : remembers {y | y ∈ seen} memory)
    (hvalid : ∀ x ∈ rest, valid x) (hsorted : (seen ++ rest).Pairwise sorted)
    (hseen : seen.Pairwise fun y x => ¬ clash y x) :
    (∃ final, rest.foldlM step memory = .ok final) ↔
      (seen ++ rest).Pairwise fun y x => ¬ clash y x := by
  induction rest generalizing seen memory with
  | nil =>
    rw [append_nil]
    exact iff_of_true ⟨memory, rfl⟩ hseen
  | cons x rest ih =>
    have hbefore : ∀ y ∈ {y | y ∈ seen}, sorted y x := fun y hy =>
      (pairwise_append.mp hsorted).2.2 y hy x mem_cons_self
    by_cases hpass : ∀ y ∈ {y | y ∈ seen}, ¬ clash y x
    · obtain ⟨next, hnext, hremembers⟩ :=
        hstep.pass hmemory (hvalid x mem_cons_self) hbefore hpass
      have hset : insert x {y | y ∈ seen} = {y | y ∈ seen ++ [x]} := by
        ext y
        simp [or_comm]
      have happend : seen ++ x :: rest = seen ++ [x] ++ rest := by simp
      have hnew : (seen ++ [x]).Pairwise fun y x => ¬ clash y x :=
        pairwise_append.mpr ⟨hseen, pairwise_singleton _ _, fun y hy z hz => by
          rw [mem_singleton.mp hz]
          exact hpass y hy⟩
      rw [happend] at hsorted ⊢
      rw [← ih (seen ++ [x]) (hset ▸ hremembers)
        (fun y hy => hvalid y (mem_cons_of_mem _ hy)) hsorted hnew, foldlM_cons, hnext]
      rfl
    · push Not at hpass
      obtain ⟨y, hy, hclash⟩ := hpass
      refine iff_of_false ?_ ?_
      · rintro ⟨final, hfinal⟩
        rw [foldlM_cons] at hfinal
        obtain ⟨next, hnext, _⟩ := Except.bind_eq_ok.mp hfinal
        exact hstep.stop hmemory hbefore hy hclash next hnext
      · exact fun hall =>
          (pairwise_append.mp hall).2.2 y hy x mem_cons_self hclash

/-- A sweep over sorted elements ends exactly if no two of them clash. -/
theorem SweepStep.foldlM_iff_pairwise (hstep : SweepStep step valid sorted clash remembers)
    {items : List α} {memory : σ} (hmemory : remembers ∅ memory)
    (hvalid : ∀ x ∈ items, valid x) (hsorted : items.Pairwise sorted) :
    (∃ final, items.foldlM step memory = .ok final) ↔
      items.Pairwise fun y x => ¬ clash y x := by
  have hempty : ({y | y ∈ ([] : List α)} : Set α) = ∅ := by simp
  exact hstep.foldlM_from [] (hempty ▸ hmemory) hvalid hsorted List.Pairwise.nil

/-- A sweep that forgets between groups finds the clashes within each of them. -/
theorem SweepStep.grouped {γ : Type} [LinearOrder γ]
    (hstep : SweepStep step valid (fun _ _ => True) clash remembers) (group : α → γ) {fresh : σ}
    (hfresh : remembers ∅ fresh) :
    SweepStep (Grouped.step fresh group step) valid (fun y x => group y ≤ group x)
      (fun y x => group y = group x ∧ clash y x) (RemembersGroup group remembers) where
  pass {seen state x} hstate hvalid hsorted hpass := by
    have hmemory := hstate.enter hfresh hsorted
    obtain ⟨memory, hinner, hremembers⟩ := hstep.pass hmemory hvalid (fun _ _ => trivial)
      fun y hy hclash => hpass y hy.1 ⟨hy.2, hclash⟩
    refine ⟨⟨(state.enter fresh (group x)).current, memory⟩, ?_, ?_⟩
    · rw [Grouped.step, hinner]
      rfl
    · rw [Grouped.current_enter]
      exact .visit hsorted hremembers
  stop {seen state x y} hstate hsorted hy hclash state' hfold := by
    have hmemory := hstate.enter hfresh hsorted
    obtain ⟨memory, hinner, _⟩ := Except.bind_eq_ok.mp hfold
    exact hstep.stop hmemory (fun _ _ => trivial) ⟨hy, hclash.1⟩ hclash.2 memory hinner

/-- Half-open intervals that intersect. -/
def Intersect (start finish : α → Nat) (x y : α) : Prop :=
  start x < finish y ∧ start y < finish x

/-- Where the elements that matter to each other stand in the order of their starts, the
later starts before the earlier finishes exactly if the two intersect. -/
theorem pairwise_clash_iff_intersect {start finish : α → Nat} (shared : α → α → Prop)
    (hsymm : ∀ {x y}, shared x y → shared y x) {items ordered : List α}
    (hperm : ordered.Perm items) (hproper : ∀ x ∈ items, start x < finish x)
    (hordered : ordered.Pairwise fun y x => shared y x → start y ≤ start x) :
    (ordered.Pairwise fun y x => ¬ (shared y x ∧ start x < finish y)) ↔
      items.Pairwise fun y x => ¬ (shared y x ∧ Intersect start finish y x) := by
  have hsymm' : ∀ {x y}, ¬ (shared x y ∧ Intersect start finish x y) →
      ¬ (shared y x ∧ Intersect start finish y x) :=
    fun hapart hmeet => hapart ⟨hsymm hmeet.1, hmeet.2.2, hmeet.2.1⟩
  rw [← hperm.pairwise_iff hsymm']
  constructor
  · intro hnone
    exact hnone.imp fun hapart hmeet => hapart ⟨hmeet.1, hmeet.2.2⟩
  · intro hnone
    refine (hordered.and hnone).imp_of_mem fun {y x} _ hx hboth hclash => ?_
    have hstart := hboth.1 hclash.1
    exact hboth.2 ⟨hclash.1,
      Nat.lt_of_le_of_lt hstart (hproper x (hperm.mem_iff.mp hx)), hclash.2⟩

end Sweeps

end Lib
