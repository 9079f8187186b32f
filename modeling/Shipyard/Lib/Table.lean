import Shipyard.Lib.Rows
import Mathlib.Data.List.Nodup

/-!
# Keyed rows and the greatest row

`upsert` replaces the row of a key or appends a new one. `maxBy` is the choice
of an iterator's `max_by`: a fold that moves on unless the best row so far is
greater, so that the last of several greatest rows wins. Its comparison need
not be an order.
-/

namespace Lib

open List

variable {α κ : Type}

/-- Replace the first row with the key of `row`, or append `row`. -/
def upsert [DecidableEq κ] (key : α → κ) (row : α) (rows : List α) : List α :=
  match modifyFirst (ε := Empty) (fun old => key old = key row) (fun _ => .ok row) rows with
  | .ok (some (rows, _)) => rows
  | .ok none => rows ++ [row]

theorem upsert_cases [DecidableEq κ] (key : α → κ) (row : α) (rows : List α) :
    (∃ before old after, rows = before ++ old :: after ∧ key old = key row ∧
      upsert key row rows = before ++ row :: after) ∨
    (∀ old ∈ rows, key old ≠ key row) ∧ upsert key row rows = rows ++ [row] := by
  unfold upsert
  split
  next rows' last hedit =>
    obtain ⟨before, old, after, rfl, -, hkey, hlast, rfl⟩ := modifyFirst_some hedit
    cases hlast
    exact .inl ⟨before, old, after, rfl, of_decide_eq_true hkey, rfl⟩
  next hedit =>
    refine .inr ⟨fun old hold => ?_, rfl⟩
    exact of_decide_eq_false (modifyFirst_none hedit old hold)

variable {rows : List α}

variable {key : α → κ} {row : α}

theorem upsert_keys_nodup [DecidableEq κ] (hnodup : (rows.map key).Nodup) (row : α) :
    ((upsert key row rows).map key).Nodup := by
  rcases upsert_cases key row rows with ⟨before, old, after, rfl, hkey, heq⟩ | ⟨hnew, heq⟩
  · rw [heq]
    simpa [hkey] using hnodup
  · rw [heq, map_append, nodup_append]
    refine ⟨hnodup, nodup_singleton _, ?_⟩
    intro k hk other hother
    obtain ⟨old, hold, rfl⟩ := mem_map.mp hk
    rw [mem_singleton.mp hother]
    exact hnew old hold

/-- With unique keys, the new row stands for the rows of its key. -/
theorem mem_upsert [DecidableEq κ] (hnodup : (rows.map key).Nodup) {other : α} :
    other ∈ upsert key row rows ↔ other = row ∨ other ∈ rows ∧ key other ≠ key row := by
  rcases upsert_cases key row rows with ⟨before, old, after, rfl, hkey, heq⟩ | ⟨hnew, heq⟩
  · rw [heq]
    rw [map_append, map_cons, nodup_middle, nodup_cons] at hnodup
    have hothers : ∀ r, r ∈ before ∨ r ∈ after → key r ≠ key row := by
      intro r hr hsame
      refine hnodup.1 ?_
      rw [hkey, ← hsame, ← map_append]
      exact mem_map_of_mem (mem_append.mpr hr)
    simp only [mem_append, mem_cons]
    constructor
    · rintro (hbefore | rfl | hafter)
      · exact .inr ⟨.inl hbefore, hothers other (.inl hbefore)⟩
      · exact .inl rfl
      · exact .inr ⟨.inr (.inr hafter), hothers other (.inr hafter)⟩
    · rintro (rfl | ⟨hbefore | rfl | hafter, hne⟩)
      · exact .inr (.inl rfl)
      · exact .inl hbefore
      · exact absurd hkey hne
      · exact .inr (.inr hafter)
  · rw [heq, mem_append, mem_singleton, or_comm]
    exact or_congr_right ⟨fun hother => ⟨hother, hnew other hother⟩, And.left⟩

/-! ## The greatest row -/

/-- The fold of `max_by`: keep the best row while it is greater. -/
def maxFrom (cmp : α → α → Ordering) (best : α) (rows : List α) : α :=
  rows.foldl (fun best row => if cmp best row = .gt then best else row) best

def maxBy (cmp : α → α → Ordering) : List α → Option α
  | [] => none
  | first :: rest => some (maxFrom cmp first rest)

/-- The last row with the greatest key. -/
def maxByKey [Ord κ] (key : α → κ) (rows : List α) : Option α :=
  maxBy (fun left right => compare (key left) (key right)) rows

/-- A fold that goes on with one of two rows each time ends in one of the rows, and
above all of them. -/
theorem foldl_top {step : α → α → α} {r : α → α → Prop} (hrefl : ∀ row, r row row)
    (htrans : ∀ {first second third}, r first second → r second third → r first third)
    (hstep : ∀ best row, step best row = best ∧ r row best ∨ step best row = row ∧ r best row)
    (rows : List α) (best : α) :
    rows.foldl step best ∈ best :: rows ∧ ∀ row ∈ best :: rows, r row (rows.foldl step best) := by
  induction rows generalizing best with
  | nil => simp [hrefl]
  | cons row rest ih =>
    obtain ⟨hmem, htop⟩ := ih (step best row)
    rw [forall_mem_cons] at htop
    rw [foldl_cons, forall_mem_cons, forall_mem_cons]
    rcases hstep best row with ⟨hsame, hle⟩ | ⟨hsame, hle⟩
    · rw [hsame] at hmem htop ⊢
      refine ⟨?_, htop.1, htrans hle htop.1, htop.2⟩
      exact mem_cons.mpr ((mem_cons.mp hmem).imp_right (.tail _))
    · rw [hsame] at hmem htop ⊢
      exact ⟨.tail _ hmem, htrans hle htop.1, htop⟩

theorem maxFrom_mem (cmp : α → α → Ordering) (best : α) (rows : List α) :
    maxFrom cmp best rows ∈ best :: rows := by
  refine (foldl_top (r := fun _ _ => True) (fun _ => trivial) (fun _ _ => trivial) ?_ rows best).1
  intro best row
  split <;> simp

theorem maxBy_mem {cmp : α → α → Ordering} (hmax : maxBy cmp rows = some row) : row ∈ rows := by
  cases rows with
  | nil => cases hmax
  | cons first rest =>
    cases hmax
    exact maxFrom_mem cmp first rest

theorem le_maxFrom [LinearOrder κ] (key : α → κ) (best : α) (rows : List α) :
    ∀ row ∈ best :: rows,
      key row ≤ key (maxFrom (fun left right => compare (key left) (key right)) best rows) := by
  refine (foldl_top (r := fun first second => key first ≤ key second) (fun _ => le_rfl) le_trans ?_
    rows best).2
  intro best row
  split
  next hgt => exact .inl ⟨rfl, (compare_gt_iff_gt.mp hgt).le⟩
  next hle => exact .inr ⟨rfl, not_lt.mp fun hlt => hle (compare_gt_iff_gt.mpr hlt)⟩

theorem le_maxByKey [LinearOrder κ] {best : α} (hmax : maxByKey key rows = some best)
    (hrow : row ∈ rows) : key row ≤ key best := by
  cases rows with
  | nil => cases hrow
  | cons first rest =>
    cases hmax
    exact le_maxFrom key first rest row hrow

end Lib
