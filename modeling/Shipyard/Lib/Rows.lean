import Mathlib.Data.List.Sort

/-!
# Editing the rows of a table in place

A table is a list of rows. An edit looks for the first selected row and
replaces it; a sweep makes one such edit for each distinct key of a list of
requests. Both keep every other row where it is, so what an edit does to the
table is a relation between the rows at equal positions.
-/

namespace Lib

open List

variable {α ε ρ κ : Type}

/-- Replace the first selected row by the outcome of `change`, and report it.
`none` when no row is selected; a failing change fails the edit. -/
def modifyFirst (select : α → Bool) (change : α → Except ε α) :
    List α → Except ε (Option (List α × α))
  | [] => .ok none
  | row :: rest =>
    if select row then
      match change row with
      | .ok row' => .ok (some (row' :: rest, row'))
      | .error error => .error error
    else
      match modifyFirst select change rest with
      | .ok (some (rest', row')) => .ok (some (row :: rest', row'))
      | .ok none => .ok none
      | .error error => .error error

variable {change : α → Except ε α} {select : α → Bool} {rows rows' : List α}

/-- What an edit does: it replaces the first selected row, finds none, or fails on a
selected row. -/
theorem modifyFirst_spec (select : α → Bool) (change : α → Except ε α) (rows : List α) :
    match modifyFirst select change rows with
    | .ok (some (rows', row')) => ∃ before row after, rows = before ++ row :: after ∧
        (∀ r ∈ before, select r = false) ∧ select row = true ∧ change row = .ok row' ∧
        rows' = before ++ row' :: after
    | .ok none => ∀ row ∈ rows, select row = false
    | .error error => ∃ row ∈ rows, select row = true ∧ change row = .error error := by
  fun_induction modifyFirst select change rows with
  | case1 => nofun
  | case2 row rest hselect row' hchange =>
    exact ⟨[], row, rest, rfl, nofun, hselect, hchange, rfl⟩
  | case3 row rest hselect error hchange => exact ⟨row, mem_cons_self, hselect, hchange⟩
  | case4 head rest hselect rest' row' hrest ih =>
    rw [hrest] at ih
    obtain ⟨before, row, after, rfl, hbefore, hrow, hchange, rfl⟩ := ih
    refine ⟨head :: before, row, after, rfl, ?_, hrow, hchange, rfl⟩
    simpa [hselect] using hbefore
  | case5 head rest hselect hrest ih =>
    rw [hrest] at ih
    simpa [hselect] using ih
  | case6 head rest hselect error hrest ih =>
    rw [hrest] at ih
    obtain ⟨row, hrow, hfailed⟩ := ih
    exact ⟨row, mem_cons_of_mem _ hrow, hfailed⟩

theorem modifyFirst_some {row' : α}
    (hedit : modifyFirst select change rows = .ok (some (rows', row'))) :
    ∃ before row after, rows = before ++ row :: after ∧ (∀ r ∈ before, select r = false) ∧
      select row = true ∧ change row = .ok row' ∧ rows' = before ++ row' :: after := by
  simpa only [hedit] using modifyFirst_spec select change rows

theorem modifyFirst_none (hedit : modifyFirst select change rows = .ok none) :
    ∀ row ∈ rows, select row = false := by
  simpa only [hedit] using modifyFirst_spec select change rows

theorem modifyFirst_error {error : ε} (hedit : modifyFirst select change rows = .error error) :
    ∃ row ∈ rows, select row = true ∧ change row = .error error := by
  simpa only [hedit] using modifyFirst_spec select change rows

variable {R : α → α → Prop}

theorem forall₂_replace (hrefl : ∀ row, R row row) {row row' : α} (hrow : R row row')
    (before after : List α) : List.Forall₂ R (before ++ row :: after) (before ++ row' :: after) :=
  rel_append (forall₂_same.mpr fun x _ => hrefl x)
    (.cons hrow (forall₂_same.mpr fun x _ => hrefl x))

/-- One edit for each request whose key was not met before. A request that
selects nothing, or whose change fails, is skipped. The changed rows are
returned in request order. -/
def sweep [DecidableEq κ] (key : ρ → κ) (select : ρ → α → Bool)
    (change : ρ → α → Except ε α) : List κ → List ρ → List α → List α × List α
  | _, [], rows => (rows, [])
  | seen, request :: rest, rows =>
    if key request ∈ seen then sweep key select change seen rest rows
    else
      match modifyFirst (select request) (change request) rows with
      | .ok (some (rows', row)) =>
        let swept := sweep key select change (key request :: seen) rest rows'
        (swept.1, row :: swept.2)
      | _ => sweep key select change (key request :: seen) rest rows

/-- The rows after an edit; a failing edit leaves them. -/
def editFirst (select : α → Bool) (change : α → Except ε α) (rows : List α) : List α :=
  match modifyFirst select change rows with
  | .ok (some (rows', _)) => rows'
  | _ => rows

/-- A request with a new key edits the rows before the rest of the sweep. -/
theorem sweep_rows_cons [DecidableEq κ] {key : ρ → κ} {select : ρ → α → Bool}
    {change : ρ → α → Except ε α} {seen : List κ} {request : ρ} (hnew : key request ∉ seen)
    (rest : List ρ) (rows : List α) :
    (sweep key select change seen (request :: rest) rows).1 =
      (sweep key select change (key request :: seen) rest
        (editFirst (select request) (change request) rows)).1 := by
  rw [sweep, if_neg hnew, editFirst]
  split <;> rfl

theorem forall₂_trans (htrans : ∀ a b c, R a b → R b c → R a c) {xs ys zs : List α}
    (hxy : List.Forall₂ R xs ys) (hyz : List.Forall₂ R ys zs) : List.Forall₂ R xs zs := by
  induction hxy generalizing zs with
  | nil => exact hyz
  | cons hab _ ih =>
    cases hyz with
    | cons hbc htail => exact .cons (htrans _ _ _ hab hbc) (ih htail)

/-- What a sweep does: each request edits a row, or is passed over. -/
inductive Swept (key : ρ → κ) (select : ρ → α → Bool) (change : ρ → α → Except ε α) :
    List κ → List ρ → List α → List α → List α → Prop
  | done {seen rows} : Swept key select change seen [] rows rows []
  | skip {seen seen' request rest rows rows' returned} (hseen : seen ⊆ seen')
      (hrest : Swept key select change seen' rest rows rows' returned) :
      Swept key select change seen (request :: rest) rows rows' returned
  | edit {seen request rest before row row' after rows' returned} (hnew : key request ∉ seen)
      (hselect : select request row = true) (hchange : change request row = .ok row')
      (hrest : Swept key select change (key request :: seen) rest (before ++ row' :: after) rows'
        returned) :
      Swept key select change seen (request :: rest) (before ++ row :: after) rows'
        (row' :: returned)

theorem swept_sweep [DecidableEq κ] (key : ρ → κ) (select : ρ → α → Bool)
    (change : ρ → α → Except ε α) (seen : List κ) (requests : List ρ) (rows : List α) :
    Swept key select change seen requests rows (sweep key select change seen requests rows).1
      (sweep key select change seen requests rows).2 := by
  induction requests generalizing seen rows with
  | nil => exact .done
  | cons request rest ih =>
    unfold sweep
    split
    · exact .skip (List.Subset.refl seen) (ih _ _)
    next hnew =>
      split
      next rows' row' hedit =>
        obtain ⟨before, row, after, rfl, -, hselect, hchange, rfl⟩ := modifyFirst_some hedit
        exact .edit hnew hselect hchange (ih _ _)
      · exact .skip (subset_cons_self _ _) (ih _ _)

/-- Rows related at equal positions: every later row has an earlier one. -/
theorem forall₂_exists_left {β : Type} {R : α → β → Prop} {xs : List α} {ys : List β}
    (hrel : List.Forall₂ R xs ys) {y : β} (hy : y ∈ ys) : ∃ x ∈ xs, R x y := by
  induction hrel with
  | nil => cases hy
  | cons hab _ ih =>
    rcases mem_cons.mp hy with rfl | hy
    · exact ⟨_, mem_cons_self, hab⟩
    · obtain ⟨x, hx, hxy⟩ := ih hy
      exact ⟨x, mem_cons_of_mem _ hx, hxy⟩

/-- Rows related at equal positions: every earlier row has a later one. -/
theorem forall₂_exists_right {β : Type} {R : α → β → Prop} {xs : List α} {ys : List β}
    (hrel : List.Forall₂ R xs ys) {x : α} (hx : x ∈ xs) : ∃ y ∈ ys, R x y :=
  forall₂_exists_left (List.Forall₂.flip hrel) hx

section Sweeps

variable {key : ρ → κ} {select : ρ → α → Bool} {change : ρ → α → Except ε α} {seen : List κ}
  {requests : List ρ} {rows rows' returned : List α}
  {row' : α}

/-- A sweep relates the rows at equal positions by every preorder that its
single changes respect. -/
theorem Swept.forall₂ {R : α → α → Prop} (hrefl : ∀ row, R row row)
    (htrans : ∀ a b c, R a b → R b c → R a c)
    (hswept : Swept key select change seen requests rows rows' returned)
    (hchange : ∀ request ∈ requests, ∀ row row', select request row = true →
      change request row = .ok row' → R row row') : List.Forall₂ R rows rows' := by
  induction hswept with
  | done => exact forall₂_same.mpr fun row _ => hrefl row
  | skip _ _ ih => exact ih fun r hr => hchange r (mem_cons_of_mem _ hr)
  | edit _ hselect hrow _ ih =>
    exact forall₂_trans htrans
      (forall₂_replace hrefl (hchange _ mem_cons_self _ _ hselect hrow) _ _)
      (ih fun r hr => hchange r (mem_cons_of_mem _ hr))

/-- Every row that a sweep returns is the outcome of a change for a request, of
a row that comes from a row of the table. -/
theorem Swept.origin {R : α → α → Prop} (hrefl : ∀ row, R row row)
    (htrans : ∀ a b c, R a b → R b c → R a c)
    (hswept : Swept key select change seen requests rows rows' returned)
    (hchange : ∀ request ∈ requests, ∀ row row', select request row = true →
      change request row = .ok row' → R row row') (hreturned : row' ∈ returned) :
    ∃ row ∈ rows, ∃ middle, R row middle ∧ ∃ request ∈ requests,
      select request middle = true ∧ change request middle = .ok row' := by
  induction hswept with
  | done => cases hreturned
  | skip _ _ ih =>
    obtain ⟨row, hrow, middle, hR, request, hmem, hlast⟩ :=
      ih (fun r hr => hchange r (mem_cons_of_mem _ hr)) hreturned
    exact ⟨row, hrow, middle, hR, request, mem_cons_of_mem _ hmem, hlast⟩
  | edit _ hselect hrow _ ih =>
    rcases mem_cons.mp hreturned with rfl | hreturned
    · exact ⟨_, by simp, _, hrefl _, _, mem_cons_self, hselect, hrow⟩
    · obtain ⟨first, hfirst, middle, hmiddle, request, hmem, hlast⟩ :=
        ih (fun r hr => hchange r (mem_cons_of_mem _ hr)) hreturned
      obtain ⟨row, hrow, hR⟩ := forall₂_exists_left
        (forall₂_replace hrefl (hchange _ mem_cons_self _ _ hselect hrow) _ _) hfirst
      exact ⟨row, hrow, middle, htrans _ _ _ hR hmiddle, request, mem_cons_of_mem _ hmem,
        hlast⟩

/-- A sweep keeps the rows that no request selects. -/
theorem Swept.keeps (hswept : Swept key select change seen requests rows rows' returned) {row : α}
    (hrow : row ∈ rows) (hselect : ∀ request ∈ requests, select request row = false) :
    row ∈ rows' := by
  induction hswept with
  | done => exact hrow
  | skip _ _ ih => exact ih hrow fun other hother => hselect other (mem_cons_of_mem _ hother)
  | @edit _ request _ _ old _ _ _ _ _ hold _ _ ih =>
    refine ih ?_ fun other hother => hselect other (mem_cons_of_mem _ hother)
    have hne : row ≠ old := by
      rintro rfl
      exact absurd (hold.symm.trans (hselect request mem_cons_self)) nofun
    simp only [mem_append, mem_cons, hne, false_or] at hrow ⊢
    exact hrow.imp_right .inr

/-- What a sweep returns is among its rows at the end, when a changed row is
selected no more. -/
theorem Swept.returned_mem (hswept : Swept key select change seen requests rows rows' returned)
    (hdone : ∀ request row row', select request row = true → change request row = .ok row' →
      ∀ other, select other row' = false) (hreturned : row' ∈ returned) : row' ∈ rows' := by
  induction hswept with
  | done => cases hreturned
  | skip _ _ ih => exact ih hreturned
  | edit _ hselect hchange hrest ih =>
    rcases mem_cons.mp hreturned with rfl | hreturned
    · exact hrest.keeps (by simp) fun other _ => hdone _ _ _ hselect hchange other
    · exact ih hreturned

variable {rowKey : α → κ} (hkey : ∀ request row row', select request row = true →
  change request row = .ok row' → rowKey row' = key request)
  (hswept : Swept key select change seen requests rows rows' returned)

include hkey hswept

/-- The returned rows belong to requests, in their order. -/
theorem Swept.returned_sublist : (returned.map rowKey).Sublist (requests.map key) := by
  induction hswept with
  | done => exact .slnil
  | skip _ _ ih => exact ih.cons _
  | edit _ hselect hchange _ ih =>
    rw [map_cons, map_cons, hkey _ _ _ hselect hchange]
    exact ih.cons_cons _

theorem Swept.returned_unseen (hreturned : row' ∈ returned) : rowKey row' ∉ seen := by
  induction hswept with
  | done => cases hreturned
  | skip hseen _ ih => exact fun hmem => ih hreturned (hseen hmem)
  | edit hnew hselect hchange _ ih =>
    rcases mem_cons.mp hreturned with rfl | hreturned
    · rw [hkey _ _ _ hselect hchange]
      exact hnew
    · exact fun hmem => ih hreturned (mem_cons_of_mem _ hmem)

/-- A sweep returns at most one row for each key. -/
theorem Swept.returned_nodup : (returned.map rowKey).Nodup := by
  induction hswept with
  | done => exact nodup_nil
  | skip _ _ ih => exact ih
  | edit _ hselect hchange hrest ih =>
    rw [map_cons, nodup_cons]
    refine ⟨fun hmem => ?_, ih⟩
    obtain ⟨other, hother, heq⟩ := mem_map.mp hmem
    refine hrest.returned_unseen hkey hother ?_
    rw [heq, hkey _ _ _ hselect hchange]
    exact mem_cons_self

end Sweeps

/-- A column that every row keeps is the same list before and after. -/
theorem forall₂_map_eq {f : α → κ} (hcolumn : ∀ a b, R a b → f a = f b) {xs ys : List α}
    (hrel : List.Forall₂ R xs ys) : xs.map f = ys.map f := by
  induction hrel with
  | nil => rfl
  | cons hab _ ih => rw [map_cons, map_cons, hcolumn _ _ hab, ih]

end Lib
