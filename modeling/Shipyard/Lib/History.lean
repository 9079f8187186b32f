import Mathlib.Logic.Basic
import Mathlib.Logic.Relation
import Mathlib.Tactic.ByContra

/-!
# Histories of trees

Commits with their parents and the tree each of them holds, merge bases, and
listings of what differs between two trees. Two listings that name the same files,
with the same contents, from the same places, describe trees that agree on what
they list.
-/

namespace Lib

/-- Commits with their parents and trees. A tree gives each path its entry. -/
structure History (Commit Path Entry : Type) where
  parents : Commit → List Commit
  tree : Commit → Path → Option Entry

namespace History

variable {Commit Path Entry : Type} (history : History Commit Path Entry)

/-- A commit descends from its parents, from theirs, and from itself. -/
def Descends : Commit → Commit → Prop :=
  Relation.ReflTransGen fun child parent => parent ∈ history.parents child

/-- A common ancestor that no other one descends from. -/
structure IsMergeBase (left right base : Commit) : Prop where
  ofLeft : history.Descends left base
  ofRight : history.Descends right base
  best : ∀ other, history.Descends left other → history.Descends right other →
    history.Descends other base → other = base

variable {history}

/-- What holds of a commit and passes to parents holds of all it descends from. -/
theorem Descends.closed {holds : Commit → Prop}
    (hparents : ∀ child, holds child → ∀ parent ∈ history.parents child, holds parent)
    {commit other : Commit} (hdescends : history.Descends commit other) (hcommit : holds commit) :
    holds other := by
  induction hdescends with
  | refl => exact hcommit
  | tail _ hparent ih => exact hparents _ ih _ hparent

end History

/-! ## What differs between two trees -/

section Listing

variable {Path Status Blob Mode : Type} {removed : Status}

/-- A listing gives each listed path its status and content, and each path that was
renamed the path it was renamed from. It lists exactly what differs: a path with the
status `removed` is gone, any other has the listed content, and a path something was
renamed from is gone unless it is listed itself. -/
structure Lists (removed : Status) (before after : Path → Option (Blob × Mode))
    (listed : Path → Option (Status × Blob)) (source : Path → Option Path) : Prop where
  gone : ∀ path blob, listed path = some (removed, blob) → after path = none
  kept : ∀ path status blob, listed path = some (status, blob) → status ≠ removed →
    ∃ mode, after path = some (blob, mode)
  moved : ∀ name path, source name = some path → listed path = none → after path = none
  exactly : ∀ path, before path ≠ after path ↔
    (listed path).isSome = true ∨ ∃ name, source name = some path

variable {before after before' after' : Path → Option (Blob × Mode)}
variable {listed listed' : Path → Option (Status × Blob)} {source source' : Path → Option Path}

theorem Lists.untouched (hlists : Lists removed before after listed source) {path : Path}
    (hlisted : listed path = none) (hsource : ∀ name, source name ≠ some path) :
    before path = after path := by
  by_contra hdiffers
  rcases (hlists.exactly path).mp hdiffers with hsome | ⟨name, hname⟩
  · rw [hlisted] at hsome
    cases hsome
  · exact hsource name hname

/-- Two listings say the same of a path: the same status, and the same content unless
the path is removed. -/
structure SameChange (removed : Status) (change change' : Option (Status × Blob)) : Prop where
  status : change'.map Prod.fst = change.map Prod.fst
  blob : ∀ status blob, change = some (status, blob) → status ≠ removed →
    change' = some (status, blob)

theorem SameChange.of_eq {change change' : Option (Status × Blob)} (heq : change' = change) :
    SameChange removed change change' where
  status := by rw [heq]
  blob := fun _ _ hchange _ => heq.trans hchange

theorem SameChange.eq_none {change change' : Option (Status × Blob)}
    (hsame : SameChange removed change change') (hnone : change = none) : change' = none := by
  have hstatus := hsame.status
  rw [hnone] at hstatus
  exact Option.map_eq_none_iff.mp hstatus

/-- Two listings that say the same of a path, with the same mode where it stays, are
of trees that agree on it. -/
theorem Lists.agree_at (hlists : Lists removed before after listed source)
    (hlists' : Lists removed before' after' listed' source') {path : Path}
    (hlisted : SameChange removed (listed path) (listed' path))
    (hmode : ∀ status blob, listed path = some (status, blob) → status ≠ removed →
      (after' path).map Prod.snd = (after path).map Prod.snd)
    (htouched : (listed path).isSome = true ∨
      (∃ name, source name = some path) ∧ ∃ name, source' name = some path) :
    after' path = after path := by
  cases hpath : listed path with
  | none =>
    rw [hpath] at htouched
    rcases htouched with hsome | ⟨⟨name, hname⟩, ⟨name', hname'⟩⟩
    · cases hsome
    · rw [hlists.moved name path hname hpath,
        hlists'.moved name' path hname' (hlisted.eq_none hpath)]
  | some change =>
    obtain ⟨status, blob⟩ := change
    by_cases hremoved : status = removed
    · subst hremoved
      have hstatus := hlisted.status
      rw [hpath] at hstatus
      obtain ⟨⟨status', blob'⟩, hpath', rfl⟩ := Option.map_eq_some_iff.mp hstatus
      rw [hlists.gone path blob hpath, hlists'.gone path blob' hpath']
    · obtain ⟨mode, hafter⟩ := hlists.kept path status blob hpath hremoved
      obtain ⟨mode', hafter'⟩ :=
        hlists'.kept path status blob (hlisted.blob status blob hpath hremoved) hremoved
      have hmodes := hmode status blob hpath hremoved
      rw [hafter, hafter'] at hmodes ⊢
      cases hmodes
      rfl

/-- Two listings that say the same of every path: the trees agree on what differs, and
the second one is as before on the rest. -/
theorem Lists.agree (hlists : Lists removed before after listed source)
    (hlists' : Lists removed before' after' listed' source')
    (hlisted : ∀ path, SameChange removed (listed path) (listed' path))
    (hsource : ∀ path, source' path = source path)
    (hmode : ∀ path status blob, listed path = some (status, blob) → status ≠ removed →
      (after' path).map Prod.snd = (after path).map Prod.snd) (path : Path) :
    (before path ≠ after path → after' path = after path) ∧
      (before path = after path → after' path = before' path) := by
  constructor
  · intro hdiffers
    refine hlists.agree_at hlists' (hlisted path) (hmode path) ?_
    refine ((hlists.exactly path).mp hdiffers).imp_right fun ⟨name, hname⟩ => ?_
    exact ⟨⟨name, hname⟩, name, (hsource name).trans hname⟩
  · intro hsame
    have hnot := mt (hlists.exactly path).mpr (not_not.mpr hsame)
    rw [not_or, Bool.not_eq_true, Option.isSome_eq_false_iff, Option.isNone_iff_eq_none,
      not_exists] at hnot
    refine (hlists'.untouched ((hlisted path).eq_none hnot.1) fun name hname => ?_).symm
    exact hnot.2 name ((hsource name).symm.trans hname)

end Listing

end Lib
