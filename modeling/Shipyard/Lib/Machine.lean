import Mathlib.Logic.Relation

/-!
# Machines and their runs

A machine takes one step per label; everything that is not determined by the
state is part of the label. A run may be restricted to steps that meet a
condition on the state before the step and the label.
-/

namespace Lib

/-- Initial states, and the effect of each label; `none` when it is not enabled. -/
structure Machine (σ ℓ : Type) where
  init : σ → Prop
  exec : σ → ℓ → Option σ

namespace Machine

variable {σ ℓ : Type} (M : Machine σ ℓ) (ok : σ → ℓ → Prop)

/-- One step by a label that meets the condition. -/
def StepWhen (s s' : σ) : Prop := ∃ l, ok s l ∧ M.exec s l = some s'

/-- A run from one state to another, all of whose steps meet the condition. -/
def RunWhen (s s' : σ) : Prop := Relation.ReflTransGen (M.StepWhen ok) s s'

/-- The states of the runs that start initially and meet the condition. -/
def ReachableWhen (s : σ) : Prop := ∃ s₀, M.init s₀ ∧ M.RunWhen ok s₀ s

/-- The states of all runs that start initially. -/
def Reachable (s : σ) : Prop := M.ReachableWhen (fun _ _ => True) s

variable {M ok}

/-- What every step that meets the condition preserves, such a run preserves. -/
theorem RunWhen.preserves {I : σ → Prop}
    (hstep : ∀ s l s', I s → ok s l → M.exec s l = some s' → I s') {s s' : σ}
    (hrun : M.RunWhen ok s s') (hs : I s) : I s' := by
  induction hrun with
  | refl => exact hs
  | tail _ hlast ih =>
    obtain ⟨l, hok, hexec⟩ := hlast
    exact hstep _ l _ ih hok hexec

/-- What holds initially and survives every step that meets the condition
holds in every state such a run reaches. -/
theorem ReachableWhen.invariant {I : σ → Prop} (hinit : ∀ s, M.init s → I s)
    (hstep : ∀ s l s', I s → ok s l → M.exec s l = some s' → I s') {s : σ}
    (hreach : M.ReachableWhen ok s) : I s := by
  obtain ⟨s₀, hs₀, hrun⟩ := hreach
  exact hrun.preserves hstep (hinit s₀ hs₀)

theorem ReachableWhen.start {s : σ} (hinit : M.init s) : M.ReachableWhen ok s :=
  ⟨s, hinit, .refl⟩

/-- A reached state and one more step that meets the condition. -/
theorem ReachableWhen.step {s s' : σ} {l : ℓ} (hreach : M.ReachableWhen ok s) (hok : ok s l)
    (hexec : M.exec s l = some s') : M.ReachableWhen ok s' := by
  obtain ⟨s₀, hs₀, hrun⟩ := hreach
  exact ⟨s₀, hs₀, hrun.tail ⟨l, hok, hexec⟩⟩

variable (M ok)

/-- Execute a list of labels, stopping where one is not enabled or does not
meet the condition. -/
def execAll [∀ s l, Decidable (ok s l)] : σ → List ℓ → Option σ
  | s, [] => some s
  | s, l :: rest =>
    if ok s l then
      match M.exec s l with
      | some s' => execAll s' rest
      | none => none
    else none

variable {M ok}

theorem RunWhen.of_execAll [∀ s l, Decidable (ok s l)] {s s' : σ} {labels : List ℓ}
    (hrun : M.execAll ok s labels = some s') : M.RunWhen ok s s' := by
  induction labels generalizing s with
  | nil =>
    cases Option.some.inj hrun
    exact .refl
  | cons l rest ih =>
    unfold execAll at hrun
    split at hrun
    next hok =>
      split at hrun
      next next hexec => exact .head ⟨l, hok, hexec⟩ (ih hrun)
      · cases hrun
    · cases hrun

/-- A list of labels that executes from an initial state reaches its end. -/
theorem ReachableWhen.of_execAll [∀ s l, Decidable (ok s l)] {s₀ s : σ} {labels : List ℓ}
    (hinit : M.init s₀) (hrun : M.execAll ok s₀ labels = some s) : M.ReachableWhen ok s :=
  ⟨s₀, hinit, RunWhen.of_execAll hrun⟩

end Machine

end Lib
