import Mathlib.Data.List.Induction

/-!
# Greedy selection

One pass keeps each item that may join the items kept before it. When the rule holds of
every part of what it holds of, no item left out can be added to the result.
-/

namespace Lib

open List

variable {α ε : Type}

/-- The items kept, and the items left out with their reasons. -/
def greedy (why : List α → α → Option ε) (items : List α) : List α × List (α × ε) :=
  items.foldl (fun state item =>
    match why state.1 item with
    | some reason => (state.1, state.2 ++ [(item, reason)])
    | none => (state.1 ++ [item], state.2)) ([], [])

/-- The items are split by a rule, and the kept part is maximal. -/
structure Selects (rule : List α → Prop) (items kept left : List α) : Prop where
  split : (kept ++ left).Perm items
  order : kept.Sublist items
  holds : rule kept
  maximal : ∀ item ∈ left, ¬ rule (kept ++ [item])

theorem selects_greedy {rule : List α → Prop} {why : List α → α → Option ε} (hnil : rule [])
    (hpart : ∀ {part whole}, part.Sublist whole → rule whole → rule part)
    (hwhy : ∀ {kept item}, rule kept → (why kept item = none ↔ rule (kept ++ [item])))
    (items : List α) :
    Selects rule items (greedy why items).1 ((greedy why items).2.map Prod.fst) := by
  induction items using reverseRecOn with
  | nil => exact ⟨.refl _, .refl _, hnil, by simp [greedy]⟩
  | append_singleton items item ih =>
    unfold greedy at ih ⊢
    rw [foldl_append, foldl_cons, foldl_nil]
    generalize items.foldl _ _ = state at ih ⊢
    cases hstep : why state.1 item with
    | some reason =>
      have hbroken : ¬ rule (state.1 ++ [item]) := fun hrule => by
        simp [(hwhy ih.holds).mpr hrule] at hstep
      refine ⟨?_, ih.order.trans (sublist_append_left _ _), ih.holds, ?_⟩
      · simpa using ih.split.append_right [item]
      · simpa [or_imp, forall_and, hbroken] using ih.maximal
    | none =>
      refine ⟨?_, ih.order.append (.refl _), (hwhy ih.holds).mp hstep, ?_⟩
      · rw [append_assoc]
        exact (perm_append_comm.append_left _).trans
          (by simpa using ih.split.append_right [item])
      · intro other hother hrule
        refine ih.maximal other hother (hpart ?_ hrule)
        exact (sublist_append_left _ _).append (.refl _)

end Lib
