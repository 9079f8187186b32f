import Mathlib.Data.List.Basic
import Mathlib.Logic.Relation

/-!
# Closures by a worklist

A stack of keys to visit and a list of the keys seen. A key is visited once: it is
marked, and the keys it leads to are pushed, where it is among the finitely many keys
that lead anywhere. What is seen at the end is what can be reached.
-/

namespace Lib.Worklist

open List

variable {κ : Type}

/-- Visiting the top of the stack marks it, and keeps what was seen or waits. -/
theorem seen_or_pushed {seen stack : List κ} {key first : κ} (pushed : List κ)
    (hkey : key ∈ seen ∨ key ∈ first :: stack) : key ∈ seen ++ [first] ∨ key ∈ pushed ++ stack := by
  simp only [mem_append, mem_cons, not_mem_nil, or_false] at hkey ⊢
  tauto

theorem seen_or_popped {seen stack : List κ} {key first : κ} (hfirst : first ∈ seen)
    (hkey : key ∈ seen ∨ key ∈ first :: stack) : key ∈ seen ∨ key ∈ stack := by
  rcases hkey with hseen | (_ | ⟨_, hmem⟩)
  · exact .inl hseen
  · exact .inl hfirst
  · exact .inr hmem

variable [DecidableEq κ]

theorem unseen_lt {keys seen : List κ} {key : κ} (hkey : key ∈ keys) (hunseen : key ∉ seen) :
    (keys.filter (· ∉ seen ++ [key])).length < (keys.filter (· ∉ seen)).length := by
  have hfilter : keys.filter (· ∉ seen ++ [key]) =
      (keys.filter (· ∉ seen)).filter (· ≠ key) := by
    rw [filter_filter]
    refine filter_congr fun other _ => ?_
    simp [not_or, and_comm]
  rw [hfilter, length_filter_lt_length_iff_exists]
  exact ⟨key, mem_filter.mpr ⟨hkey, by simpa using hunseen⟩, by simp⟩

theorem unseen_eq {keys seen : List κ} {key : κ} (hkey : key ∉ keys) :
    keys.filter (· ∉ seen ++ [key]) = keys.filter (· ∉ seen) := by
  refine filter_congr fun other hother => ?_
  have hne : other ≠ key := fun heq => hkey (heq ▸ hother)
  simp [hne]

/-- Visits the keys of a stack, its top first. -/
def run (keys : List κ) (next : κ → List κ) (seen : List κ) : List κ → List κ
  | [] => seen
  | key :: rest =>
    if key ∈ seen then run keys next seen rest
    else if key ∈ keys then run keys next (seen ++ [key]) (next key ++ rest)
    else run keys next (seen ++ [key]) rest
termination_by stack => ((keys.filter (· ∉ seen)).length, stack.length)
decreasing_by
  · exact Prod.Lex.right _ (Nat.lt_succ_self _)
  next hunseen hkey => exact Prod.Lex.left _ _ (unseen_lt hkey hunseen)
  next hkey =>
    rw [unseen_eq hkey]
    exact Prod.Lex.right _ (Nat.lt_succ_self _)

section Spec

variable {keys : List κ} {next : κ → List κ}

/-- A key that leads somewhere leads to another one. -/
def Step (keys : List κ) (next : κ → List κ) (key other : κ) : Prop :=
  key ∈ keys ∧ other ∈ next key

variable {seen stack : List κ}

variable {key : κ}

theorem mem_run_of_mem (hkey : key ∈ seen ∨ key ∈ stack) : key ∈ run keys next seen stack := by
  fun_induction run keys next seen stack with
  | case1 => simpa using hkey
  | case2 seen first rest hseen ih => exact ih (seen_or_popped hseen hkey)
  | case3 seen first rest _ _ ih => exact ih (seen_or_pushed (next first) hkey)
  | case4 seen first rest _ _ ih => exact ih (seen_or_pushed [] hkey)

/-- Nothing is seen that was not, and cannot be reached from the stack. -/
theorem reached_of_mem_run (hkey : key ∈ run keys next seen stack) :
    key ∈ seen ∨ ∃ root ∈ stack, Relation.ReflTransGen (Step keys next) root key := by
  fun_induction run keys next seen stack with
  | case1 => exact .inl hkey
  | case2 seen first rest hseen ih =>
    refine (ih hkey).imp_right fun ⟨root, hroot, hreach⟩ => ?_
    exact ⟨root, mem_cons_of_mem _ hroot, hreach⟩
  | case3 seen first rest _ hfirst ih =>
    rcases ih hkey with hmem | ⟨root, hroot, hreach⟩
    · rcases mem_append.mp hmem with hmem | hmem
      · exact .inl hmem
      · cases mem_singleton.mp hmem
        exact .inr ⟨key, mem_cons_self, .refl⟩
    · rcases mem_append.mp hroot with hroot | hroot
      · exact .inr ⟨first, mem_cons_self, .head ⟨hfirst, hroot⟩ hreach⟩
      · exact .inr ⟨root, mem_cons_of_mem _ hroot, hreach⟩
  | case4 seen first rest _ _ ih =>
    rcases ih hkey with hmem | ⟨root, hroot, hreach⟩
    · rcases mem_append.mp hmem with hmem | hmem
      · exact .inl hmem
      · cases mem_singleton.mp hmem
        exact .inr ⟨key, mem_cons_self, .refl⟩
    · exact .inr ⟨root, mem_cons_of_mem _ hroot, hreach⟩

/-- Where what is seen leads only to what is seen or waits, the end is closed. -/
theorem run_closed
    (hclosed : ∀ key ∈ seen, ∀ other, Step keys next key other → other ∈ seen ∨ other ∈ stack)
    {other : κ} (hkey : key ∈ run keys next seen stack) (hstep : Step keys next key other) :
    other ∈ run keys next seen stack := by
  fun_induction run keys next seen stack with
  | case1 => exact (hclosed key hkey other hstep).elim id nofun
  | case2 seen first rest hseen ih =>
    exact ih (fun key hkey other hstep => seen_or_popped hseen (hclosed key hkey other hstep)) hkey
  | case3 seen first rest _ _ ih =>
    refine ih (fun key hkey other hstep => ?_) hkey
    rcases mem_append.mp hkey with hkey | hkey
    · exact seen_or_pushed _ (hclosed key hkey other hstep)
    · cases mem_singleton.mp hkey
      exact .inr (mem_append_left _ hstep.2)
  | case4 seen first rest _ hfirst ih =>
    refine ih (fun key hkey other hstep => ?_) hkey
    rcases mem_append.mp hkey with hkey | hkey
    · exact seen_or_pushed [] (hclosed key hkey other hstep)
    · cases mem_singleton.mp hkey
      exact absurd hstep.1 hfirst

/-- What a run from roots sees is what they reach. -/
theorem mem_run_iff {roots : List κ} : key ∈ run keys next [] roots ↔
      ∃ root ∈ roots, Relation.ReflTransGen (Step keys next) root key := by
  constructor
  · exact fun hkey => (reached_of_mem_run hkey).resolve_left nofun
  · rintro ⟨root, hroot, hreach⟩
    induction hreach with
    | refl => exact mem_run_of_mem (.inr hroot)
    | tail _ hstep ih => exact run_closed nofun ih hstep

end Spec

end Lib.Worklist
