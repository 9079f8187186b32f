import Shipyard.Lib.Machine
import Mathlib.Logic.Function.Basic

/-!
# Calls that run side by side

Any number of calls over one shared state, of which each moves by single actions, in any
interleaving; an event strikes the shared state and all calls at once. A proof outline
gives every call an assertion that its own actions keep up, and that the guarantee of
the other calls' actions leaves standing.
-/

namespace Lib

/-- What an action of a call does, and what an event does to all of them. -/
structure Calls (ι σ α χ ω : Type) where
  act : ι → α → σ → χ → Option (σ × α)
  strike : ω → σ → σ
  struck : α → α

namespace Calls

structure State (ι σ α : Type) where
  shared : σ
  calls : ι → α

inductive Label (ι χ ω : Type) where
  | act (caller : ι) (action : χ)
  | strike (event : ω)

variable {ι σ α χ ω : Type} [DecidableEq ι] (C : Calls ι σ α χ ω)

def exec (s : State ι σ α) : Label ι χ ω → Option (State ι σ α)
  | .act caller action =>
    match C.act caller (s.calls caller) s.shared action with
    | some (shared, call) => some ⟨shared, Function.update s.calls caller call⟩
    | none => none
  | .strike event => some ⟨C.strike event s.shared, fun caller => C.struck (s.calls caller)⟩

def machine (init : State ι σ α → Prop) : Machine (State ι σ α) (Label ι χ ω) where
  init := init
  exec := C.exec

theorem machine_exec (init : State ι σ α → Prop) (s : State ι σ α) (label : Label ι χ ω) :
    (C.machine init).exec s label = C.exec s label := rfl

variable {C} {s s' : State ι σ α}

/-- What an action changes: the shared state and the call that acts. -/
theorem exec_act {caller : ι} {action : χ} (hexec : C.exec s (.act caller action) = some s') :
    ∃ shared call, C.act caller (s.calls caller) s.shared action = some (shared, call) ∧
      s' = ⟨shared, Function.update s.calls caller call⟩ := by
  simp only [exec] at hexec
  split at hexec
  next shared call hact => exact ⟨shared, call, hact, (Option.some.inj hexec).symm⟩
  · cases hexec

theorem exec_of_act {s : State ι σ α} {caller : ι} {action : χ} {shared : σ} {call : α}
    (hact : C.act caller (s.calls caller) s.shared action = some (shared, call)) :
    C.exec s (.act caller action) = some ⟨shared, Function.update s.calls caller call⟩ := by
  simp only [exec, hact]

/-- An invariant of the shared state, and an assertion for every call. -/
structure Assertions (ι σ α : Type) where
  shared : σ → Prop
  call : ι → α → σ → Prop

/-- The invariant holds, and every call's assertion. -/
structure Assertions.Hold (A : Assertions ι σ α) (s : State ι σ α) : Prop where
  shared : A.shared s.shared
  call : ∀ caller, A.call caller (s.calls caller) s.shared

/-- A proof outline under a condition on the labels: each call keeps up its assertion and
its guarantee, and a guarantee leaves the other calls' assertions standing. -/
structure Outline (C : Calls ι σ α χ ω) (ok : State ι σ α → Label ι χ ω → Prop)
    (A : Assertions ι σ α) (guarantee : ι → σ → σ → Prop) : Prop where
  act : ∀ {caller call x action x' call'}, A.shared x → A.call caller call x →
    C.act caller call x action = some (x', call') →
      A.shared x' ∧ A.call caller call' x' ∧ guarantee caller x x'
  stable : ∀ {caller other call x x'}, caller ≠ other → A.call caller call x →
    guarantee other x x' → A.call caller call x'
  strike : ∀ {s event}, A.Hold s → ok s (.strike event) →
    A.Hold ⟨C.strike event s.shared, fun caller => C.struck (s.calls caller)⟩

variable {ok : State ι σ α → Label ι χ ω → Prop} {A : Assertions ι σ α}
  {guarantee : ι → σ → σ → Prop} {init : State ι σ α → Prop}

theorem Outline.exec (O : C.Outline ok A guarantee) {label : Label ι χ ω} (hold : A.Hold s)
    (hok : ok s label) (hexec : C.exec s label = some s') : A.Hold s' := by
  cases label with
  | strike event =>
    cases Option.some.inj hexec
    exact O.strike hold hok
  | act caller action =>
    obtain ⟨shared, call, hact, rfl⟩ := exec_act hexec
    obtain ⟨hshared, hcall, hguarantee⟩ := O.act hold.shared (hold.call caller) hact
    refine ⟨hshared, fun other => ?_⟩
    by_cases hother : other = caller
    · subst hother
      simpa only [Function.update_self] using hcall
    · simpa only [Function.update_of_ne hother] using
        O.stable hother (hold.call other) hguarantee

/-- A proof outline that holds at the start of a run holds at its end. -/
theorem Outline.run (O : C.Outline ok A guarantee) (hrun : (C.machine init).RunWhen ok s s')
    (hold : A.Hold s) : A.Hold s' :=
  hrun.preserves (fun _ _ _ => O.exec) hold

theorem Outline.reachable (O : C.Outline ok A guarantee) (hinit : ∀ s, init s → A.Hold s)
    {s : State ι σ α} (hreach : (C.machine init).ReachableWhen ok s) : A.Hold s :=
  hreach.invariant hinit fun _ _ _ => O.exec

end Calls

end Lib
