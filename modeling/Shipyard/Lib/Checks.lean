import Mathlib.Data.List.Forall2

/-!
# What a successful check establishes

Facts about computations that may fail: a sequence succeeds when each of its steps
does, and a traversal when it succeeds on each element.
-/

namespace Lib

open List

variable {ε α β : Type}

variable {x : Except ε α} {f : α → Except ε β} {b : β} {results : List β}

theorem Except.bind_eq_ok : x >>= f = .ok b ↔ ∃ a, x = .ok a ∧ f a = .ok b := by
  cases x with
  | error e => simp [bind, Except.bind]
  | ok a => simp [bind, Except.bind]

theorem Except.pure_eq_ok {a b : α} : (pure a : Except ε α) = .ok b ↔ a = b :=
  ⟨Except.ok.inj, congrArg Except.ok⟩

theorem exists_unit {p : Unit → Prop} : (∃ unit, p unit) ↔ p () :=
  ⟨fun ⟨(), hholds⟩ => hholds, fun hholds => ⟨(), hholds⟩⟩

/-- A check before a computation. -/
theorem Except.check_eq_ok {check : Except ε Unit} {rest : Except ε β} :
    (check >>= fun _ => rest) = .ok b ↔ check = .ok () ∧ rest = .ok b := by
  rw [Except.bind_eq_ok]
  exact ⟨fun ⟨(), hcheck, hrest⟩ => ⟨hcheck, hrest⟩, fun ⟨hcheck, hrest⟩ => ⟨(), hcheck, hrest⟩⟩

/-- A computation whose result is thrown away. -/
theorem Except.discard_eq_ok : (x >>= fun _ => pure ()) = .ok () ↔ ∃ a, x = .ok a := by
  cases x with
  | error e => exact iff_of_false nofun nofun
  | ok a => exact iff_of_true rfl ⟨a, rfl⟩

/-- Fails with the error unless the condition holds. -/
def require (condition : Prop) [Decidable condition] (failure : ε) : Except ε Unit :=
  if condition then .ok () else .error failure

theorem require_eq_ok {condition : Prop} [Decidable condition] {failure : ε} :
    require condition failure = .ok () ↔ condition := by
  unfold require
  split
  next hholds => exact iff_of_true rfl hholds
  next hfails => exact iff_of_false nofun hfails

variable {items : List α}

/-- A loop of checks passes exactly if each of them does. -/
theorem Except.forM_eq_ok {check : α → Except ε Unit} :
    items.forM check = .ok () ↔ ∀ item ∈ items, check item = .ok () := by
  induction items with
  | nil => exact iff_of_true rfl nofun
  | cons item rest ih =>
    rw [List.forM, Except.check_eq_ok, ih, forall_mem_cons]

theorem Except.mapError_eq_ok {ε' : Type} {f : ε → ε'} {a : α} :
    x.mapError f = .ok a ↔ x = .ok a := by
  cases x with
  | error e => simp [Except.mapError]
  | ok b => simp [Except.mapError]

/-- A check that fails with a reason, when there is one. -/
def refuse (reason : Option ε) : Except ε Unit :=
  match reason with
  | some why => .error why
  | none => .ok ()

theorem refuse_eq_ok {reason : Option ε} {unit : Unit} :
    refuse reason = .ok unit ↔ reason = none := by
  cases reason <;> simp [refuse]

theorem Except.mapM_congr {g : α → Except ε β} (hsame : ∀ item ∈ items, f item = g item) :
    items.mapM f = items.mapM g := by
  induction items with
  | nil => rfl
  | cons item rest ih =>
    obtain ⟨hitem, hrest⟩ := forall_mem_cons.mp hsame
    rw [mapM_cons, mapM_cons, hitem, ih hrest]

/-- A traversal that succeeds returns the results of its elements, in order. -/
theorem Except.forall₂_of_mapM (hmap : items.mapM f = .ok results) :
    List.Forall₂ (fun item result => f item = .ok result) items results := by
  induction items generalizing results with
  | nil =>
    cases hmap
    exact .nil
  | cons item rest ih =>
    rw [mapM_cons, bind_eq_ok] at hmap
    obtain ⟨result, hitem, hmap⟩ := hmap
    obtain ⟨others, hrest, hmap⟩ := bind_eq_ok.mp hmap
    cases hmap
    exact .cons hitem (ih hrest)

/-- What a traversal gives is what its items give. -/
theorem Option.mem_of_mapM {f : α → Option β} (hmap : items.mapM f = some results) :
    b ∈ results ↔ ∃ item ∈ items, f item = some b := by
  induction items generalizing results with
  | nil =>
    cases hmap
    simp
  | cons item rest ih =>
    rw [mapM_cons] at hmap
    obtain ⟨result, hitem, hmap⟩ := Option.bind_eq_some_iff.mp hmap
    obtain ⟨others, hrest, hmap⟩ := Option.bind_eq_some_iff.mp hmap
    cases hmap
    simp [ih hrest, hitem, eq_comm]

/-- A traversal succeeds where it does on every element. -/
theorem Option.mapM_isSome_iff {f : α → Option β} :
    (items.mapM f).isSome = true ↔ ∀ item ∈ items, (f item).isSome = true := by
  induction items with
  | nil => simp
  | cons item rest ih =>
    rw [mapM_cons, forall_mem_cons, ← ih]
    cases f item <;> cases rest.mapM f <;> simp

/-- What holds of the items taken so far and what they gave, and is kept by every step
that succeeds, holds at the end. -/
theorem Except.foldlM_invariant {step : β → α → Except ε β} (holds : List α → β → Prop)
    (hstep : ∀ done acc item next, holds done acc → step acc item = .ok next → holds (done ++
      [item]) next) {start final : β} (hstart : holds [] start)
    (hfold : items.foldlM step start = .ok final) : holds items final := by
  have hrest (done : List α) (hdone : holds done start) : holds (done ++ items) final := by
    clear hstart
    induction items generalizing done start with
    | nil =>
      cases hfold
      simpa using hdone
    | cons item rest ih =>
      rw [foldlM_cons] at hfold
      obtain ⟨next, hnext, hrest⟩ := bind_eq_ok.mp hfold
      simpa using ih hrest _ (hstep done start item next hdone hnext)
  exact hrest [] hstart

end Lib
