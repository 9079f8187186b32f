import Shipyard.Lib.Calls

/-!
# The central hold

Any number of callers hold and resume the merge queue, take a preflight, turn it into a
guard or acquire a guard directly, finish or drop what they have, supersede uncertain
mutations, fail and die. Each step is one operation on the control lock or the hold file.
Whoever holds a preflight or a guard holds the control lock and found no hold file under it.
-/

namespace Shipyard.MergeQueue.Hold

open Lib Option

abbrev Caller := Nat

inductive Operation where
  | hold
  | resume
  | preflight
  /-- Acquire a guard, with or without a correlation id that was persisted before. -/
  | acquire (correlationId : Option String)
  | supersede (correlationId : String)
deriving DecidableEq, Repr

/-- What a caller does next. -/
inductive Call where
  | idle
  | lock (op : Operation)
  | persistHold
  /-- `hold` has persisted its file, and returns once the lock is released. -/
  | returnHeld
  | findHold
  | removeHold
  /-- A preflight, guard or supersession looks for the hold file. -/
  | checkHold (op : Operation)
  /-- No hold file was found; the other checks and writes of the operation. -/
  | proceed (op : Operation)
  /-- The preflight is live. -/
  | preflight
  /-- The guard is live. -/
  | guard
  | unlock
deriving DecidableEq, Repr

namespace Call

def live : Call → Bool
  | .preflight | .guard => true
  | _ => false

def locked : Call → Bool
  | .idle | .lock _ => false
  | _ => true

/-- What a caller knows of the hold file, under its lock. -/
def known : Call → Option Bool
  | .proceed _ | .preflight | .guard => some false
  | .returnHeld | .removeHold => some true
  | _ => none

theorem locked_of_known {call : Call} {held : Bool} (hknown : call.known = some held) :
    call.locked = true := by
  cases call <;> first | rfl | cases hknown

end Call

structure ControlFiles where
  /-- Who holds the control lock. -/
  owner : Option Caller := none
  /-- The hold file exists. -/
  held : Bool := false
  /-- How many supersessions were written. -/
  superseded : Nat := 0
deriving DecidableEq, Repr

inductive Action where
  /-- A new call; on a live preflight, its conversion into a guard. -/
  | call (op : Operation)
  | step
  /-- The call returns an error, its guard or preflight is finished or dropped, or the
  process dies: the lock is released. -/
  | leave
deriving DecidableEq, Repr

/-- Where an operation goes on once it has the control lock. -/
def Operation.start : Operation → Call
  | .hold => .persistHold
  | .resume => .findHold
  | op => .checkHold op

def release (files : ControlFiles) : ControlFiles × Call := ({ files with owner := none }, .idle)

def act (caller : Caller) (call : Call) (files : ControlFiles) :
    Action → Option (ControlFiles × Call)
  | .call op =>
    match call, op with
    | .idle, op => some (files, .lock op)
    | .preflight, .acquire none => some (files, .checkHold op)
    | _, _ => none
  | .leave =>
    match call with
    | .idle => none
    | .lock _ => some (files, .idle)
    | _ => some (release files)
  | .step =>
    match call with
    | .idle | .preflight | .guard => none
    | .lock op => if files.owner = none then some ({ files with owner := some caller }, op.start)
      else none
    | .persistHold => some ({ files with held := true }, .returnHeld)
    | .returnHeld | .unlock => some (release files)
    | .findHold => some (files, if files.held then .removeHold else .unlock)
    | .removeHold => some ({ files with held := false }, .unlock)
    | .checkHold op => some (files, if files.held then .unlock else .proceed op)
    | .proceed .preflight => some (files, .preflight)
    | .proceed (.supersede _) => some ({ files with superseded := files.superseded + 1 }, .unlock)
    | .proceed (.acquire _) => some (files, .guard)
    | .proceed _ => none

def calls : Calls Caller ControlFiles Call Action Empty where
  act := act
  strike := nofun
  struck := id

/-- The callers of one state root, from a time at which none is active. -/
def control : Machine (Calls.State Caller ControlFiles Call) (Calls.Label Caller Action Empty) :=
  calls.machine fun s => s.shared.owner = none ∧ ∀ caller, s.calls caller = .idle

/-! ## The exclusion -/

/-- A caller past the lock owns it, and what it knows of the hold file is so. -/
structure CallHolds (caller : Caller) (call : Call) (files : ControlFiles) : Prop where
  owner : call.locked = true → files.owner = some caller
  known : ∀ held, call.known = some held → files.held = held

/-- While a caller owns the lock, the others change neither its owner nor the hold file. -/
def Guarantee (caller : Caller) (files files' : ControlFiles) : Prop :=
  ∀ other, other ≠ caller → files.owner = some other →
    files'.owner = some other ∧ files'.held = files.held

variable {caller : Caller} {call call' : Call} {files files' : ControlFiles} {action : Action}

theorem Guarantee.refl (caller : Caller) (files : ControlFiles) : Guarantee caller files files :=
  fun _ _ howner => ⟨howner, rfl⟩

/-- The owner of the lock may do anything that its next call relies on. -/
theorem CallHolds.act (hcall : CallHolds caller call files) (hlocked : call.locked = true)
    (hnext : CallHolds caller call' files') :
    CallHolds caller call' files' ∧ Guarantee caller files files' := by
  refine ⟨hnext, fun other hother howner => absurd ?_ hother⟩
  exact some.inj (howner.symm.trans (hcall.owner hlocked))

theorem act_spec (hcall : CallHolds caller call files)
    (hact : act caller call files action = some (files', call')) :
    CallHolds caller call' files' ∧ Guarantee caller files files' := by
  have hidle : ∀ files, CallHolds caller .idle files := fun _ => ⟨nofun, nofun⟩
  unfold act at hact
  split at hact
  next op =>
    split at hact <;> cases hact
    · exact ⟨⟨nofun, nofun⟩, .refl caller files⟩
    · exact hcall.act rfl ⟨fun _ => hcall.owner rfl, nofun⟩
  · split at hact <;> cases hact
    · exact ⟨hidle files, .refl caller files⟩
    next hidle' hlock =>
      refine hcall.act ?_ (hidle _)
      cases call <;> first | rfl | simp_all
  · cases call with
    | idle | preflight | guard => cases hact
    | lock op =>
      obtain ⟨hfree, ⟨⟩⟩ := ite_none_right_eq_some.mp hact
      refine ⟨⟨fun _ => rfl, by cases op <;> nofun⟩, fun other _ hother => ?_⟩
      exact nomatch hother.symm.trans hfree
    | persistHold =>
      cases hact
      exact hcall.act rfl ⟨fun _ => hcall.owner rfl, fun _ => some.inj⟩
    | returnHeld | unlock =>
      cases hact
      exact hcall.act rfl (hidle _)
    | removeHold =>
      cases hact
      exact hcall.act rfl ⟨fun _ => hcall.owner rfl, nofun⟩
    | findHold | checkHold =>
      cases hact
      split
      next hheld => exact hcall.act rfl ⟨fun _ => hcall.owner rfl, by simp [Call.known, hheld]⟩
      next hheld => exact hcall.act rfl ⟨fun _ => hcall.owner rfl, by simp [Call.known, hheld]⟩
    | proceed op =>
      have hknown := hcall.known false rfl
      cases op <;> cases hact <;>
        exact hcall.act rfl ⟨fun _ => hcall.owner rfl, by simp [Call.known, hknown]⟩

def assertions : Calls.Assertions Caller ControlFiles Call := ⟨fun _ => True, CallHolds⟩

theorem outline : calls.Outline (fun _ _ => True) assertions Guarantee where
  act _ hcall hact := ⟨trivial, act_spec hcall hact⟩
  stable hother hcall hstep := by
    refine ⟨fun hlocked => (hstep _ hother (hcall.owner hlocked)).1, fun held hknown => ?_⟩
    have howner := hcall.owner (Call.locked_of_known hknown)
    exact (hstep _ hother howner).2.trans (hcall.known held hknown)
  strike := nofun

variable {s : Calls.State Caller ControlFiles Call}

theorem hold_of_reachable (hreach : control.Reachable s) : assertions.Hold s := by
  refine outline.reachable (fun s₀ hinit => ⟨trivial, fun caller => ?_⟩) hreach
  rw [hinit.2 caller]
  exact ⟨nofun, nofun⟩

/-- While the hold file exists, nothing but a resume changes it, and no supersession
is written. -/
theorem act_held (hcall : CallHolds caller call files) (hheld : files.held = true)
    (hresume : action = .step → call ≠ .removeHold)
    (hact : act caller call files action = some (files', call')) :
    files'.held = true ∧ files'.superseded = files.superseded := by
  unfold act at hact
  split at hact
  · split at hact <;> cases hact <;> exact ⟨hheld, rfl⟩
  · split at hact <;> cases hact <;> exact ⟨hheld, rfl⟩
  · cases call with
    | lock op =>
      obtain ⟨-, ⟨⟩⟩ := ite_none_right_eq_some.mp hact
      exact ⟨hheld, rfl⟩
    | persistHold =>
      cases hact
      exact ⟨rfl, rfl⟩
    | removeHold => exact absurd rfl (hresume rfl)
    | proceed => exact nomatch hheld.symm.trans (hcall.known false rfl)
    | _ => cases hact <;> exact ⟨hheld, rfl⟩

/-- The step is not the one by which a resume takes effect. -/
def ResumesNothing (s : Calls.State Caller ControlFiles Call) :
    Calls.Label Caller Action Empty → Prop
  | .act caller action => action = .step → s.calls caller ≠ .removeHold
  | .strike _ => True

/-- At most one preflight or guard is live. From the moment a hold returns until a resume
removes its file none is, and no supersession is written. -/
theorem hold_excludes_guards (s : Calls.State Caller ControlFiles Call)
    (hreach : control.Reachable s) :
    (∀ first second, (s.calls first).live = true → (s.calls second).live = true →
      first = second) ∧
    ∀ caller s₁ s₂, s.calls caller = .returnHeld → control.exec s (.act caller .step) = some s₁ →
      control.RunWhen ResumesNothing s₁ s₂ →
        (∀ other, (s₂.calls other).live = false) ∧ s₂.shared.superseded = s₁.shared.superseded := by
  have hknown : ∀ {call : Call}, call.live = true → call.known = some false := by
    intro call hlive
    cases call <;> first | rfl | cases hlive
  have hhold := hold_of_reachable hreach
  constructor
  · intro first second hfirst hsecond
    have howner := (hhold.call first).owner (Call.locked_of_known (hknown hfirst))
    have howner' := (hhold.call second).owner (Call.locked_of_known (hknown hsecond))
    exact some.inj (howner.symm.trans howner')
  · intro caller s₁ s₂ hreturns hexec hrun
    rw [control, Calls.machine_exec] at hexec
    have hheld : s₁.shared.held = true := by
      obtain ⟨files, call, hact, rfl⟩ := Calls.exec_act hexec
      have hbefore := (hhold.call caller).known true (by rw [hreturns]; rfl)
      have hresume : Action.step = .step → s.calls caller ≠ .removeHold := by simp [hreturns]
      exact (act_held (hhold.call caller) hbefore hresume hact).1
    have hafter := hrun.preserves (I := fun s => assertions.Hold s ∧ s.shared.held = true ∧
      s.shared.superseded = s₁.shared.superseded) ?_
      ⟨outline.exec hhold trivial hexec, hheld, rfl⟩
    · refine ⟨fun other => Bool.eq_false_iff.mpr fun hlive => ?_, hafter.2.2⟩
      exact nomatch hafter.2.1.symm.trans ((hafter.1.call other).known false (hknown hlive))
    · rintro s label s' ⟨hhold, hheld, hsame⟩ hok hexec
      rw [control, Calls.machine_exec] at hexec
      refine ⟨outline.exec hhold trivial hexec, ?_⟩
      cases label with
      | strike event => cases event
      | act caller action =>
        obtain ⟨files, call, hact, rfl⟩ := Calls.exec_act hexec
        obtain ⟨hheld', hsame'⟩ := act_held (hhold.call caller) hheld hok hact
        exact ⟨hheld', hsame'.trans hsame⟩

/-- A hold that has returned, with nothing else going on. -/
theorem returned_hold_excludes_guards : ∃ s s₁, control.Reachable s ∧
    control.exec s (.act 0 .step) = some s₁ ∧ s.calls 0 = .returnHeld ∧
    ∀ other, (s₁.calls other).live = false := by
  have hrun : control.execAll (fun _ _ => True) ⟨{}, fun _ => .idle⟩
      [.act 0 (.call .hold), .act 0 .step, .act 0 .step] = some _ := rfl
  have hidle : control.init ⟨{}, fun _ => .idle⟩ := ⟨rfl, fun _ => rfl⟩
  have hreach := Machine.ReachableWhen.of_execAll hidle hrun
  exact ⟨_, _, hreach, rfl, rfl, ((hold_excludes_guards _ hreach).2 0 _ _ rfl rfl .refl).1⟩

end Shipyard.MergeQueue.Hold
