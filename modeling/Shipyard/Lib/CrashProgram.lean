import Shipyard.Lib.Machine

/-!
# Programs that write a disk one file at a time

A program reads the disk, writes it in single atomic steps and may fail after
some of its writes. The process that runs it can stop between two writes, and
then the rest of its writes never happens. The rules below derive, from a
condition at every point where the process may stop, what holds in every state
of every run.
-/

namespace Lib

/-- The states of a disk, and the effect of one atomic write. -/
structure Disk where
  State : Type
  Write : Type
  apply : State → Write → State

namespace Disk

variable {D : Disk} {ε α β : Type}

variable (D) in
/-- The disk after a list of writes. -/
def applyAll (s : D.State) (writes : List D.Write) : D.State := writes.foldl D.apply s

theorem applyAll_append (s : D.State) (first second : List D.Write) :
    D.applyAll s (first ++ second) = D.applyAll (D.applyAll s first) second :=
  List.foldl_append

variable (D) in
/-- A program: the writes it makes on a disk, in order, and its result. -/
def Prog (ε α : Type) : Type := D.State → List D.Write × Except ε α

namespace Prog

/-- Run a second program, on the disk the first one leaves, unless the first fails. -/
def andThen (p : D.Prog ε α) (q : α → D.Prog ε β) : D.Prog ε β := fun s =>
  match p s with
  | (writes, .error e) => (writes, .error e)
  | (writes, .ok a) =>
    (writes ++ (q a (D.applyAll s writes)).1, (q a (D.applyAll s writes)).2)

instance : Monad (D.Prog ε) where
  pure a := fun _ => ([], .ok a)
  bind := andThen

/-- A program that only reads. -/
def read (f : D.State → Except ε α) : D.Prog ε α := fun s => ([], f s)

/-- A program that only fails. -/
def fail (e : ε) : D.Prog ε α := fun _ => ([], .error e)

/-- A program that makes the given writes. -/
def write (writes : List D.Write) : D.Prog ε Unit := fun _ => (writes, .ok ())

end Prog

variable (D) in
/-- What a process may rely on: `always` holds in every state, `atRest` in every
state in which no program is under way, and the process is not stopped just
before a write unless `mayStop`. -/
structure Contract where
  always : D.State → Prop
  atRest : D.State → Prop
  mayStop : D.State → D.Write → Prop

namespace Contract

variable (C : D.Contract)

/-- Wherever the process may stop on the way through the writes, the disk is at rest. -/
def Safe : D.State → List D.Write → Prop
  | s, [] => C.always s ∧ C.atRest s
  | s, w :: rest => C.always s ∧ (C.mayStop s w → C.atRest s) ∧ Safe (D.apply s w) rest

variable {C} {s : D.State} {writes : List D.Write}

theorem Safe.always (hsafe : C.Safe s writes) : C.always s := by
  cases writes with
  | nil => exact hsafe.1
  | cons w rest => exact hsafe.1

theorem Safe.append {first second : List D.Write} (hfirst : C.Safe s first)
    (hsecond : C.Safe (D.applyAll s first) second) : C.Safe s (first ++ second) := by
  induction first generalizing s with
  | nil => exact hsecond
  | cons w rest ih => exact ⟨hfirst.1, hfirst.2.1, ih hfirst.2.2 hsecond⟩

/-- Writes before all of which, and after the last of which, the disk is at rest. -/
theorem Safe.cons {w : D.Write} {rest : List D.Write} (halways : C.always s) (hrest : C.atRest s)
    (hsafe : C.Safe (D.apply s w) rest) : C.Safe s (w :: rest) :=
  ⟨halways, fun _ => hrest, hsafe⟩

/-- The state after all writes is at rest. -/
theorem Safe.final (hsafe : C.Safe s writes) :
    C.always (D.applyAll s writes) ∧ C.atRest (D.applyAll s writes) := by
  induction writes generalizing s with
  | nil => exact hsafe
  | cons w rest ih => exact ih hsafe.2.2

variable (C) in
/-- From this state the program is safe to stop, and meets `Q` when it succeeds. -/
def wp (p : D.Prog ε α) (Q : α → D.State → Prop) (s : D.State) : Prop :=
  C.Safe s (p s).1 ∧ ∀ a, (p s).2 = .ok a → Q a (D.applyAll s (p s).1)

variable {Q : α → D.State → Prop}

theorem wp_pure {a : α} (halways : C.always s) (hrest : C.atRest s) (hpost : Q a s) :
    C.wp (pure a : D.Prog ε α) Q s := by
  refine ⟨⟨halways, hrest⟩, ?_⟩
  intro b hb
  cases hb
  exact hpost

theorem wp_fail {e : ε} (halways : C.always s) (hrest : C.atRest s) : C.wp (Prog.fail e) Q s :=
  ⟨⟨halways, hrest⟩, fun _ h => nomatch h⟩

variable {f : D.State → Except ε α} {p : D.Prog ε α} {R : β → D.State → Prop} {q : α → D.Prog ε β}

theorem wp_read (halways : C.always s) (hrest : C.atRest s) (hpost : ∀ a, f s = .ok a → Q a s) :
    C.wp (Prog.read f) Q s :=
  ⟨⟨halways, hrest⟩, hpost⟩

theorem wp_write {Q : Unit → D.State → Prop} (hsafe : C.Safe s writes)
    (hpost : Q () (D.applyAll s writes)) : C.wp (Prog.write writes : D.Prog ε Unit) Q s :=
  ⟨hsafe, fun _ _ => hpost⟩

/-- Sequencing: the second program starts at rest, in a state the first one promises. -/
theorem wp_bind (hp : C.wp p Q s)
    (hq : ∀ a s', C.always s' → C.atRest s' → Q a s' → C.wp (q a) R s') : C.wp (p >>= q) R s := by
  obtain ⟨hsafe, hpost⟩ := hp
  change C.wp (Prog.andThen p q) R s
  unfold wp Prog.andThen
  rcases hrun : p s with ⟨writes, e | a⟩
  · rw [hrun] at hsafe
    exact ⟨hsafe, fun _ h => nomatch h⟩
  · rw [hrun] at hsafe hpost
    obtain ⟨halways, hrest⟩ := hsafe.final
    obtain ⟨hsafe', hpost'⟩ := hq a _ halways hrest (hpost a rfl)
    refine ⟨hsafe.append hsafe', ?_⟩
    intro b hb
    rw [applyAll_append]
    exact hpost' b hb

/-- Sequencing after a read, which leaves the disk as it is. -/
theorem wp_read_bind (halways : C.always s) (hrest : C.atRest s)
    (hq : ∀ a, f s = .ok a → C.wp (q a) R s) : C.wp (Prog.read f >>= q) R s := by
  refine wp_bind (Q := fun a s' => s = s' ∧ f s = .ok a) ?_ ?_
  · exact wp_read halways hrest fun a ha => ⟨rfl, ha⟩
  · rintro a s' _ _ ⟨rfl, ha⟩
    exact hq a ha

/-- A program whose result is only mapped. -/
theorem wp_map {f : α → β} (hp : C.wp p Q s) :
    C.wp (p >>= fun a => pure (f a)) (fun _ _ => True) s :=
  wp_bind hp fun _ _ halways hrest _ => wp_pure halways hrest trivial

/-- A weaker promise; what the program leaves is at rest. -/
theorem wp_mono {Q R : α → D.State → Prop} (hp : C.wp p Q s)
    (hweaken : ∀ a s', C.atRest s' → Q a s' → R a s') : C.wp p R s :=
  ⟨hp.1, fun a ha => hweaken a _ hp.1.final.2 (hp.2 a ha)⟩

end Contract

/-! ## The process that runs the programs -/

variable (D) in
/-- The disk, and the writes the running program has still to make. -/
structure Process where
  disk : D.State
  writes : List D.Write

/-- A process starts a program, makes its next write, or is stopped. -/
inductive ProcessLabel (ℓ : Type) where
  | call (program : ℓ)
  | write
  | stop
deriving DecidableEq, Repr

variable {ℓ : Type}

/-- One step of a process; a program starts when the one before has ended. -/
def Process.step (prog : ℓ → D.Prog ε α) (s : D.Process) : ProcessLabel ℓ → Option D.Process
  | .call program =>
    match s.writes with
    | [] => some ⟨s.disk, (prog program s.disk).1⟩
    | _ :: _ => none
  | .write =>
    match s.writes with
    | [] => none
    | w :: rest => some ⟨D.apply s.disk w, rest⟩
  | .stop => some ⟨s.disk, []⟩

/-- The runs of a process over the given programs, from the given disks. -/
def processMachine (init : D.State → Prop) (prog : ℓ → D.Prog ε α) :
    Machine D.Process (ProcessLabel ℓ) where
  init s := init s.disk ∧ s.writes = []
  exec := Process.step prog

variable {C : D.Contract} {init : D.State → Prop} {prog : ℓ → D.Prog ε α}
  {ok : D.Process → ProcessLabel ℓ → Prop}

theorem Process.step_safe {s s' : D.Process} {label : ProcessLabel ℓ}
    (hcall : ∀ s program, ok s (.call program) → C.always s.disk → C.atRest s.disk →
      C.wp (prog program) (fun _ _ => True) s.disk)
    (hstop : ∀ s w rest, ok s .stop → s.writes = w :: rest → C.mayStop s.disk w)
    (hsafe : C.Safe s.disk s.writes) (hok : ok s label)
    (hstep : s.step prog label = some s') : C.Safe s'.disk s'.writes := by
  cases label with
  | call program =>
    simp only [Process.step] at hstep
    split at hstep
    next hwrites =>
      cases hstep
      rw [hwrites] at hsafe
      exact (hcall s program hok hsafe.1 hsafe.2).1
    · cases hstep
  | write =>
    simp only [Process.step] at hstep
    split at hstep
    · cases hstep
    next hwrites =>
      cases hstep
      rw [hwrites] at hsafe
      exact hsafe.2.2
  | stop =>
    cases hstep
    cases hwrites : s.writes with
    | nil =>
      rw [hwrites] at hsafe
      exact hsafe
    | cons w rest =>
      rw [hwrites] at hsafe
      exact ⟨hsafe.1, hsafe.2.1 (hstop s w rest hok hwrites)⟩

/-- When every program the condition lets start is safe, and the condition stops
the process only where the contract lets it, `always` holds throughout. -/
theorem processMachine_always (hinit : ∀ disk, init disk → C.always disk ∧ C.atRest disk)
    (hcall : ∀ s program, ok s (.call program) → C.always s.disk → C.atRest s.disk →
      C.wp (prog program) (fun _ _ => True) s.disk)
    (hstop : ∀ s w rest, ok s .stop → s.writes = w :: rest → C.mayStop s.disk w)
    {s : D.Process} (hreach : (processMachine init prog).ReachableWhen ok s) :
    C.always s.disk := by
  have hsafe : C.Safe s.disk s.writes := by
    refine hreach.invariant (I := fun s => C.Safe s.disk s.writes) ?_ ?_
    · rintro s ⟨hdisk, hwrites⟩
      rw [hwrites]
      exact hinit _ hdisk
    · intro s label s' hsafe hok hstep
      exact Process.step_safe hcall hstop hsafe hok hstep
  exact hsafe.always

end Disk

end Lib
