import Shipyard.Ship.Store

/-!
# The archive of ship states

A state is archived by renaming its file to a name made of the repository, the pull
request number and the time to the second. A rename replaces the file it meets, so what
is kept depends on the names: a run keeps every archived record exactly if no two of its
archivals have one name and none meets a name that is taken.
-/

namespace Shipyard.Ship

open Lib List Option

/-- The directory and the file name of an archived state: the time is formatted to the
second. -/
abbrev ArchiveName := RecordKey ×ₗ Int

/-- Nanoseconds of a second. -/
def second : Time := 1000000000

def archiveName (repository : String) (pr : Nat) (now : Time) : ArchiveName :=
  toLex (scopedKey repository pr, now / second)

/-- The store together with its archive directory. -/
structure ArchivingStore where
  store : ShipStore
  archived : SortedMap ArchiveName StateFile

namespace ArchivingStore

/-- The file that is moved: the scoped one, else a legacy one of the same repository. -/
def archiveSource (store : ShipStore) (repository : String) (pr : Nat) : Option StateFile :=
  match store.records.get? (scopedKey repository pr) with
  | some file => some file
  | none =>
    if (store.readLegacy pr).any fun legacy => sameRepository legacy.repo repository then
      store.legacy pr
    else none

/-- The file is renamed before the mirror is synced, which may still fail. -/
def archiveScopedLocked (s : ArchivingStore) (repository : String) (pr : Nat) (now : Time) :
    ArchivingStore × Except String (Option ArchiveName) :=
  match archiveSource s.store repository pr with
  | none => (s, .ok none)
  | some file =>
    let moved := s.store.archiveScopedLocked repository pr
    ({ store := moved.1, archived := s.archived.insert (archiveName repository pr now) file },
      moved.2.map fun _ => some (archiveName repository pr now))

/-- The record of a fresh attempt, and its claim epoch. -/
def archiveAndReplaceLocked (s : ArchivingStore) (state : ShipState) (reviewerClaimEpoch : Nat)
    (newAttempt : Option Nat) (now : Time) : ArchivingStore × Except String (ShipState × Nat) :=
  if reviewerClaimEpoch + 1 < 2 ^ 64 then
    let archived := s.archiveScopedLocked state.repo state.pr now
    (archived.1, archived.2.map fun _ =>
      ({ state with
          attempt := newAttempt.getD (state.attempt + 1)
          dispatchedRuns := []
          evidenceSnapshot := .empty
          updatedAt := now
          abandoned := false },
        reviewerClaimEpoch + 1))
  else (s, .error "reviewer claim epoch exhausted")

/-- An operation under the scoped lock, which reads and writes the store only. -/
def underLock {α : Type} (s : ArchivingStore) (repository : String) (pr : Nat)
    (operation : ArchivingStore → ArchivingStore × Except String α) :
    ArchivingStore × Except String α :=
  match s.store.lockPrScoped repository pr with
  | (locked, .ok ()) => operation { s with store := locked }
  | (locked, .error error) => ({ s with store := locked }, .error error)

def archiveScoped (s : ArchivingStore) (repository : String) (pr : Nat) (now : Time) :
    ArchivingStore × Except String (Option ArchiveName) :=
  s.underLock repository pr fun locked => locked.archiveScopedLocked repository pr now

def archiveAndReplace (s : ArchivingStore) (state : ShipState) (reviewerClaimEpoch : Nat)
    (newAttempt : Option Nat) (now : Time) : ArchivingStore × Except String (ShipState × Nat) :=
  s.underLock state.repo state.pr fun locked =>
    locked.archiveAndReplaceLocked state reviewerClaimEpoch newAttempt now

end ArchivingStore

/-! ## Runs -/

/-- One operation, with its arguments and the time it reads. -/
inductive ArchiveOp where
  | archiveScoped (repository : String) (pr : Nat) (now : Time)
  | archiveAndReplace (state : ShipState) (reviewerClaimEpoch : Nat) (newAttempt : Option Nat)
      (now : Time)
  | save (state : ShipState)
  | delete (repository : String) (pr : Nat)
  /-- An older binary writes the mirror. -/
  | oldWrite (state : ShipState)

namespace ArchiveOp

def apply (s : ArchivingStore) : ArchiveOp → ArchivingStore
  | .archiveScoped repository pr now => (s.archiveScoped repository pr now).1
  | .archiveAndReplace state reviewerClaimEpoch newAttempt now =>
    (s.archiveAndReplace state reviewerClaimEpoch newAttempt now).1
  | .save state => { s with store := (s.store.save state).1 }
  | .delete repository pr => { s with store := (s.store.deleteScoped repository pr).1 }
  | .oldWrite state => { s with store := s.store.setLegacy state.pr (some (.record state)) }

/-- The name under which an existing state of a repository is archived, if there is one
once the lock is held. -/
def sourceName (s : ArchivingStore) (repository : String) (pr : Nat) (now : Time) :
    Option ArchiveName :=
  match s.store.lockPrScoped repository pr with
  | (locked, .ok ()) =>
    (ArchivingStore.archiveSource locked repository pr).map fun _ =>
      archiveName repository pr now
  | (_, .error _) => none

/-- The name under which an operation archives a state. -/
def destination (s : ArchivingStore) : ArchiveOp → Option ArchiveName
  | .archiveScoped repository pr now => sourceName s repository pr now
  | .archiveAndReplace state reviewerClaimEpoch _ now =>
    if reviewerClaimEpoch + 1 < 2 ^ 64 then sourceName s state.repo state.pr now else none
  | .save _ | .delete _ _ | .oldWrite _ => none

/-- The state after a list of operations. -/
def run (s : ArchivingStore) (ops : List ArchiveOp) : ArchivingStore := ops.foldl apply s

/-- The names under which a list of operations archives states, in order. -/
def destinations : ArchivingStore → List ArchiveOp → List ArchiveName
  | _, [] => []
  | s, op :: rest => (destination s op).toList ++ destinations (op.apply s) rest

/-- An operation keeps every archived record, and adds one if it archives a state. -/
structure KeepsArchive (s : ArchivingStore) (op : ArchiveOp) : Prop where
  kept : ∀ name file, s.archived.get? name = some file →
    (op.apply s).archived.get? name = some file
  grows : (op.apply s).archived.entries.length =
    s.archived.entries.length + (destination s op).toList.length

/-! ## One operation -/

variable {s : ArchivingStore}

/-- What an operation under the lock of a repository that archives its state can do. -/
theorem archived_underLock {α : Type} {repository : String} {pr : Nat} {now : Time}
    {operation : ArchivingStore → ArchivingStore × Except String α}
    (hoperation : ∀ locked, (operation locked).1 = (locked.archiveScopedLocked repository pr now).1)
    :
    sourceName s repository pr now = none ∧
        (s.underLock repository pr operation).1.archived = s.archived ∨
      ∃ name file, sourceName s repository pr now = some name ∧
        (s.underLock repository pr operation).1.archived = s.archived.insert name file := by
  unfold sourceName ArchivingStore.underLock
  rcases s.store.lockPrScoped repository pr with ⟨locked, ⟨error⟩ | ⟨⟨⟩⟩⟩
  · exact .inl ⟨rfl, rfl⟩
  · simp only [hoperation, ArchivingStore.archiveScopedLocked]
    cases ArchivingStore.archiveSource locked repository pr with
    | none => exact .inl ⟨rfl, rfl⟩
    | some file => exact .inr ⟨_, file, rfl, rfl⟩

theorem archived_apply (s : ArchivingStore) (op : ArchiveOp) :
    destination s op = none ∧ (op.apply s).archived = s.archived ∨
      ∃ name file, destination s op = some name ∧
        (op.apply s).archived = s.archived.insert name file := by
  cases op with
  | archiveScoped repository pr now => exact archived_underLock fun _ => rfl
  | archiveAndReplace state reviewerClaimEpoch newAttempt now =>
    by_cases hepoch : reviewerClaimEpoch + 1 < 2 ^ 64
    · simp only [destination, if_pos hepoch]
      refine archived_underLock fun locked => ?_
      simp only [ArchivingStore.archiveAndReplaceLocked, if_pos hepoch]
    · refine .inl ⟨if_neg hepoch, ?_⟩
      simp only [apply, ArchivingStore.archiveAndReplace, ArchivingStore.underLock,
        ArchivingStore.archiveAndReplaceLocked, if_neg hepoch]
      rcases s.store.lockPrScoped state.repo state.pr with ⟨locked, ⟨error⟩ | ⟨⟨⟩⟩⟩ <;> rfl
  | save state => exact .inl ⟨rfl, rfl⟩
  | delete repository pr => exact .inl ⟨rfl, rfl⟩
  | oldWrite state => exact .inl ⟨rfl, rfl⟩

/-- An operation keeps the archive exactly if the name it archives under is free. -/
theorem keepsArchive_iff (s : ArchivingStore) (op : ArchiveOp) :
    KeepsArchive s op ↔ ∀ name ∈ destination s op, s.archived.get? name = none := by
  rcases archived_apply s op with ⟨hnone, harchived⟩ | ⟨name, file, hsome, harchived⟩
  · refine iff_of_true ⟨?_, ?_⟩ ?_
    · intro name file hfile
      rwa [harchived]
    · rw [harchived, hnone]
      rfl
    · intro name hname
      rw [hnone] at hname
      cases hname
  · have hlength := s.archived.length_insert name file
    constructor
    · rintro ⟨_, hgrows⟩ other hother
      obtain rfl : name = other := some.inj (hsome.symm.trans hother)
      rw [harchived, hsome, hlength, toList_some, length_singleton] at hgrows
      cases hget : s.archived.get? name with
      | none => rfl
      | some old =>
        rw [hget, isSome_some, if_pos rfl] at hgrows
        omega
    · intro hfree
      have hget : s.archived.get? name = none := hfree name hsome
      refine ⟨?_, ?_⟩
      · intro other old hold
        have hne : other ≠ name := by
          rintro rfl
          rw [hget] at hold
          cases hold
        rw [harchived, SortedMap.get?_insert_of_ne _ hne, hold]
      · rw [harchived, hlength, hget, hsome]
        rfl

/-- What is free after an operation that keeps the archive. -/
theorem get?_apply_eq_none {op : ArchiveOp} {name : ArchiveName} :
    (op.apply s).archived.get? name = none ↔
      s.archived.get? name = none ∧ name ∉ destination s op := by
  rcases archived_apply s op with ⟨hnone, harchived⟩ | ⟨taken, file, hsome, harchived⟩
  · rw [harchived, hnone]
    simp
  · rw [harchived, hsome, SortedMap.get?_insert]
    by_cases heq : name = taken
    · simp [heq]
    · simp [heq, Ne.symm heq]

/-! ## Whole runs -/

/-- Every operation of a run keeps the archive it finds. -/
def RunKeepsArchive (s : ArchivingStore) (ops : List ArchiveOp) : Prop :=
  ∀ before op after, ops = before ++ op :: after → KeepsArchive (run s before) op

theorem runKeepsArchive_cons {op : ArchiveOp} {rest : List ArchiveOp} :
    RunKeepsArchive s (op :: rest) ↔ KeepsArchive s op ∧ RunKeepsArchive (op.apply s) rest := by
  constructor
  · intro hkeeps
    refine ⟨hkeeps [] op rest rfl, fun before next after hsplit => ?_⟩
    exact hkeeps (op :: before) next after (by rw [hsplit]; rfl)
  · rintro ⟨hfirst, hrest⟩ before next after hsplit
    cases before with
    | nil =>
      obtain ⟨rfl, rfl⟩ := List.cons.inj hsplit
      exact hfirst
    | cons head tail =>
      obtain ⟨rfl, htail⟩ := List.cons.inj hsplit
      exact hrest tail next after htail

/-- No operation of a run destroys or replaces an archived record, and each archival of an
existing state adds one, if and only if the names the run archives under are distinct and
none of them is taken before it. -/
theorem run_keeps_archive_iff (s : ArchivingStore) (ops : List ArchiveOp) :
    RunKeepsArchive s ops ↔
      (destinations s ops).Nodup ∧ ∀ name ∈ destinations s ops, s.archived.get? name = none := by
  induction ops generalizing s with
  | nil =>
    refine iff_of_true (fun before op after hsplit => ?_) ⟨nodup_nil, nofun⟩
    exact absurd hsplit.symm (by simp)
  | cons op rest ih =>
    rw [runKeepsArchive_cons, keepsArchive_iff, ih, destinations, nodup_append']
    simp only [get?_apply_eq_none, mem_append, mem_toList]
    constructor
    · rintro ⟨hfirst, hnodup, hfree⟩
      refine ⟨⟨?_, hnodup, ?_⟩, ?_⟩
      · cases destination s op with
        | none => exact nodup_nil
        | some name => exact nodup_singleton name
      · intro name hname hlater
        exact (hfree name hlater).2 (mem_toList.mp hname)
      · rintro name (hname | hlater)
        · exact hfirst name hname
        · exact (hfree name hlater).1
    · rintro ⟨⟨_, hnodup, hdisjoint⟩, hfree⟩
      refine ⟨fun name hname => hfree name (.inl hname), hnodup, fun name hlater => ?_⟩
      exact ⟨hfree name (.inr hlater), fun hname =>
        hdisjoint (mem_toList.mpr hname) hlater⟩

/-- An attempt that is archived in the second of the one before it replaces it. -/
theorem archive_loses_an_attempt :
    let first : ShipState := { ShipStore.recordAt 1 with attempt := 1 }
    let again : ShipState := { ShipStore.recordAt 3 with attempt := 2 }
    let ops := [.save first, .archiveScoped "owner/repo" 7 2, .save again,
      .archiveScoped "owner/repo" 7 4]
    (run { store := ShipStore.empty, archived := .empty } (ops.take 2)).archived.values =
        [.record first] ∧
      (run { store := ShipStore.empty, archived := .empty } ops).archived.values =
        [.record again] := by
  decide +kernel

end ArchiveOp

end Shipyard.Ship
