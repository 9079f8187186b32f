import Shipyard.Request
import Shipyard.Ship.State
import Mathlib.Data.Prod.Lex

/-!
# The ship-state store

The files of `ShipStateStore`: one record per repository and pull request, a
legacy mirror per pull request number that older binaries read and write, and a
marker for numbers that several repositories use. Each operation returns the
files it leaves, also when it fails. Locks are held by the callers, and a
directory is named by the canonical repository.
-/

namespace Shipyard.Ship

open Lib Option

/-- A canonical repository and a pull request number. -/
abbrev RecordKey := String ×ₗ Nat

/-- The contents of a state file. -/
inductive StateFile where
  | unreadable
  | record (state : ShipState)
deriving DecidableEq

def StateFile.state? : StateFile → Option ShipState
  | .unreadable => none
  | .record state => some state

structure ShipStore where
  records : SortedMap RecordKey StateFile
  legacy : Nat → Option StateFile
  collision : Nat → Bool

def sameRepository (left right : String) : Bool :=
  canonicalRepository left = canonicalRepository right

/-- The key of `state_path_scoped`. -/
def scopedKey (repository : String) (pr : Nat) : RecordKey :=
  toLex (canonicalRepository repository, pr)

namespace ShipStore

/-! ## Reading -/

def readScoped (store : ShipStore) (repository : String) (pr : Nat) : Option ShipState :=
  (store.records.get? (scopedKey repository pr)).bind StateFile.state?

/-- `get_unlocked`. -/
def readLegacy (store : ShipStore) (pr : Nat) : Option ShipState :=
  (store.legacy pr).bind StateFile.state?

def scopedFilesForPr (store : ShipStore) (pr : Nat) : List StateFile :=
  (store.records.entries.filter fun entry => (ofLex entry.1).2 = pr).map Prod.snd

def scopedStatesForPr (store : ShipStore) (pr : Nat) : List ShipState :=
  (store.scopedFilesForPr pr).filterMap StateFile.state?

def getLockedScoped (store : ShipStore) (repository : String) (pr : Nat) : Option ShipState :=
  match store.readScoped repository pr with
  | some state => if sameRepository state.repo repository && state.pr = pr then some state else none
  | none =>
    if store.collision pr then none
    else
      match store.readLegacy pr with
      | some legacy =>
        if sameRepository legacy.repo repository && legacy.pr = pr then some legacy else none
      | none => none

def legacyIsPreserved (store : ShipStore) (legacy : ShipState) : Bool :=
  store.collision legacy.pr ||
    (store.readScoped legacy.repo legacy.pr).any fun current => legacy.updatedAt ≤ current.updatedAt

def notPreservedMessage (legacy : ShipState) : String :=
  "legacy ship-state for " ++ legacy.repo ++ " PR #" ++ toString legacy.pr ++
    " is not yet preserved in its repository namespace"

def ensureLegacyIsPreserved (store : ShipStore) (pr : Nat) : Except String Unit :=
  match store.readLegacy pr with
  | none => .ok ()
  | some legacy =>
    if store.legacyIsPreserved legacy then .ok () else .error (notPreservedMessage legacy)

/-! ## Writing -/

/-- `persist_state_at` for the scoped path of a repository. -/
def persistScoped (store : ShipStore) (repository : String) (pr : Nat) (state : ShipState) :
    ShipStore :=
  { store with records := store.records.insert (scopedKey repository pr) (.record state) }

def setLegacy (store : ShipStore) (pr : Nat) (file : Option StateFile) : ShipStore :=
  { store with legacy := Function.update store.legacy pr file }

def setCollision (store : ShipStore) (pr : Nat) (marked : Bool) : ShipStore :=
  { store with collision := Function.update store.collision pr marked }

def syncLegacyMirrorForPr (store : ShipStore) (pr : Nat) : ShipStore × Except String Unit :=
  match store.ensureLegacyIsPreserved pr with
  | .error error => (store, .error error)
  | .ok () =>
    match store.scopedStatesForPr pr with
    | [state] => ((store.setLegacy pr (some (.record state))).setCollision pr false, .ok ())
    | [] => ((store.setLegacy pr none).setCollision pr false, .ok ())
    | _ => ((store.setCollision pr true).setLegacy pr none, .ok ())

/-- Whether a legacy record replaces what the scoped path holds. -/
def isNewer (legacy : ShipState) (current : Option ShipState) : Bool :=
  current.all fun current => current.updatedAt < legacy.updatedAt

def migrateUnrepresentedLegacy (store : ShipStore) (pr : Nat) : ShipStore :=
  if store.collision pr then store
  else
    match store.readLegacy pr with
    | none => store
    | some legacy =>
      if store.legacyIsPreserved legacy then store
      else if isNewer legacy (store.readScoped legacy.repo pr) then
        store.persistScoped legacy.repo pr legacy
      else store

def migrateMatchingLegacyLocked (store : ShipStore) (repository : String) (pr : Nat) :
    ShipStore × Except String Unit :=
  if store.collision pr then (store, .ok ())
  else
    match store.readLegacy pr with
    | none => (store, .ok ())
    | some legacy =>
      if !sameRepository legacy.repo repository then (store, .ok ())
      else if isNewer legacy (store.readScoped repository pr) then
        (store.persistScoped repository pr legacy).syncLegacyMirrorForPr pr
      else store.syncLegacyMirrorForPr pr

/-- What taking the scoped lock does to the files. -/
def lockPrScoped (store : ShipStore) (repository : String) (pr : Nat) :
    ShipStore × Except String Unit :=
  (store.migrateUnrepresentedLegacy pr).migrateMatchingLegacyLocked repository pr

def saveScopedLocked (store : ShipStore) (state : ShipState) : ShipStore × Except String Unit :=
  match store.ensureLegacyIsPreserved state.pr with
  | .error error => (store, .error error)
  | .ok () => (store.persistScoped state.repo state.pr state).syncLegacyMirrorForPr state.pr

def removeMatchingLegacy (store : ShipStore) (repository : String) (pr : Nat) : ShipStore :=
  if (store.readLegacy pr).any fun legacy => sameRepository legacy.repo repository then
    store.setLegacy pr none
  else store

def removeScoped (store : ShipStore) (repository : String) (pr : Nat) : ShipStore :=
  { store with records := store.records.erase (scopedKey repository pr) }

def deleteScopedLocked (store : ShipStore) (repository : String) (pr : Nat) :
    ShipStore × Except String Unit :=
  ((store.removeScoped repository pr).removeMatchingLegacy repository pr).syncLegacyMirrorForPr pr

/-- Whether something was archived; the archive itself is not read back. -/
def archiveScopedLocked (store : ShipStore) (repository : String) (pr : Nat) :
    ShipStore × Except String Bool :=
  let archived (moved : ShipStore) : ShipStore × Except String Bool :=
    let synced := (moved.removeMatchingLegacy repository pr).syncLegacyMirrorForPr pr
    (synced.1, synced.2.map fun _ => true)
  if (store.records.get? (scopedKey repository pr)).isSome then
    archived (store.removeScoped repository pr)
  else if (store.readLegacy pr).any fun legacy => sameRepository legacy.repo repository then
    archived (store.setLegacy pr none)
  else (store, .ok false)

/-- An operation under the scoped lock; it is not run when taking the lock fails. -/
def underLock {α : Type} (store : ShipStore) (repository : String) (pr : Nat)
    (operation : ShipStore → ShipStore × Except String α) : ShipStore × Except String α :=
  match store.lockPrScoped repository pr with
  | (locked, .ok ()) => operation locked
  | (locked, .error error) => (locked, .error error)

def save (store : ShipStore) (state : ShipState) : ShipStore × Except String Unit :=
  store.underLock state.repo state.pr fun locked => locked.saveScopedLocked state

def deleteScoped (store : ShipStore) (repository : String) (pr : Nat) :
    ShipStore × Except String Unit :=
  store.underLock repository pr fun locked => locked.deleteScopedLocked repository pr

def archiveScoped (store : ShipStore) (repository : String) (pr : Nat) :
    ShipStore × Except String Bool :=
  store.underLock repository pr fun locked => locked.archiveScopedLocked repository pr

/-- The next reader: take the lock, then load. -/
def lockThenGet (store : ShipStore) (repository : String) (pr : Nat) :
    Except String (Option ShipState) :=
  match store.lockPrScoped repository pr with
  | (locked, .ok ()) => .ok (locked.getLockedScoped repository pr)
  | (_, .error error) => .error error

/-! ## Files after a write -/

section Files

variable (store : ShipStore)

variable (repository : String) (pr : Nat)

theorem get?_persistScoped (state : ShipState) (key : RecordKey) :
    (store.persistScoped repository pr state).records.get? key =
      if key = scopedKey repository pr then some (.record state) else store.records.get? key :=
  SortedMap.get?_insert _ _ _ _

theorem readScoped_persistScoped (state : ShipState) (other : String) (otherPr : Nat) :
    (store.persistScoped repository pr state).readScoped other otherPr =
      if scopedKey other otherPr = scopedKey repository pr then some state
      else store.readScoped other otherPr := by
  rw [readScoped, get?_persistScoped]
  split <;> rfl

theorem readLegacy_setLegacy (file : Option StateFile) :
    (store.setLegacy pr file).readLegacy pr = file.bind StateFile.state? := by
  simp [setLegacy, readLegacy]

theorem scopedKey_congr {left right : String} (hsame : sameRepository left right = true)
    (pr : Nat) : scopedKey left pr = scopedKey right pr := by
  have hcanonical : canonicalRepository left = canonicalRepository right := by
    simpa [sameRepository] using hsame
  rw [scopedKey, scopedKey, hcanonical]

theorem scopedKey_inj {left right : String} {leftPr rightPr : Nat}
    (heq : scopedKey left leftPr = scopedKey right rightPr) :
    sameRepository left right = true ∧ leftPr = rightPr := by
  have hpair := toLex.injective heq
  rw [Prod.mk.injEq] at hpair
  exact ⟨by simpa [sameRepository] using hpair.1, hpair.2⟩

theorem sameRepository_refl : sameRepository repository repository = true := by
  simp [sameRepository]

/-- The record stored for a repository and a number is among those of the number. -/
theorem mem_scopedStatesForPr {repository : String} {pr : Nat} {state : ShipState}
    (hread : store.readScoped repository pr = some state) : state ∈ store.scopedStatesForPr pr := by
  obtain ⟨file, hget, hstate⟩ := bind_eq_some_iff.mp hread
  have hentry := SortedMap.mem_entries_of_get? hget
  rw [scopedStatesForPr, List.mem_filterMap]
  refine ⟨file, ?_, hstate⟩
  rw [scopedFilesForPr, List.mem_map]
  exact ⟨(scopedKey repository pr, file), List.mem_filter.mpr ⟨hentry, by simp [scopedKey]⟩, rfl⟩

/-- Only a missing record or an older one is not preserved. -/
theorem ensureLegacyIsPreserved_eq_ok {pr : Nat} :
    store.ensureLegacyIsPreserved pr = .ok () ↔
      ∀ legacy, store.readLegacy pr = some legacy → store.legacyIsPreserved legacy = true := by
  unfold ensureLegacyIsPreserved
  cases store.readLegacy pr with
  | none => simp
  | some legacy =>
    cases hpreserved : store.legacyIsPreserved legacy with
    | true => simp [hpreserved]
    | false => simp [hpreserved]

/-- The mirror of a number with the given records. -/
def mirrorOf : List ShipState → Option StateFile
  | [state] => some (.record state)
  | _ => none

/-- What the mirror update leaves, when it does not fail. -/
theorem syncLegacyMirrorForPr_of_ok {pr : Nat} (hok : store.ensureLegacyIsPreserved pr = .ok ()) :
    store.syncLegacyMirrorForPr pr =
      ({ records := store.records
         legacy := Function.update store.legacy pr (mirrorOf (store.scopedStatesForPr pr))
         collision := Function.update store.collision pr
          (2 ≤ (store.scopedStatesForPr pr).length) }, .ok ()) := by
  unfold syncLegacyMirrorForPr
  rw [hok]
  rcases hstates : store.scopedStatesForPr pr with _ | ⟨first, _ | ⟨second, rest⟩⟩ <;>
    simp [setLegacy, setCollision, mirrorOf]

theorem syncLegacyMirrorForPr_scoped :
    (store.syncLegacyMirrorForPr pr).1.records = store.records := by
  unfold syncLegacyMirrorForPr
  split
  · rfl
  · split <;> rfl

end Files

/-! ## Saving -/

section Save

variable {store : ShipStore} {state : ShipState}

/-- The result of a successful save: the record is stored, and the mirror holds
it or is fenced off. -/
structure Saved (store : ShipStore) (state : ShipState) : Prop where
  stored : store.readScoped state.repo state.pr = some state
  mirrored : store.collision state.pr = true ∨
    store.collision state.pr = false ∧ store.readLegacy state.pr = some state

theorem saved_of_sync (hstored : store.readScoped state.repo state.pr = some state)
    (hok : store.ensureLegacyIsPreserved state.pr = .ok ()) :
    Saved (store.syncLegacyMirrorForPr state.pr).1 state := by
  have hmem := store.mem_scopedStatesForPr hstored
  rw [syncLegacyMirrorForPr_of_ok store hok]
  refine ⟨hstored, ?_⟩
  rcases hstates : store.scopedStatesForPr state.pr with _ | ⟨first, _ | ⟨second, rest⟩⟩
  · rw [hstates] at hmem
    exact absurd hmem List.not_mem_nil
  · rw [hstates, List.mem_singleton] at hmem
    subst hmem
    right
    simp [readLegacy, mirrorOf, StateFile.state?]
  · left
    simp

/-- After a successful save the next reader gets the saved state. -/
theorem Saved.lockThenGet (hsaved : Saved store state) :
    store.lockThenGet state.repo state.pr = .ok (some state) := by
  have hget : ∀ locked : ShipStore, locked.records = store.records →
      locked.getLockedScoped state.repo state.pr = some state := by
    intro locked hscoped
    have hread : locked.readScoped state.repo state.pr = some state := by
      rw [readScoped, hscoped]
      exact hsaved.stored
    simp [getLockedScoped, hread, sameRepository_refl]
  unfold ShipStore.lockThenGet lockPrScoped
  -- A fenced mirror is not read; an unfenced one is the saved state itself.
  rcases hsaved.mirrored with hfenced | ⟨hclear, hmirror⟩
  · simp only [migrateUnrepresentedLegacy, migrateMatchingLegacyLocked, hfenced, if_true]
    rw [hget store rfl]
  · have hpreserved : store.legacyIsPreserved state = true := by
      simp [legacyIsPreserved, hsaved.stored]
    have hok : store.ensureLegacyIsPreserved state.pr = .ok () := by
      rw [ensureLegacyIsPreserved_eq_ok]
      intro legacy hlegacy
      obtain rfl := some.inj (hmirror.symm.trans hlegacy)
      exact hpreserved
    have hold : isNewer state (store.readScoped state.repo state.pr) = false := by
      simp [isNewer, hsaved.stored]
    have hunchanged : store.migrateUnrepresentedLegacy state.pr = store := by
      simp [migrateUnrepresentedLegacy, hmirror, hpreserved]
    rw [hunchanged]
    simp only [migrateMatchingLegacyLocked, hclear, hmirror, hold, sameRepository_refl,
      Bool.not_true, Bool.false_eq_true, if_false]
    rw [syncLegacyMirrorForPr_of_ok store hok]
    exact congrArg Except.ok (hget _ rfl)

end Save

/-- The mirror holds a record of the saved repository and number that is newer
than the saved state, and the stored record preserves it. -/
structure MirrorIsNewer (store : ShipStore) (state : ShipState) (legacy current : ShipState) :
    Prop where
  mirror : store.readLegacy state.pr = some legacy
  sameRepo : sameRepository legacy.repo state.repo = true
  samePr : legacy.pr = state.pr
  unfenced : store.collision state.pr = false
  stored : store.readScoped state.repo state.pr = some current
  preserved : legacy.updatedAt ≤ current.updatedAt
  older : state.updatedAt < legacy.updatedAt

/-- What a save promises: a failing one leaves the scoped record of the state,
and after a successful one the next reader gets the state. -/
def SaveIsAtomic (store : ShipStore) (state : ShipState) : Prop :=
  match store.saveScopedLocked state with
  | (after, .error _) =>
    after.records.get? (scopedKey state.repo state.pr) =
      store.records.get? (scopedKey state.repo state.pr)
  | (after, .ok ()) => after.lockThenGet state.repo state.pr = .ok (some state)

variable {store : ShipStore} {state : ShipState}

/-- The second check of the mirror fails exactly when the mirror is newer. -/
theorem ensure_after_persist (hok : store.ensureLegacyIsPreserved state.pr = .ok ()) :
    (store.persistScoped state.repo state.pr state).ensureLegacyIsPreserved state.pr = .ok () ↔
      ¬∃ legacy current, MirrorIsNewer store state legacy current := by
  have hlegacy : (store.persistScoped state.repo state.pr state).readLegacy state.pr =
      store.readLegacy state.pr := rfl
  rw [ensureLegacyIsPreserved_eq_ok] at hok ⊢
  rw [hlegacy]
  constructor
  · rintro hafter ⟨legacy, current, hnewer⟩
    have hpreserved := hafter legacy hnewer.mirror
    have hkey : scopedKey legacy.repo legacy.pr = scopedKey state.repo state.pr := by
      rw [hnewer.samePr, scopedKey_congr hnewer.sameRepo]
    have hfence : (store.persistScoped state.repo state.pr state).collision legacy.pr = false := by
      rw [hnewer.samePr]
      exact hnewer.unfenced
    simp only [legacyIsPreserved, hfence, readScoped_persistScoped, hkey, if_true, Bool.false_or,
      any_some, decide_eq_true_eq] at hpreserved
    exact absurd hnewer.older (not_lt.mpr hpreserved)
  · intro hnone legacy hmirror
    have hbefore := hok legacy hmirror
    by_cases hkey : scopedKey legacy.repo legacy.pr = scopedKey state.repo state.pr
    · -- The write replaced the record that preserved the mirror.
      obtain ⟨hsame, hpr⟩ := scopedKey_inj hkey
      by_contra hfails
      simp only [legacyIsPreserved, readScoped_persistScoped, hkey, if_true, any_some,
        Bool.or_eq_true, decide_eq_true_eq, not_or, not_le, Bool.not_eq_true] at hfails
      have hfence : store.collision legacy.pr = false := hfails.1
      have hstored : (store.readScoped state.repo state.pr).any
          (fun current => legacy.updatedAt ≤ current.updatedAt) = true := by
        rw [legacyIsPreserved, hfence, Bool.false_or, readScoped, hkey] at hbefore
        exact hbefore
      obtain ⟨current, hcurrent, hle⟩ := (any_eq_true _ _).mp hstored
      exact hnone ⟨legacy, current,
        { mirror := hmirror
          sameRepo := hsame
          samePr := hpr
          unfenced := hpr ▸ hfence
          stored := hcurrent
          preserved := of_decide_eq_true hle
          older := hfails.2 }⟩
    · rw [legacyIsPreserved, readScoped_persistScoped, if_neg hkey]
      exact hbefore

theorem saveScopedLocked_eq_of_ensure (hok : store.ensureLegacyIsPreserved state.pr = .ok ()) :
    store.saveScopedLocked state =
      (store.persistScoped state.repo state.pr state).syncLegacyMirrorForPr state.pr := by
  rw [saveScopedLocked, hok]

/-- A save is atomic unless the mirror is newer than the saved state: then the
record is replaced before the second check of the mirror fails. -/
theorem save_atomic_iff_mirror_not_newer (store : ShipStore) (state : ShipState) :
    SaveIsAtomic store state ↔ ¬∃ legacy current, MirrorIsNewer store state legacy current := by
  cases hensure : store.ensureLegacyIsPreserved state.pr with
  | error error =>
    have hatomic : SaveIsAtomic store state := by simp [SaveIsAtomic, saveScopedLocked, hensure]
    refine iff_of_true hatomic ?_
    rintro ⟨legacy, current, hnewer⟩
    -- The first check reads the stored record, which preserves the mirror.
    have hpreserved : store.legacyIsPreserved legacy = true := by
      rw [legacyIsPreserved, hnewer.samePr, readScoped, scopedKey_congr hnewer.sameRepo,
        ← readScoped, hnewer.stored]
      simp [hnewer.preserved]
    simp [ensureLegacyIsPreserved, hnewer.mirror, hpreserved] at hensure
  | ok =>
    rw [← ensure_after_persist hensure, SaveIsAtomic, saveScopedLocked_eq_of_ensure hensure]
    have hstored : (store.persistScoped state.repo state.pr state).readScoped state.repo
        state.pr = some state := by
      rw [readScoped_persistScoped, if_pos rfl]
    cases hafter : (store.persistScoped state.repo state.pr state).ensureLegacyIsPreserved
        state.pr with
    | error error =>
      have hsync : (store.persistScoped state.repo state.pr state).syncLegacyMirrorForPr
          state.pr = (store.persistScoped state.repo state.pr state, .error error) := by
        rw [syncLegacyMirrorForPr, hafter]
      rw [hsync]
      refine iff_of_false ?_ (by simp)
      -- The replaced record preserved the mirror and the new one does not.
      intro hunchanged
      obtain ⟨legacy, current, hnewer⟩ := not_not.mp
        (mt (ensure_after_persist hensure).mpr (by rw [hafter]; simp))
      have hsame : (store.persistScoped state.repo state.pr state).readScoped state.repo
          state.pr = store.readScoped state.repo state.pr := by
        rw [readScoped, hunchanged, ← readScoped]
      rw [hstored, hnewer.stored] at hsame
      obtain rfl := some.inj hsame
      exact absurd hnewer.older (not_lt.mpr hnewer.preserved)
    | ok =>
      have hsaved := saved_of_sync hstored hafter
      rw [syncLegacyMirrorForPr_of_ok _ hafter] at hsaved ⊢
      exact iff_of_true hsaved.lockThenGet rfl

/-- The store of a directory without files. -/
def empty : ShipStore where
  records := .empty
  legacy := fun _ => none
  collision := fun _ => false

/-- The record of one ship, last updated at some time. -/
def recordAt (updatedAt : Time) : ShipState := { pr := 7, repo := "owner/repo", updatedAt }

/-- Saving an older snapshot over a mirrored record fails after replacing it. -/
theorem older_snapshot_replaces_record_and_fails :
    ((empty.save (recordAt 10)).1.readScoped "owner/repo" 7 = some (recordAt 10) ∧
      ((empty.save (recordAt 10)).1.saveScopedLocked (recordAt 5)).2 =
        .error (notPreservedMessage (recordAt 10)) ∧
      ((empty.save (recordAt 10)).1.saveScopedLocked (recordAt 5)).1.readScoped "owner/repo" 7 =
        some (recordAt 5)) ∧
    ¬SaveIsAtomic (empty.save (recordAt 10)).1 (recordAt 5) := by
  have hruns : (empty.save (recordAt 10)).1.readScoped "owner/repo" 7 = some (recordAt 10) ∧
      ((empty.save (recordAt 10)).1.saveScopedLocked (recordAt 5)).2 =
        .error (notPreservedMessage (recordAt 10)) ∧
      ((empty.save (recordAt 10)).1.saveScopedLocked (recordAt 5)).1.readScoped "owner/repo" 7 =
        some (recordAt 5) := by decide +kernel
  refine ⟨hruns, fun hatomic => ?_⟩
  obtain ⟨hfirst, herror, hstale⟩ := hruns
  unfold SaveIsAtomic at hatomic
  split at hatomic
  next after failure hsave =>
    have hsame : after.readScoped "owner/repo" 7 = some (recordAt 10) :=
      (congrArg (·.bind StateFile.state?) hatomic).trans hfirst
    rw [hsave] at hstale
    exact absurd (hsame.symm.trans hstale) (by decide)
  next after hsave =>
    rw [hsave] at herror
    cases herror

end ShipStore

end Shipyard.Ship
