import Shipyard.Lib.Machine
import Shipyard.Ship.Store

/-!
# The legacy mirror over whole runs

Saves, deletions and archivals of any repositories, and the writes of older
binaries. While the clock does not go back and no older binary writes, the
mirror and the marker of a number are determined by the records of the number.
What an older binary writes can reach a record in one way only.
-/

namespace Shipyard.Ship

open Lib SortedMap Function List Option

/-- One operation on the store, with its arguments. -/
inductive StoreOp where
  | save (state : ShipState)
  | delete (repository : String) (pr : Nat)
  | archive (repository : String) (pr : Nat)
  /-- An older binary writes the mirror; it does not know the other files. -/
  | oldWrite (state : ShipState)

namespace StoreOp

/-- The record an operation is about. -/
def key : StoreOp → RecordKey
  | .save state => scopedKey state.repo state.pr
  | .delete repository pr => scopedKey repository pr
  | .archive repository pr => scopedKey repository pr
  | .oldWrite state => scopedKey state.repo state.pr

def pr : StoreOp → Nat
  | .save state => state.pr
  | .delete _ pr => pr
  | .archive _ pr => pr
  | .oldWrite state => state.pr

def apply (store : ShipStore) : StoreOp → ShipStore
  | .save state => (store.save state).1
  | .delete repository pr => (store.deleteScoped repository pr).1
  | .archive repository pr => (store.archiveScoped repository pr).1
  | .oldWrite state => store.setLegacy state.pr (some (.record state))

/-- No older binary writes, and a saved state is no older than the record it replaces. -/
def inOrder (store : ShipStore) : StoreOp → Bool
  | .save state =>
    (store.readScoped state.repo state.pr).all fun current => current.updatedAt ≤ state.updatedAt
  | .delete _ _ => true
  | .archive _ _ => true
  | .oldWrite _ => false

abbrev InOrder (store : ShipStore) (operation : StoreOp) : Prop := inOrder store operation = true

end StoreOp

def storeMachine : Machine ShipStore StoreOp where
  init := fun store => store = .empty
  exec := fun store operation => some (operation.apply store)

namespace ShipStore

/-! ## Consistent stores -/

/-- The mirror and the marker of a number agree with its records. -/
structure MirrorAt (store : ShipStore) (pr : Nat) : Prop where
  mirror : ∀ file, store.legacy pr = some file ↔ store.scopedFilesForPr pr = [file]
  fence : store.collision pr = true ↔ 2 ≤ (store.scopedFilesForPr pr).length

/-- Every record is readable and stored under its own repository and number. -/
def Named (store : ShipStore) : Prop :=
  ∀ key file, store.records.get? key = some file →
    ∃ state, file = .record state ∧ key = scopedKey state.repo state.pr

structure Consistent (store : ShipStore) : Prop where
  named : store.Named
  mirrors : ∀ pr, store.MirrorAt pr

section Named

variable {store : ShipStore}

variable (hnamed : store.Named)

include hnamed

theorem Named.mem_scopedFilesForPr {pr : Nat} {file : StateFile}
    (hmem : file ∈ store.scopedFilesForPr pr) :
    ∃ state, file = .record state ∧ state.pr = pr ∧
      store.readScoped state.repo state.pr = some state := by
  rw [scopedFilesForPr, List.mem_map] at hmem
  obtain ⟨⟨key, file⟩, hentry, rfl⟩ := hmem
  obtain ⟨hentry, hpr⟩ := mem_filter.mp hentry
  have hget := get?_of_mem_entries hentry
  obtain ⟨state, rfl, rfl⟩ := hnamed key file hget
  refine ⟨state, rfl, of_decide_eq_true hpr, ?_⟩
  rw [readScoped, hget]
  rfl

/-- Every file of a number is one of its records. -/
theorem Named.map_scopedStatesForPr (pr : Nat) :
    store.scopedFilesForPr pr = (store.scopedStatesForPr pr).map .record := by
  have hall : ∀ files : List StateFile, (∀ file ∈ files, ∃ state, file = .record state) →
      files = (files.filterMap StateFile.state?).map .record := by
    intro files hfiles
    induction files with
    | nil => rfl
    | cons file rest ih =>
      obtain ⟨state, rfl⟩ := hfiles file mem_cons_self
      rw [filterMap_cons_some (show (StateFile.record state).state? = some state from rfl),
        map_cons, ← ih fun other hother => hfiles other (mem_cons_of_mem _ hother)]
  refine hall _ fun file hfile => ?_
  obtain ⟨state, hstate, _⟩ := hnamed.mem_scopedFilesForPr hfile
  exact ⟨state, hstate⟩

theorem Named.persistScoped (state : ShipState) :
    (store.persistScoped state.repo state.pr state).Named := by
  intro key file hget
  rw [get?_persistScoped] at hget
  split at hget
  next hkey => exact ⟨state, (some.inj hget).symm, hkey⟩
  · exact hnamed key file hget

theorem Named.removeScoped (repository : String) (pr : Nat) :
    (store.removeScoped repository pr).Named := by
  intro key file hget
  rw [ShipStore.removeScoped, get?_erase] at hget
  split at hget
  · cases hget
  · exact hnamed key file hget

end Named

/-! ## One number at a time -/

section MirrorAt

variable {store : ShipStore} {pr : Nat}

/-- A store that differs from a consistent one at one number only. -/
structure ConsistentExcept (store : ShipStore) (pr : Nat) : Prop where
  named : store.Named
  mirrors : ∀ other, other ≠ pr → store.MirrorAt other

theorem MirrorAt.congr {after : ShipStore} (hat : store.MirrorAt pr)
    (hfiles : after.scopedFilesForPr pr = store.scopedFilesForPr pr)
    (hlegacy : after.legacy pr = store.legacy pr)
    (hcollision : after.collision pr = store.collision pr) : after.MirrorAt pr := by
  refine ⟨fun file => ?_, ?_⟩
  · rw [hlegacy, hfiles]
    exact hat.mirror file
  · rw [hcollision, hfiles]
    exact hat.fence

theorem scopedFilesForPr_persistScoped {other : Nat} (hne : other ≠ pr) (repository : String)
    (state : ShipState) :
    (store.persistScoped repository pr state).scopedFilesForPr other =
      store.scopedFilesForPr other := by
  have hkey : decide ((ofLex (scopedKey repository pr)).2 = other) = false :=
    decide_eq_false (Ne.symm hne)
  exact congrArg (List.map Prod.snd)
    (filter_insertEntry (p := fun key : RecordKey => decide ((ofLex key).2 = other)) hkey _ _)

theorem scopedFilesForPr_removeScoped {other : Nat} (hne : other ≠ pr) (repository : String) :
    (store.removeScoped repository pr).scopedFilesForPr other = store.scopedFilesForPr other := by
  have hkey : decide ((ofLex (scopedKey repository pr)).2 = other) = false :=
    decide_eq_false (Ne.symm hne)
  exact congrArg (List.map Prod.snd)
    (filter_entries_erase (p := fun key : RecordKey => decide ((ofLex key).2 = other))
      hkey _)

/-- Updating the mirror of a number makes the store consistent there. -/
theorem ConsistentExcept.sync (hexcept : store.ConsistentExcept pr)
    (hok : store.ensureLegacyIsPreserved pr = .ok ()) :
    (store.syncLegacyMirrorForPr pr).1.Consistent := by
  rw [syncLegacyMirrorForPr_of_ok store hok]
  refine ⟨hexcept.named, fun other => ?_⟩
  by_cases hother : other = pr
  · subst hother
    have hfiles := hexcept.named.map_scopedStatesForPr other
    constructor
    case mirror =>
      intro file
      simp only [update_self]
      refine Iff.trans ?_ (Iff.of_eq (congrArg (· = [file]) hfiles.symm))
      rcases store.scopedStatesForPr other with _ | ⟨first, _ | ⟨second, rest⟩⟩ <;> simp [mirrorOf]
    case fence =>
      simp only [update_self, decide_eq_true_eq]
      rw [← length_map (f := StateFile.record), ← hfiles]
      rfl
  · exact (hexcept.mirrors other hother).congr rfl (update_of_ne hother _ _)
      (update_of_ne hother _ _)

variable (hconsistent : store.Consistent)

include hconsistent

/-- In a consistent store the mirror holds a stored record. -/
theorem Consistent.readScoped_of_readLegacy {legacy : ShipState}
    (hlegacy : store.readLegacy pr = some legacy) :
    legacy.pr = pr ∧ store.readScoped legacy.repo legacy.pr = some legacy := by
  obtain ⟨file, hfile, hstate⟩ := bind_eq_some_iff.mp hlegacy
  have honly := ((hconsistent.mirrors pr).mirror file).mp hfile
  obtain ⟨state, rfl, hpr, hread⟩ :=
    hconsistent.named.mem_scopedFilesForPr (honly ▸ mem_singleton_self file)
  obtain rfl := some.inj hstate
  exact ⟨hpr, hread⟩

theorem Consistent.ensure (pr : Nat) :
    store.ensureLegacyIsPreserved pr = .ok () := by
  rw [ensureLegacyIsPreserved_eq_ok]
  intro legacy hlegacy
  obtain ⟨_, hread⟩ := hconsistent.readScoped_of_readLegacy hlegacy
  simp [legacyIsPreserved, hread]

/-- A consistent mirror is already up to date. -/
theorem Consistent.sync (pr : Nat) :
    store.syncLegacyMirrorForPr pr = (store, .ok ()) := by
  have hfiles := hconsistent.named.map_scopedStatesForPr pr
  have hat := hconsistent.mirrors pr
  have hlegacy : mirrorOf (store.scopedStatesForPr pr) = store.legacy pr := by
    cases hmirror : store.legacy pr with
    | some file =>
      have honly := (hat.mirror file).mp hmirror
      rw [hfiles] at honly
      obtain ⟨state, hstates, rfl⟩ := map_eq_singleton_iff.mp honly
      rw [hstates, mirrorOf]
    | none =>
      unfold mirrorOf
      split
      next state hstates =>
        have hsome := (hat.mirror (.record state)).mpr (by rw [hfiles, hstates]; rfl)
        rw [hmirror] at hsome
        cases hsome
      · rfl
  have hfence : decide (2 ≤ (store.scopedStatesForPr pr).length) = store.collision pr := by
    have hcount := hat.fence
    rw [hfiles, length_map] at hcount
    rw [Bool.eq_iff_iff, decide_eq_true_eq, hcount]
  rw [syncLegacyMirrorForPr_of_ok store (hconsistent.ensure pr), hlegacy, hfence,
    update_eq_self, update_eq_self]

/-- Taking the lock on a consistent store changes no file. -/
theorem Consistent.lock (repository : String) (pr : Nat) :
    store.lockPrScoped repository pr = (store, .ok ()) := by
  have hunrepresented : store.migrateUnrepresentedLegacy pr = store := by
    unfold migrateUnrepresentedLegacy
    split
    · rfl
    · split
      · rfl
      next legacy hlegacy =>
        have hok := (ensureLegacyIsPreserved_eq_ok store).mp (hconsistent.ensure pr) legacy hlegacy
        rw [if_pos hok]
  rw [lockPrScoped, hunrepresented, migrateMatchingLegacyLocked]
  split
  · rfl
  · split
    · rfl
    next legacy hlegacy =>
      split
      · rfl
      next hsame =>
        obtain ⟨hpr, hread⟩ := hconsistent.readScoped_of_readLegacy hlegacy
        have hstored : store.readScoped repository pr = some legacy := by
          rw [readScoped, ← scopedKey_congr (by simpa using hsame), ← hpr]
          exact hread
        -- The mirror is the stored record, so there is nothing newer to import.
        rw [if_neg (by simp [isNewer, hstored])]
        exact hconsistent.sync pr

end MirrorAt

/-! ## Operations in order -/

section InOrder

variable {store : ShipStore}

section

variable (hconsistent : store.Consistent)

include hconsistent

theorem Consistent.persist (state : ShipState) :
    (store.persistScoped state.repo state.pr state).ConsistentExcept state.pr where
  named := hconsistent.named.persistScoped state
  mirrors := fun other hother => (hconsistent.mirrors other).congr
    (scopedFilesForPr_persistScoped hother state.repo state) rfl rfl

/-- The mirror of a consistent store is preserved by a record that is no older. -/
theorem Consistent.ensure_persist {state : ShipState}
    (horder : StoreOp.InOrder store (.save state)) :
    (store.persistScoped state.repo state.pr state).ensureLegacyIsPreserved state.pr = .ok () := by
  rw [ensure_after_persist (hconsistent.ensure state.pr)]
  rintro ⟨legacy, current, hnewer⟩
  obtain ⟨hpr, hread⟩ := hconsistent.readScoped_of_readLegacy hnewer.mirror
  rw [readScoped, scopedKey_congr hnewer.sameRepo, hpr, ← readScoped] at hread
  have hle : legacy.updatedAt ≤ state.updatedAt := by
    simpa [StoreOp.InOrder, StoreOp.inOrder, hread] using horder
  exact absurd hnewer.older (not_lt.mpr hle)

theorem Consistent.save {state : ShipState} (horder : StoreOp.InOrder store (.save state)) :
    (store.save state).1.Consistent := by
  rw [ShipStore.save, underLock, hconsistent.lock]
  change (store.saveScopedLocked state).1.Consistent
  rw [saveScopedLocked_eq_of_ensure (hconsistent.ensure state.pr)]
  exact (hconsistent.persist state).sync (hconsistent.ensure_persist horder)

theorem Consistent.delete (repository : String) (pr : Nat) :
    (store.deleteScopedLocked repository pr).1.Consistent := by
  unfold deleteScopedLocked
  have hfiles : ∀ other, other ≠ pr →
      (store.removeScoped repository pr).MirrorAt other := fun other hother =>
    (hconsistent.mirrors other).congr (scopedFilesForPr_removeScoped hother repository) rfl rfl
  have hnamed := hconsistent.named.removeScoped repository pr
  unfold removeMatchingLegacy
  split
  · refine ConsistentExcept.sync ⟨hnamed, fun other hother => ?_⟩ ?_
    · exact (hfiles other hother).congr rfl (update_of_ne hother _ _) rfl
    · rw [ensureLegacyIsPreserved, readLegacy_setLegacy]
      rfl
  next hother =>
    refine ConsistentExcept.sync ⟨hnamed, hfiles⟩ ?_
    rw [ensureLegacyIsPreserved_eq_ok]
    intro legacy hlegacy
    -- The mirror is of another repository, whose record stays.
    have hmirror : store.readLegacy pr = some legacy := hlegacy
    obtain ⟨hpr, hread⟩ := hconsistent.readScoped_of_readLegacy hmirror
    have hkey : scopedKey legacy.repo legacy.pr ≠ scopedKey repository pr := by
      intro heq
      rw [hlegacy, any_some] at hother
      exact hother (scopedKey_inj heq).1
    have hstays : (store.removeScoped repository pr).readScoped legacy.repo legacy.pr =
        some legacy := by
      rw [readScoped, removeScoped, get?_erase, if_neg hkey]
      exact hread
    simp [legacyIsPreserved, hstays]

/-- Archiving from a consistent store is deleting a record that exists. -/
theorem Consistent.archive (repository : String) (pr : Nat) :
    (store.archiveScopedLocked repository pr).1.Consistent := by
  unfold archiveScopedLocked
  split
  · exact hconsistent.delete repository pr
  next hmissing =>
    split
    next hlegacy =>
      obtain ⟨legacy, hmirror, hsame⟩ := (Option.any_eq_true _ _).mp hlegacy
      obtain ⟨hpr, hread⟩ := hconsistent.readScoped_of_readLegacy hmirror
      obtain ⟨file, hget, _⟩ := bind_eq_some_iff.mp hread
      -- A mirror of this repository would have a record, which is missing.
      rw [scopedKey_congr hsame, hpr] at hget
      simp [hget] at hmissing
    · exact hconsistent

theorem Consistent.apply {operation : StoreOp}
    (horder : StoreOp.InOrder store operation) : (operation.apply store).Consistent := by
  cases operation with
  | save state => exact hconsistent.save horder
  | delete repository pr =>
    rw [StoreOp.apply, deleteScoped, underLock, hconsistent.lock]
    exact hconsistent.delete repository pr
  | archive repository pr =>
    rw [StoreOp.apply, archiveScoped, underLock, hconsistent.lock]
    exact hconsistent.archive repository pr
  | oldWrite state => cases horder

end

theorem consistent_empty : empty.Consistent where
  named := by
    intro key file hget
    cases hget
  mirrors := fun pr =>
    { mirror := fun file => by simp [empty, scopedFilesForPr, SortedMap.empty]
      fence := by simp [empty, scopedFilesForPr, SortedMap.empty] }

theorem consistent_of_reachable (hreach : storeMachine.ReachableWhen StoreOp.InOrder store) :
    store.Consistent := by
  refine hreach.invariant (I := Consistent) ?_ ?_
  · intro store hinit
    rw [show store = empty from hinit]
    exact consistent_empty
  · intro store operation after hconsistent horder hexec
    cases some.inj hexec
    exact hconsistent.apply horder

end InOrder

/-! ## What reaches a record -/

/-- The record of a key became the mirror of a number: no marker fences the
mirror off, it is of the same repository, and a record it replaces was older. -/
structure Migrated (store after : ShipStore) (pr : Nat) (key : RecordKey) : Prop where
  unfenced : store.collision pr = false
  imported : ∃ legacy, store.readLegacy pr = some legacy ∧ key = scopedKey legacy.repo pr ∧
    after.records.get? key = some (.record legacy) ∧
    ∀ current, (store.records.get? key).bind StateFile.state? = some current →
      current.updatedAt < legacy.updatedAt

section Records

variable {store : ShipStore}

/-- A record is as before or was imported from the mirror of a number. -/
def KeptOrMigrated (store after : ShipStore) (pr : Nat) (key : RecordKey) : Prop :=
  after.records.get? key = store.records.get? key ∨ Migrated store after pr key

variable {key : RecordKey} {pr : Nat}

theorem KeptOrMigrated.of_eq {after last : ShipStore} (hkept : KeptOrMigrated store after pr key)
    (heq : last.records.get? key = after.records.get? key) : KeptOrMigrated store last pr key := by
  rcases hkept with hsame | hmigrated
  · exact .inl (heq.trans hsame)
  · obtain ⟨hunfenced, legacy, hmirror, hkey, hget, holder⟩ := hmigrated
    exact .inr ⟨hunfenced, legacy, hmirror, hkey, heq.trans hget, holder⟩

variable {repository : String}

/-- Importing a mirror that is newer. -/
theorem keptOrMigrated_import {legacy : ShipState} (hunfenced : store.collision pr = false)
    (hmirror : store.readLegacy pr = some legacy)
    (hsame : sameRepository legacy.repo repository = true)
    (hnewer : isNewer legacy (store.readScoped repository pr) = true) (key : RecordKey) :
    KeptOrMigrated store (store.persistScoped repository pr legacy) pr key := by
  by_cases hkey : key = scopedKey repository pr
  · refine .inr ⟨hunfenced, legacy, hmirror, ?_, ?_, ?_⟩
    · rw [hkey, scopedKey_congr hsame]
    · rw [get?_persistScoped, if_pos hkey]
    · intro current hcurrent
      rw [hkey, ← readScoped] at hcurrent
      simpa [isNewer, hcurrent] using hnewer
  · left
    rw [get?_persistScoped, if_neg hkey]

theorem keptOrMigrated_unrepresented (pr : Nat) (key : RecordKey) :
    KeptOrMigrated store (store.migrateUnrepresentedLegacy pr) pr key := by
  unfold migrateUnrepresentedLegacy
  split
  · exact .inl rfl
  next hunfenced =>
    split
    · exact .inl rfl
    next legacy hmirror =>
      split
      · exact .inl rfl
      · split
        next hnewer =>
          exact keptOrMigrated_import (by simpa using hunfenced) hmirror
            (sameRepository_refl legacy.repo) hnewer key
        · exact .inl rfl

theorem migrateUnrepresentedLegacy_legacy (store : ShipStore) (pr : Nat) :
    (store.migrateUnrepresentedLegacy pr).legacy = store.legacy ∧
      (store.migrateUnrepresentedLegacy pr).collision = store.collision := by
  unfold migrateUnrepresentedLegacy
  split
  · exact ⟨rfl, rfl⟩
  · split
    · exact ⟨rfl, rfl⟩
    · split_ifs <;> exact ⟨rfl, rfl⟩

theorem keptOrMigrated_matching (repository : String) (pr : Nat) (key : RecordKey) :
    KeptOrMigrated store (store.migrateMatchingLegacyLocked repository pr).1 pr key := by
  unfold migrateMatchingLegacyLocked
  split
  · exact .inl rfl
  next hunfenced =>
    split
    · exact .inl rfl
    next legacy hmirror =>
      split
      · exact .inl rfl
      next hsame =>
        split
        next hnewer =>
          refine (keptOrMigrated_import (by simpa using hunfenced) hmirror (by simpa using hsame)
            hnewer key).of_eq ?_
          rw [syncLegacyMirrorForPr_scoped]
        · left
          rw [syncLegacyMirrorForPr_scoped]

/-- The mirror is imported at most once: an imported record is not older than it. -/
theorem KeptOrMigrated.trans {middle after : ShipStore}
    (hfirst : KeptOrMigrated store middle pr key) (hlegacy : middle.legacy = store.legacy)
    (hcollision : middle.collision = store.collision) (hsecond : KeptOrMigrated middle after pr key)
    : KeptOrMigrated store after pr key := by
  rcases hsecond with hsame | ⟨hunfenced, legacy, hmirror, hkey, hget, holder⟩
  · exact hfirst.of_eq hsame
  · rw [hcollision] at hunfenced
    rw [readLegacy, hlegacy, ← readLegacy] at hmirror
    rcases hfirst with hsame | ⟨_, earlier, hearlier, _, hstored, _⟩
    · exact .inr ⟨hunfenced, legacy, hmirror, hkey, hget, fun current hcurrent =>
        holder current (by rw [hsame, hcurrent])⟩
    · -- Both imports read the one mirror, so the second replaces nothing older.
      obtain rfl := some.inj (hearlier.symm.trans hmirror)
      exact absurd (holder earlier (by rw [hstored]; rfl)) (lt_irrefl _)

theorem keptOrMigrated_lock (store : ShipStore) (repository : String) (pr : Nat) (key : RecordKey) :
    KeptOrMigrated store (store.lockPrScoped repository pr).1 pr key :=
  (keptOrMigrated_unrepresented pr key).trans (migrateUnrepresentedLegacy_legacy store pr).1
    (migrateUnrepresentedLegacy_legacy store pr).2 (keptOrMigrated_matching repository pr key)

/-! ### Under the lock -/

theorem get?_saveScopedLocked {state : ShipState} (hkey : key ≠ scopedKey state.repo state.pr)
    (store : ShipStore) :
    (store.saveScopedLocked state).1.records.get? key = store.records.get? key := by
  unfold saveScopedLocked
  split
  · rfl
  · rw [syncLegacyMirrorForPr_scoped, get?_persistScoped, if_neg hkey]

theorem removeMatchingLegacy_records (store : ShipStore) (repository : String) (pr : Nat) :
    (store.removeMatchingLegacy repository pr).records = store.records := by
  unfold removeMatchingLegacy
  split <;> rfl

theorem get?_deleteScopedLocked (hkey : key ≠ scopedKey repository pr) (store : ShipStore) :
    (store.deleteScopedLocked repository pr).1.records.get? key = store.records.get? key := by
  rw [deleteScopedLocked, syncLegacyMirrorForPr_scoped, removeMatchingLegacy_records, removeScoped,
    get?_erase, if_neg hkey]

theorem get?_archiveScopedLocked (hkey : key ≠ scopedKey repository pr) (store : ShipStore) :
    (store.archiveScopedLocked repository pr).1.records.get? key = store.records.get? key := by
  unfold archiveScopedLocked
  split
  · exact get?_deleteScopedLocked hkey store
  · split
    · rw [syncLegacyMirrorForPr_scoped, removeMatchingLegacy_records]
      rfl
    · rfl

theorem get?_underLock {α : Type} {operation : ShipStore → ShipStore × Except String α}
    (hkeeps : ∀ locked, (operation locked).1.records.get? key = locked.records.get? key)
    (store : ShipStore) :
    (store.underLock repository pr operation).1.records.get? key =
      (store.lockPrScoped repository pr).1.records.get? key := by
  unfold underLock
  split
  next locked hlocked => rw [hlocked, hkeeps]
  next locked error hlocked => rw [hlocked]

/-- Under the lock an operation changes no record but its own. -/
theorem exists_locked_of_apply (store : ShipStore) (operation : StoreOp) :
    (∃ repository, ∀ key, key ≠ operation.key → (operation.apply store).records.get? key =
      (store.lockPrScoped repository operation.pr).1.records.get? key) ∨
    (operation.apply store).records = store.records := by
  cases operation with
  | save state =>
    exact .inl ⟨state.repo, fun key hkey => get?_underLock (get?_saveScopedLocked hkey) store⟩
  | delete repository pr =>
    exact .inl ⟨repository, fun key hkey => get?_underLock (get?_deleteScopedLocked hkey) store⟩
  | archive repository pr =>
    exact .inl ⟨repository, fun key hkey => get?_underLock (get?_archiveScopedLocked hkey) store⟩
  -- An older binary takes no lock and writes no record.
  | oldWrite state => exact .inr rfl

end Records

theorem keptOrMigrated_apply (store : ShipStore) (operation : StoreOp) {key : RecordKey}
    (hkey : key ≠ operation.key) :
    KeptOrMigrated store (operation.apply store) operation.pr key := by
  rcases exists_locked_of_apply store operation with ⟨repository, hlocked⟩ | hrecords
  · exact (keptOrMigrated_lock store repository operation.pr key).of_eq (hlocked key hkey)
  · left
    rw [hrecords]

theorem Consistent.get?_apply {store : ShipStore} (hconsistent : store.Consistent)
    (operation : StoreOp) {key : RecordKey} (hkey : key ≠ operation.key) :
    (operation.apply store).records.get? key = store.records.get? key := by
  rcases exists_locked_of_apply store operation with ⟨repository, hlocked⟩ | hrecords
  · rw [hlocked key hkey, hconsistent.lock]
  · rw [hrecords]

/-- Over every run without older binaries and with saves in order, the mirror
of a number is its only record, the marker says that there are several, and an
operation changes no other record. In any store, taking a lock and operating on
one record change another only by importing a newer mirror that is not fenced. -/
theorem mirror_follows_the_records :
    (∀ store, storeMachine.ReachableWhen StoreOp.InOrder store →
      (∀ pr, store.MirrorAt pr) ∧
      ∀ operation, StoreOp.InOrder store operation → ∀ key, key ≠ operation.key →
        (operation.apply store).records.get? key = store.records.get? key) ∧
    (∀ store repository pr key,
      KeptOrMigrated store (store.lockPrScoped repository pr).1 pr key) ∧
    ∀ (store : ShipStore) (operation : StoreOp) (key : RecordKey), key ≠ operation.key →
      KeptOrMigrated store (operation.apply store) operation.pr key := by
  refine ⟨fun store hreach => ?_, keptOrMigrated_lock, fun store operation key hkey =>
    keptOrMigrated_apply store operation hkey⟩
  have hconsistent := consistent_of_reachable hreach
  exact ⟨hconsistent.mirrors, fun operation _ key hkey => hconsistent.get?_apply operation hkey⟩

/-- Two repositories share a number until one record is deleted. -/
theorem mirror_returns_after_collision :
    let here : ShipState := { pr := 7, repo := "owner/here", updatedAt := 10 }
    let there : ShipState := { pr := 7, repo := "owner/there", updatedAt := 20 }
    let both := ((empty.save here).1.save there).1
    let one := (both.deleteScoped "owner/here" 7).1
    (both.collision 7 = true ∧ both.legacy 7 = none) ∧ one.legacy 7 = some (.record there) := by
  intro here there both one
  have hboth : storeMachine.ReachableWhen StoreOp.InOrder both :=
    ((Machine.ReachableWhen.start rfl).step (l := .save here) (by decide +kernel) rfl).step
      (l := .save there) (by decide +kernel) rfl
  have hone : storeMachine.ReachableWhen StoreOp.InOrder one :=
    hboth.step (l := .delete "owner/here" 7) rfl rfl
  have hfiles : both.scopedFilesForPr 7 = [.record here, .record there] := by decide +kernel
  have hleft : one.scopedFilesForPr 7 = [.record there] := by decide +kernel
  refine ⟨⟨?_, by decide +kernel⟩, ?_⟩
  · rw [((mirror_follows_the_records.1 both hboth).1 7).fence, hfiles]
    decide
  · exact (((mirror_follows_the_records.1 one hone).1 7).mirror _).mpr hleft

end ShipStore

end Shipyard.Ship
