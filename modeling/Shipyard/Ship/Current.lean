import Shipyard.Ship.Mirror

/-!
# The state of a repository and a pull request

A record, and the mirror that an older binary may have written later, together
hold one state: the newer of the two, unless the marker fences the mirror off.
Taking a lock moves that state into the record and keeps the state of every
repository and number, and so does every update of the mirror.
-/

namespace Shipyard.Ship.ShipStore

open Lib Function Option

/-- Every readable file is named after the repository and number in it. -/
structure Filed (store : ShipStore) : Prop where
  records : ∀ key state, store.records.get? key = some (.record state) →
    key = scopedKey state.repo state.pr
  mirrors : ∀ pr state, store.readLegacy pr = some state → state.pr = pr

/-- The mirror of a number, when it is of this repository and not fenced off. -/
def visibleLegacy (store : ShipStore) (repository : String) (pr : Nat) : Option ShipState :=
  if store.collision pr then none
  else (store.readLegacy pr).filter fun legacy => sameRepository legacy.repo repository

/-- The state of a repository and number. -/
def current (store : ShipStore) (repository : String) (pr : Nat) : Option ShipState :=
  match store.visibleLegacy repository pr with
  | some legacy =>
    if isNewer legacy (store.readScoped repository pr) then some legacy
    else store.readScoped repository pr
  | none => store.readScoped repository pr

section Current

variable {store : ShipStore} {repository : String} {pr number : Nat} {state : ShipState}

theorem readScoped_key {other : String}
    (hkey : scopedKey other number = scopedKey repository pr) (store : ShipStore) :
    store.readScoped other number = store.readScoped repository pr := by
  rw [readScoped, hkey]
  rfl

/-- The state depends on the repository through its canonical name. -/
theorem current_key {other : String}
    (hkey : scopedKey other number = scopedKey repository pr) (store : ShipStore) :
    store.current other number = store.current repository pr := by
  have hread := readScoped_key hkey store
  obtain ⟨hsame, rfl⟩ := scopedKey_inj hkey
  have hcanonical : canonicalRepository other = canonicalRepository repository := by
    simpa [sameRepository] using hsame
  simp only [current, visibleLegacy, sameRepository, hread, hcanonical]

/-! ## Files under their names -/

section

variable (hfiled : store.Filed)

include hfiled

theorem Filed.of_readScoped (hread : store.readScoped repository pr = some state) :
    sameRepository state.repo repository = true ∧ state.pr = pr := by
  obtain ⟨file, hget, hstate⟩ := bind_eq_some_iff.mp hread
  cases file with
  | unreadable => cases hstate
  | record found =>
    obtain rfl := some.inj hstate
    exact scopedKey_inj (hfiled.records _ _ hget).symm

/-- The state of a repository and number names them. -/
theorem Filed.of_current (hcurrent : store.current repository pr = some state) :
    sameRepository state.repo repository = true ∧ state.pr = pr := by
  unfold current at hcurrent
  split at hcurrent
  next legacy hvisible =>
    split at hcurrent
    · obtain rfl := some.inj hcurrent
      unfold visibleLegacy at hvisible
      split at hvisible
      · cases hvisible
      · obtain ⟨hlegacy, hsame⟩ := filter_eq_some_iff.mp hvisible
        exact ⟨hsame, hfiled.mirrors pr legacy hlegacy⟩
    · exact hfiled.of_readScoped hcurrent
  · exact hfiled.of_readScoped hcurrent

theorem Filed.of_mem_scopedStatesForPr (hmem : state ∈ store.scopedStatesForPr pr) :
    state.pr = pr ∧ store.readScoped state.repo pr = some state := by
  obtain ⟨file, hfile, hstate⟩ := List.mem_filterMap.mp hmem
  obtain ⟨⟨key, file⟩, hentry, rfl⟩ := List.mem_map.mp hfile
  obtain ⟨hentry, hpr⟩ := List.mem_filter.mp hentry
  cases file with
  | unreadable => cases hstate
  | record found =>
    obtain rfl := some.inj hstate
    have hget := SortedMap.get?_of_mem_entries hentry
    have hkey := hfiled.records _ _ hget
    subst hkey
    have hnumber : found.pr = pr := of_decide_eq_true hpr
    subst hnumber
    refine ⟨rfl, ?_⟩
    rw [readScoped, hget]
    rfl

theorem Filed.persistScoped (hname : sameRepository state.repo repository = true)
    (hpr : state.pr = pr) :
    (store.persistScoped repository pr state).Filed where
  records key found hget := by
    rw [get?_persistScoped] at hget
    split at hget
    next hkey =>
      obtain rfl := StateFile.record.inj (some.inj hget)
      rw [hkey, hpr, scopedKey_congr hname]
    · exact hfiled.records key found hget
  mirrors := hfiled.mirrors

theorem Filed.removeScoped (repository : String) (pr : Nat) :
    (store.removeScoped repository pr).Filed where
  records key found hget := by
    rw [ShipStore.removeScoped, SortedMap.get?_erase] at hget
    split at hget
    · cases hget
    · exact hfiled.records key found hget
  mirrors := hfiled.mirrors

theorem Filed.setLegacy_none (pr : Nat) :
    (store.setLegacy pr none).Filed where
  records := hfiled.records
  mirrors := fun number found hread => by
    by_cases hnumber : number = pr
    · subst hnumber
      rw [readLegacy_setLegacy] at hread
      cases hread
    · simp only [readLegacy, ShipStore.setLegacy, update_of_ne hnumber] at hread
      exact hfiled.mirrors number found hread

/-- The updated mirror is the only record of its number. -/
theorem Filed.of_readLegacy_sync (hensure : store.ensureLegacyIsPreserved pr = .ok ())
    (hread : (store.syncLegacyMirrorForPr pr).1.readLegacy pr = some state) :
    state.pr = pr ∧ store.readScoped state.repo pr = some state := by
  rw [syncLegacyMirrorForPr_of_ok store hensure] at hread
  simp only [readLegacy, update_self] at hread
  rcases hstates : store.scopedStatesForPr pr with _ | ⟨first, _ | ⟨second, rest⟩⟩ <;>
    rw [hstates] at hread
  · cases hread
  · obtain rfl := some.inj hread
    exact hfiled.of_mem_scopedStatesForPr (by rw [hstates]; exact List.mem_cons_self)
  · cases hread

theorem Filed.sync (pr : Nat) : (store.syncLegacyMirrorForPr pr).1.Filed where
  records key found hget := by
    rw [syncLegacyMirrorForPr_scoped] at hget
    exact hfiled.records key found hget
  mirrors number found hread := by
    cases hensure : store.ensureLegacyIsPreserved pr with
    | error error =>
      rw [syncLegacyMirrorForPr, hensure] at hread
      exact hfiled.mirrors number found hread
    | ok done =>
      by_cases hnumber : number = pr
      · subst hnumber
        exact (hfiled.of_readLegacy_sync hensure hread).1
      · rw [syncLegacyMirrorForPr_of_ok store hensure] at hread
        simp only [readLegacy, update_of_ne hnumber] at hread
        exact hfiled.mirrors number found hread

end

/-! ## Preserved mirrors -/

variable {legacy : ShipState}

/-- A preserved mirror of a repository is not newer than its record. -/
theorem not_isNewer_of_preserved (hpreserved : store.legacyIsPreserved legacy = true)
    (hcollision : store.collision legacy.pr = false) :
    isNewer legacy (store.readScoped legacy.repo legacy.pr) = false := by
  rw [legacyIsPreserved, hcollision, Bool.false_or] at hpreserved
  cases hread : store.readScoped legacy.repo legacy.pr with
  | none =>
    rw [hread] at hpreserved
    cases hpreserved
  | some found =>
    rw [hread] at hpreserved
    simpa [isNewer] using hpreserved

/-- Where the mirror is preserved, the record is the state. -/
theorem Filed.current_of_ensure (hfiled : store.Filed)
    (hensure : store.ensureLegacyIsPreserved pr = .ok ()) (repository : String) :
    store.current repository pr = store.readScoped repository pr := by
  unfold current visibleLegacy
  cases hcollision : store.collision pr with
  | true => rfl
  | false =>
    rw [if_neg (by simp)]
    cases hlegacy : store.readLegacy pr with
    | none => rfl
    | some legacy =>
      have hpr := hfiled.mirrors pr legacy hlegacy
      subst hpr
      by_cases hsame : sameRepository legacy.repo repository = true
      · have hold := not_isNewer_of_preserved
          ((store.ensureLegacyIsPreserved_eq_ok).mp hensure legacy hlegacy) hcollision
        have hread := readScoped_key (scopedKey_congr hsame legacy.pr) store
        rw [filter_some, if_pos hsame, ← hread]
        simp [hold]
      · rw [filter_some, if_neg hsame]

/-! ## Updating the mirror -/

/-- The state of a repository depends on its record, the mirror and the marker. -/
theorem current_congr {after : ShipStore}
    (hread : after.readScoped repository pr = store.readScoped repository pr)
    (hlegacy : after.legacy pr = store.legacy pr)
    (hcollision : after.collision pr = store.collision pr) :
    after.current repository pr = store.current repository pr := by
  simp only [current, visibleLegacy, readLegacy, hread, hlegacy, hcollision]

theorem readScoped_sync (pr : Nat) (repository : String) (number : Nat) :
    (store.syncLegacyMirrorForPr pr).1.readScoped repository number =
      store.readScoped repository number := by
  rw [readScoped, syncLegacyMirrorForPr_scoped]
  rfl

/-- The updated mirror is preserved. -/
theorem Filed.ensure_sync (hfiled : store.Filed)
    (hensure : store.ensureLegacyIsPreserved pr = .ok ()) :
    (store.syncLegacyMirrorForPr pr).1.ensureLegacyIsPreserved pr = .ok () := by
  rw [ensureLegacyIsPreserved_eq_ok]
  intro legacy hlegacy
  obtain ⟨hpr, hread⟩ := hfiled.of_readLegacy_sync hensure hlegacy
  rw [legacyIsPreserved, readScoped_sync, hpr, hread]
  simp

theorem Filed.current_sync (hfiled : store.Filed) (pr : Nat) (repository : String) (number : Nat) :
    (store.syncLegacyMirrorForPr pr).1.current repository number =
      store.current repository number := by
  cases hensure : store.ensureLegacyIsPreserved pr with
  | error error => rw [syncLegacyMirrorForPr, hensure]
  | ok done =>
    by_cases hnumber : number = pr
    · subst hnumber
      rw [(hfiled.sync number).current_of_ensure (hfiled.ensure_sync hensure),
        hfiled.current_of_ensure hensure, readScoped_sync]
    · refine current_congr (readScoped_sync pr repository number) ?_ ?_ <;>
        rw [syncLegacyMirrorForPr_of_ok store hensure] <;>
        exact update_of_ne hnumber _ _

/-! ## Taking a lock -/

/-- Moving a newer mirror into its record keeps every state. -/
theorem current_persist_newer (hcollision : store.collision pr = false)
    (hlegacy : store.readLegacy pr = some legacy)
    (hnewer : isNewer legacy (store.readScoped legacy.repo pr) = true) (repository : String)
    (number : Nat) :
    (store.persistScoped legacy.repo pr legacy).current repository number =
      store.current repository number := by
  by_cases hkey : scopedKey repository number = scopedKey legacy.repo pr
  · obtain ⟨hsame, rfl⟩ := scopedKey_inj hkey
    have hread := readScoped_key hkey store
    have hvisible : store.visibleLegacy repository number = some legacy := by
      rw [visibleLegacy, hcollision, if_neg (by simp), hlegacy, filter_some, if_pos]
      rw [sameRepository, decide_eq_true_eq] at hsame ⊢
      exact hsame.symm
    have hbefore : store.current repository number = some legacy := by
      rw [current, hvisible, hread]
      simp [hnewer]
    rw [hbefore, current, readScoped_persistScoped, if_pos hkey]
    have hafter : (store.persistScoped legacy.repo number legacy).visibleLegacy repository number =
        some legacy := hvisible
    rw [hafter]
    simp [isNewer]
  · refine current_congr ?_ rfl rfl
    rw [readScoped_persistScoped, if_neg hkey]

theorem Filed.migrateUnrepresented (hfiled : store.Filed) (pr : Nat) :
    (store.migrateUnrepresentedLegacy pr).Filed := by
  unfold migrateUnrepresentedLegacy
  split
  · exact hfiled
  · split
    · exact hfiled
    next legacy hlegacy =>
      split_ifs
      · exact hfiled
      · exact hfiled.persistScoped (sameRepository_refl _) (hfiled.mirrors pr legacy hlegacy)
      · exact hfiled

theorem current_migrateUnrepresented (store : ShipStore) (pr : Nat) (repository : String)
    (number : Nat) :
    (store.migrateUnrepresentedLegacy pr).current repository number =
      store.current repository number := by
  unfold migrateUnrepresentedLegacy
  split
  · rfl
  next hcollision =>
    split
    · rfl
    next legacy hlegacy =>
      split_ifs with hpreserved hnewer
      · rfl
      · exact current_persist_newer (by simpa using hcollision) hlegacy hnewer repository number
      · rfl

/-- After the first migration the mirror is preserved. -/
theorem Filed.ensure_migrateUnrepresented (hfiled : store.Filed) (pr : Nat) :
    (store.migrateUnrepresentedLegacy pr).ensureLegacyIsPreserved pr = .ok () := by
  rw [ensureLegacyIsPreserved_eq_ok]
  intro legacy hread
  have hlegacy : store.readLegacy pr = some legacy := by
    rw [readLegacy, (migrateUnrepresentedLegacy_legacy store pr).1] at hread
    exact hread
  have hpr := hfiled.mirrors pr legacy hlegacy
  subst hpr
  unfold migrateUnrepresentedLegacy
  split
  next hcollision => rw [legacyIsPreserved, hcollision, Bool.true_or]
  next hcollision =>
    simp only [hlegacy]
    split_ifs with hpreserved hnewer
    · exact hpreserved
    · rw [legacyIsPreserved, readScoped_persistScoped, if_pos rfl]
      simp
    · -- A record that is not older preserves the mirror.
      rw [legacyIsPreserved]
      cases hscoped : store.readScoped legacy.repo legacy.pr with
      | none => simp [hscoped, isNewer] at hnewer
      | some found =>
        rw [hscoped] at hnewer
        have hle : legacy.updatedAt ≤ found.updatedAt := by simpa [isNewer] using hnewer
        simp [hle]

/-- What the lock leaves: every state as it was, and the record of the locked
repository as its state. -/
structure Locked (store locked : ShipStore) (pr : Nat) : Prop where
  filed : locked.Filed
  ensured : locked.ensureLegacyIsPreserved pr = .ok ()
  kept : ∀ repository number, locked.current repository number = store.current repository number

/-- Once the mirror is preserved, the second migration only updates it. -/
theorem Filed.locked_matching (hfiled : store.Filed)
    (hensure : store.ensureLegacyIsPreserved pr = .ok ()) (repository : String) :
    (store.migrateMatchingLegacyLocked repository pr).2 = .ok () ∧
      Locked store (store.migrateMatchingLegacyLocked repository pr).1 pr := by
  have hsame : Locked store store pr := ⟨hfiled, hensure, fun _ _ => rfl⟩
  have hsynced : (store.syncLegacyMirrorForPr pr).2 = .ok () := by
    rw [syncLegacyMirrorForPr_of_ok store hensure]
  unfold migrateMatchingLegacyLocked
  split
  · exact ⟨rfl, hsame⟩
  next hcollision =>
    split
    · exact ⟨rfl, hsame⟩
    next legacy hlegacy =>
      split
      · exact ⟨rfl, hsame⟩
      next hrepository =>
        have hpr := hfiled.mirrors pr legacy hlegacy
        subst hpr
        have hkept := store.ensureLegacyIsPreserved_eq_ok.mp hensure legacy hlegacy
        have hold := not_isNewer_of_preserved hkept (by simpa using hcollision)
        have hname : sameRepository legacy.repo repository = true := by simpa using hrepository
        rw [← readScoped_key (scopedKey_congr hname legacy.pr) store, hold, if_neg (by simp)]
        exact ⟨hsynced, hfiled.sync _, hfiled.ensure_sync hensure, hfiled.current_sync _⟩

theorem Filed.lock (hfiled : store.Filed) (repository : String) (pr : Nat) :
    (store.lockPrScoped repository pr).2 = .ok () ∧
      Locked store (store.lockPrScoped repository pr).1 pr := by
  obtain ⟨hok, hlocked⟩ := (hfiled.migrateUnrepresented pr).locked_matching
    (hfiled.ensure_migrateUnrepresented pr) repository
  refine ⟨hok, hlocked.filed, hlocked.ensured, fun other number => ?_⟩
  exact (hlocked.kept other number).trans (current_migrateUnrepresented store pr other number)

/-- Under the lock the state is read. -/
theorem Filed.getLockedScoped_eq (hfiled : store.Filed)
    (hensure : store.ensureLegacyIsPreserved pr = .ok ()) (repository : String) :
    store.getLockedScoped repository pr = store.current repository pr := by
  rw [hfiled.current_of_ensure hensure, getLockedScoped]
  cases hread : store.readScoped repository pr with
  | some found =>
    obtain ⟨hname, hpr⟩ := hfiled.of_readScoped hread
    simp [hname, hpr]
  | none =>
    -- A visible mirror would be preserved by the record that is missing.
    have hcurrent := hfiled.current_of_ensure hensure repository
    rw [hread, current, hread] at hcurrent
    cases hvisible : store.visibleLegacy repository pr with
    | some legacy =>
      rw [hvisible] at hcurrent
      cases hcurrent
    | none =>
      cases hcollision : store.collision pr with
      | true => rfl
      | false =>
        rw [visibleLegacy, hcollision, if_neg (by simp)] at hvisible
        cases hlegacy : store.readLegacy pr with
        | none => rfl
        | some legacy =>
          rw [hlegacy, filter_eq_none_iff] at hvisible
          simp [hvisible legacy rfl]

/-! ## Writing under the lock -/

/-- Saving keeps the state of every other repository and number. -/
theorem Filed.save_others (hfiled : store.Filed) (state : ShipState)
    (hother : scopedKey repository number ≠ scopedKey state.repo state.pr) :
    (store.saveScopedLocked state).1.current repository number =
      store.current repository number := by
  unfold saveScopedLocked
  split
  · rfl
  · rw [(hfiled.persistScoped (sameRepository_refl _) rfl).current_sync]
    refine current_congr ?_ rfl rfl
    rw [readScoped_persistScoped, if_neg hother]

theorem Filed.save (hfiled : store.Filed) (state : ShipState) :
    (store.saveScopedLocked state).1.Filed := by
  unfold saveScopedLocked
  split
  · exact hfiled
  · exact (hfiled.persistScoped (sameRepository_refl _) rfl).sync state.pr

/-- Saving the state again keeps it. -/
theorem Filed.save_same (hfiled : store.Filed)
    (hensure : store.ensureLegacyIsPreserved state.pr = .ok ())
    (hstate : store.current state.repo state.pr = some state) :
    (store.saveScopedLocked state).1.current state.repo state.pr = some state := by
  have hread : store.readScoped state.repo state.pr = some state := by
    rw [← hfiled.current_of_ensure hensure]
    exact hstate
  rw [saveScopedLocked, hensure]
  simp only
  rw [(hfiled.persistScoped (sameRepository_refl _) rfl).current_sync, ← hstate]
  refine current_congr ?_ rfl rfl
  rw [readScoped_persistScoped, if_pos rfl, hread]

/-- The record holds what was saved, also where the mirror could not be updated. -/
theorem readScoped_save (hensure : store.ensureLegacyIsPreserved state.pr = .ok ()) :
    (store.saveScopedLocked state).1.readScoped state.repo state.pr = some state := by
  rw [saveScopedLocked, hensure]
  simp only
  rw [readScoped_sync, readScoped_persistScoped, if_pos rfl]

theorem Filed.removeMatchingLegacy (hfiled : store.Filed) (repository : String) (pr : Nat) :
    (store.removeMatchingLegacy repository pr).Filed := by
  unfold ShipStore.removeMatchingLegacy
  split
  · exact hfiled.setLegacy_none pr
  · exact hfiled

/-- A removed mirror was of the deleted repository. -/
theorem visibleLegacy_removeMatchingLegacy (store : ShipStore) (repository other : String)
    (pr number : Nat) :
    (store.removeMatchingLegacy repository pr).visibleLegacy other number =
      if scopedKey other number = scopedKey repository pr then none
      else store.visibleLegacy other number := by
  unfold ShipStore.removeMatchingLegacy
  split
  next hmatches =>
    obtain ⟨legacy, hlegacy, hsame⟩ := (any_eq_true _ _).mp hmatches
    by_cases hnumber : number = pr
    · subst hnumber
      have hnone : (store.setLegacy number none).visibleLegacy other number = none := by
        rw [visibleLegacy, readLegacy_setLegacy]
        exact ite_self none
      rw [hnone]
      split
      · rfl
      next hkey =>
        -- The mirror is of the deleted repository, so no other one sees it.
        have hhidden : sameRepository legacy.repo other = false := by
          rw [Bool.eq_false_iff]
          intro hshared
          exact hkey ((scopedKey_congr hshared number).symm.trans (scopedKey_congr hsame number))
        rw [visibleLegacy, hlegacy, filter_some, hhidden]
        simp
    · rw [if_neg fun hkey => hnumber (scopedKey_inj hkey).2]
      simp only [visibleLegacy, readLegacy, ShipStore.setLegacy, update_of_ne hnumber]
  next hmatches =>
    split
    next hkey =>
      obtain ⟨hsame, rfl⟩ := scopedKey_inj hkey
      rw [visibleLegacy, filter_eq_none_iff.mpr, ite_self]
      intro legacy hlegacy hshared
      refine hmatches ((any_eq_true _ _).mpr ⟨legacy, hlegacy, ?_⟩)
      simp only [sameRepository, decide_eq_true_eq] at hsame hshared ⊢
      exact hshared.trans hsame
    · rfl

theorem readScoped_removeScoped (store : ShipStore) (repository other : String) (pr number : Nat) :
    (store.removeScoped repository pr).readScoped other number =
      if scopedKey other number = scopedKey repository pr then none
      else store.readScoped other number := by
  rw [readScoped, ShipStore.removeScoped, SortedMap.get?_erase]
  split <;> rfl

theorem Filed.current_delete (hfiled : store.Filed) (repository other : String) (pr number : Nat) :
    (store.deleteScopedLocked repository pr).1.current other number =
      if scopedKey other number = scopedKey repository pr then none
      else store.current other number := by
  have hvisible : ((store.removeScoped repository pr).removeMatchingLegacy repository
      pr).visibleLegacy other number =
      if scopedKey other number = scopedKey repository pr then none
      else store.visibleLegacy other number :=
    visibleLegacy_removeMatchingLegacy (store.removeScoped repository pr) repository other pr number
  have hread : ((store.removeScoped repository pr).removeMatchingLegacy repository
      pr).readScoped other number =
      if scopedKey other number = scopedKey repository pr then none
      else store.readScoped other number := by
    rw [readScoped, removeMatchingLegacy_records, ← readScoped, readScoped_removeScoped]
  rw [deleteScopedLocked,
    ((hfiled.removeScoped repository pr).removeMatchingLegacy repository pr).current_sync, current,
    hvisible, hread]
  by_cases hkey : scopedKey other number = scopedKey repository pr
  · simp only [if_pos hkey]
  · simp only [if_neg hkey, current]

theorem readScoped_delete (store : ShipStore) (repository : String) (pr : Nat) :
    (store.deleteScopedLocked repository pr).1.readScoped repository pr = none := by
  rw [deleteScopedLocked, readScoped_sync, readScoped, removeMatchingLegacy_records, ← readScoped,
    readScoped_removeScoped, if_pos rfl]

end Current

end Shipyard.Ship.ShipStore
