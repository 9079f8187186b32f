import Shipyard.Recovery.Writes

/-!
# Saving a record, write by write

What a save does, and what holds wherever the process stops on the way. The
one point where the store is not at rest lies between a new pending record and
its index entry, when the index names another record.
-/

namespace Shipyard.Recovery

open Lib Lib.Disk RecoveryFiles

structure RecoveryFiles.Inv (files : RecoveryFiles) : Prop where
  wellFormed : files.WellFormed
  table : files.table.Inv

variable (files : RecoveryFiles)

/-- The write gives a head, whose index entry names another record, to a record
that already waits for a worker. -/
def RecoveryFiles.losesIndex : FileWrite → Bool
  | .headOwner head id =>
    (files.headOwner head).any (· ≠ id)
      && (files.view id).any (·.receipt.status = .pending)
  | _ => false

/-- No head is ever claimed twice; between operations the invariant holds. -/
def headContract : recoveryDisk.Contract where
  always files := ∀ head, (RecoveryFiles.claimed files).count head ≤ 1
  atRest files := RecoveryFiles.Inv files
  mayStop files write := RecoveryFiles.losesIndex files write = false

/-- When a record can be saved: it replaces what it was loaded from, the other
records of its head are idle, and it takes no head from another owner unless it
is pending or idle. -/
structure Savable (files : RecoveryFiles) (record : RecoveryRecord) : Prop where
  replaces : files.table.Replaces record.request.id record
  others : files.table.OthersIdle record.request.head record.request.id
  known : record.receipt.status ≠ .pending → ∃ old, files.view record.request.id = some old
  place : record.receipt.status ≠ .pending → ∀ owner,
    files.headOwner record.request.head = some owner → owner ≠ record.request.id → record.Idle
  alone : files.view record.request.id = none →
    files.headOwner record.request.head = none →
      ∀ id other, ¬files.table.Has record.request.head id other

/-- The table after a save. -/
def RecoveryFiles.savedTable (record : RecoveryRecord) : HeadTable :=
  (files.table.put record.request.id record).own record.request.head record.request.id

section

variable {files : RecoveryFiles} {record : RecoveryRecord}

theorem claimed_record (files : RecoveryFiles) (record : RecoveryRecord) :
    (files.apply (.record record)).claimed = files.claimed := by
  simp only [RecoveryFiles.apply]
  split <;> rfl

theorem headOwner_record (files : RecoveryFiles) (record : RecoveryRecord) :
    (files.apply (.record record)).headOwner = files.headOwner := by
  simp only [RecoveryFiles.apply]
  split <;> rfl

/-- The table of a record that was put somewhere has the record. -/
theorem HeadTable.has_put_self {table : HeadTable} {id : String} :
    (table.put id record).Has record.request.head id record :=
  HeadTable.has_put.mpr (.inl ⟨rfl, rfl, rfl⟩)

/-- A terminal save: the archive is written first, and each later write leaves
the table alone but for the owner. -/
theorem save_terminal (hclaims : headContract.always files) (hinv : files.Inv)
    (hsavable : Savable files record) (hterm : record.receipt.status.isTerminal = true) :
    headContract.Safe files (saveWrites record) ∧
      (RecoveryFiles.table (recoveryDisk.applyAll files (saveWrites record))) =
        files.savedTable record := by
  have hnot := not_pending_of_isTerminal hterm
  obtain ⟨old, hview⟩ := hsavable.known hnot
  let archived := files.apply (.record record)
  let owned := archived.apply (.headOwner record.request.head record.request.id)
  let moved := owned.apply (.removeActive record.request.id)
  have harchivedTable : archived.table = files.table.put record.request.id record :=
    table_archive hterm
  have hcopy : archived.archived record.request.id = some record := by
    simp [archived, RecoveryFiles.apply, hterm]
  have harchived : archived.Inv := by
    refine ⟨hinv.wellFormed.archive hterm hview hsavable.replaces, ?_⟩
    rw [harchivedTable]
    exact hinv.table.put hview hsavable.replaces (hsavable.place hnot)
  have hownedTable : owned.table = files.savedTable record := by
    change archived.table.own _ _ = _
    rw [harchivedTable]
    rfl
  have howned : owned.Inv := by
    refine ⟨harchived.wellFormed.own _ _, ?_⟩
    rw [hownedTable]
    exact hinv.table.putOwn hsavable.replaces hsavable.others
  have hmovedTable : moved.table = owned.table := table_removeActive hcopy
  have hmoved : moved.Inv := by
    have hindex : owned.headOwner record.request.head = some record.request.id := by
      simp [owned, RecoveryFiles.apply]
    refine ⟨howned.wellFormed.removeActive hcopy hindex, ?_⟩
    · rw [hmovedTable]
      exact howned.table
  have hdoneTable : (moved.apply (.removeClaim record.request.id)).table = moved.table :=
    table_removeClaim hmoved.wellFormed hcopy
  have hdone : (moved.apply (.removeClaim record.request.id)).Inv := by
    refine ⟨hmoved.wellFormed.removeClaim hcopy, ?_⟩
    rw [hdoneTable]
    exact hmoved.table
  have hclaims' : headContract.always archived := by
    change ∀ head, archived.claimed.count head ≤ 1
    rw [show archived.claimed = files.claimed from claimed_record files record]
    exact hclaims
  have hwrites : saveWrites record =
      [.record record, .headOwner record.request.head record.request.id,
        .removeActive record.request.id, .removeClaim record.request.id] := by
    simp [saveWrites, hterm]
  rw [hwrites]
  refine ⟨.cons hclaims hinv (.cons hclaims' harchived (.cons hclaims' howned
    (.cons hclaims' hmoved ⟨hclaims', hdone⟩))), ?_⟩
  exact hdoneTable.trans (hmovedTable.trans hownedTable)

/-- Between the record and the index entry the store is at rest, unless the
record is pending and the index names another one. -/
theorem activated_inv (hinv : files.Inv) (hsavable : Savable files record)
    (hsound : record.receipt.Sound) (hlive : record.receipt.status.isTerminal = false)
    (harchived : files.archived record.request.id = none)
    (hkeeps : (files.apply (.record record)).losesIndex
      (.headOwner record.request.head record.request.id) = false) :
    (files.apply (.record record)).Inv := by
  have htable : (files.apply (.record record)).table =
      files.table.put record.request.id record :=
    table_activate hlive harchived
      (hinv.wellFormed.effective_eq hsound hsavable.replaces)
  have hview : (files.apply (.record record)).view record.request.id = some record := by
    refine (congrFun (congrArg HeadTable.record htable) record.request.id).trans ?_
    simp [HeadTable.put]
  have howner : ∀ owner, files.headOwner record.request.head = some owner →
      owner ≠ record.request.id → record.receipt.status ≠ .pending := by
    intro owner howner hne hpending
    simp [RecoveryFiles.losesIndex, headOwner_record, howner, hview, hpending, hne] at hkeeps
  refine ⟨hinv.wellFormed.activate hlive hsound hsavable.replaces, ?_⟩
  rw [htable]
  cases hold : files.view record.request.id with
  | some old =>
    refine hinv.table.put hold hsavable.replaces ?_
    intro owner hown hne
    exact hsavable.place (howner owner hown hne) owner hown hne
  | none =>
    have hpending : record.receipt.status = .pending := by
      by_contra hnot
      obtain ⟨old, hview⟩ := hsavable.known hnot
      cases hold.symm.trans hview
    have hunowned : files.headOwner record.request.head = none := by
      cases hown : files.headOwner record.request.head with
      | none => rfl
      | some owner =>
        by_cases heq : owner = record.request.id
        · subst heq
          obtain ⟨r, hhas⟩ := hinv.table.owner (show files.table.owner _ = _ from hown)
          cases hold.symm.trans hhas.1
        · exact absurd hpending (howner owner hown heq)
    exact hinv.table.putNew hold hunowned (hsavable.alone hold hunowned)

theorem save_live (hclaims : headContract.always files) (hinv : files.Inv)
    (hsavable : Savable files record) (hsound : record.receipt.Sound)
    (hlive : record.receipt.status.isTerminal = false) :
    headContract.Safe files (saveWrites record) ∧
      (RecoveryFiles.table (recoveryDisk.applyAll files (saveWrites record))) =
        files.savedTable record := by
  let active := files.apply (.record record)
  let owned := active.apply (.headOwner record.request.head record.request.id)
  have heffective := hinv.wellFormed.effective_eq hsound hsavable.replaces
  have hactive : active.WellFormed := hinv.wellFormed.activate hlive hsound hsavable.replaces
  have hclaims' : headContract.always active := by
    change ∀ head, active.claimed.count head ≤ 1
    rw [show active.claimed = files.claimed from claimed_record files record]
    exact hclaims
  have hwrites : saveWrites record =
      [.record record, .headOwner record.request.head record.request.id,
        .removeArchived record.request.id] := by
    simp [saveWrites, hlive]
  rw [hwrites]
  cases harchived : files.archived record.request.id with
  | some old =>
    -- the archived copy stays in force until it is removed
    have hstored : files.view record.request.id = some (files.effective old) := by
      rw [RecoveryFiles.view, stored_of_archived harchived, Option.map_some]
    have htable : active.table = files.table := table_hidden hlive harchived
    have hhas : files.table.Has record.request.head record.request.id
        (files.effective old) := ⟨hstored, (hsavable.replaces _ hstored).1⟩
    have hownedTable : owned.table =
        files.table.own record.request.head record.request.id := by
      change active.table.own _ _ = _
      rw [htable]
    have howned : owned.Inv := by
      refine ⟨hactive.own _ _, ?_⟩
      rw [hownedTable]
      exact hinv.table.own hhas hsavable.others
    have hreplaces : owned.table.Replaces record.request.id record := by
      rw [hownedTable]
      exact hsavable.replaces
    have hcopy : owned.active.get? record.request.id = some record := by
      simp [owned, active, RecoveryFiles.apply, hlive]
    have heffective' : owned.effective record = record := by
      have hclaim : owned.claim = files.claim := by
        simp [owned, active, RecoveryFiles.apply, hlive]
      rw [effective_congr hclaim]
      exact heffective
    have hdoneTable := table_removeArchived hcopy heffective'
    have hdone : (owned.apply (.removeArchived record.request.id)).Inv := by
      refine ⟨howned.wellFormed.removeArchived hcopy heffective' hreplaces, ?_⟩
      rw [hdoneTable]
      have hold : owned.table.record record.request.id = some (files.effective old) := by
        rw [hownedTable]
        exact hstored
      refine howned.table.put hold hreplaces ?_
      · intro owner howner hne
        rw [hownedTable] at howner
        simp only [HeadTable.own, Function.update_self, Option.some.injEq] at howner
        exact absurd howner.symm hne
    have hactiveInv : active.Inv := ⟨hactive, htable ▸ hinv.table⟩
    refine ⟨.cons hclaims hinv (.cons hclaims' hactiveInv
      (.cons hclaims' howned ⟨hclaims', hdone⟩)), ?_⟩
    refine hdoneTable.trans ?_
    rw [hownedTable]
    rfl
  | none =>
    have htable : active.table = files.table.put record.request.id record :=
      table_activate hlive harchived heffective
    have hownedTable : owned.table = files.savedTable record := by
      change active.table.own _ _ = _
      rw [htable]
      rfl
    have howned : owned.Inv := by
      refine ⟨hactive.own _ _, ?_⟩
      rw [hownedTable]
      exact hinv.table.putOwn hsavable.replaces hsavable.others
    have hsame : owned.apply (.removeArchived record.request.id) = owned := by
      have habsent : owned.archived record.request.id = none := by
        simp [owned, active, RecoveryFiles.apply, hlive, harchived]
      simp only [RecoveryFiles.apply, ← habsent, Function.update_eq_self]
    have hdone : (owned.apply (.removeArchived record.request.id)).Inv := hsame.symm ▸ howned
    have hdoneTable : (owned.apply (.removeArchived record.request.id)).table =
        files.savedTable record := hsame.symm ▸ hownedTable
    refine ⟨.cons hclaims hinv ⟨hclaims', ?_, .cons hclaims' howned ⟨hclaims', hdone⟩⟩,
      hdoneTable⟩
    intro hkeeps
    exact activated_inv hinv hsavable hsound hlive harchived hkeeps

/-- What a save does to the table. -/
theorem wp_save {store : RecoveryStore} (hclaims : headContract.always files)
    (hinv : files.Inv) (hsavable : Savable files record) :
    headContract.wp (store.save record)
      (fun _ files' => RecoveryFiles.table files' = files.savedTable record) files := by
  refine Contract.wp_read_bind hclaims hinv ?_
  intro _ hcheck
  obtain ⟨_, hvalid, _⟩ := Except.bind_eq_ok.mp hcheck
  cases hterm : record.receipt.status.isTerminal with
  | true =>
    obtain ⟨hsafe, htable⟩ := save_terminal hclaims hinv hsavable hterm
    exact Contract.wp_write hsafe htable
  | false =>
    have hsound := store.validateRecord_sound hvalid
    obtain ⟨hsafe, htable⟩ := save_live hclaims hinv hsavable hsound hterm
    exact Contract.wp_write hsafe htable

end

end Shipyard.Recovery
