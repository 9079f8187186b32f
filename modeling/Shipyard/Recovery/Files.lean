import Shipyard.Recovery.HeadTable
import Shipyard.Recovery.Enqueue

/-!
# From the files of the store to its head table

Every file write changes the head table in one of three ways or not at all,
and keeps the files well formed.
-/

namespace Shipyard.Recovery

open Lib Lib.Disk Lib.Except Function Option

namespace RecoveryFiles

variable {files : RecoveryFiles} {id : String} {record old : RecoveryRecord}

/-- A stored record with its claim applied. -/
def effective (files : RecoveryFiles) (record : RecoveryRecord) : RecoveryRecord :=
  if record.receipt.status = .pending then
    (files.claim record.request.id).elim record record.claimedBy
  else record

/-- The record that an id loads. -/
def view (files : RecoveryFiles) (id : String) : Option RecoveryRecord :=
  (files.stored id).map files.effective

def table (files : RecoveryFiles) : HeadTable := ⟨files.view, files.headOwner, files.claimed⟩

theorem effective_request (files : RecoveryFiles) (record : RecoveryRecord) :
    (files.effective record).request = record.request := by
  unfold effective
  split
  · cases files.claim record.request.id with
    | none => rfl
    | some claim => rfl
  · rfl

theorem effective_of_unclaimed (hclaim : record.receipt.status = .pending →
    files.claim record.request.id = none) : files.effective record = record := by
  unfold effective
  split
  next hpending => rw [hclaim hpending, elim_none]
  · rfl

theorem stored_of_archived (harchived : files.archived id = some record) :
    files.stored id = some record := by
  simp [stored, harchived]

theorem stored_of_active (harchived : files.archived id = none) :
    files.stored id = files.active.get? id := by
  simp [stored, harchived]

theorem not_pending_of_isTerminal {status : RecoveryStatus} (hterm : status.isTerminal = true) :
    status ≠ .pending := by
  rintro rfl
  cases hterm

/-! ## What loading returns -/

theorem applyClaimIfPresent_ok {loaded : RecoveryRecord}
    (happly : applyClaimIfPresent files record = .ok loaded) : loaded = files.effective record := by
  unfold applyClaimIfPresent at happly
  unfold effective
  by_cases hpending : record.receipt.status = .pending
  · rw [if_neg (not_not.mpr hpending)] at happly
    rw [if_pos hpending]
    cases hclaim : files.claim record.request.id with
    | none =>
      rw [hclaim] at happly
      cases happly
      rfl
    | some claim =>
      rw [hclaim] at happly
      obtain ⟨_, _, happly⟩ := bind_eq_ok.mp happly
      cases happly
      rfl
  · rw [if_pos hpending] at happly
    rw [if_neg hpending]
    cases happly
    rfl

variable {store : RecoveryStore}

theorem load_none (hload : store.load files id = .ok none) : files.view id = none := by
  obtain ⟨loaded, hrecord, hload⟩ := bind_eq_ok.mp hload
  cases loaded with
  | none =>
    unfold RecoveryStore.loadRecord at hrecord
    split at hrecord
    next hstored => rw [view, hstored, map_none]
    · obtain ⟨_, _, hrecord⟩ := bind_eq_ok.mp hrecord
      split at hrecord <;> cases hrecord
  | some record =>
    obtain ⟨_, _, hload⟩ := bind_eq_ok.mp hload
    obtain ⟨_, _, hload⟩ := bind_eq_ok.mp hload
    cases hload

/-- A loaded record is the id's, and its receipt is sound. -/
structure Loads (files : RecoveryFiles) (id : String) (record : RecoveryRecord) : Prop where
  view : files.view id = some record
  id : record.request.id = id
  sound : record.receipt.Sound

theorem load_some (hload : store.load files id = .ok (some record)) : files.Loads id record := by
  obtain ⟨loaded, hrecord, hload⟩ := bind_eq_ok.mp hload
  cases loaded with
  | none => cases hload
  | some stored =>
    obtain ⟨claimed, hclaim, hload⟩ := bind_eq_ok.mp hload
    obtain ⟨_, hvalid, hload⟩ := bind_eq_ok.mp hload
    cases hload
    obtain rfl := applyClaimIfPresent_ok hclaim
    unfold RecoveryStore.loadRecord at hrecord
    split at hrecord
    · cases hrecord
    next hstored =>
      obtain ⟨_, _, hrecord⟩ := bind_eq_ok.mp hrecord
      split at hrecord
      · cases hrecord
      next hid =>
        cases hrecord
        refine ⟨?_, ?_, store.validateRecord_sound hvalid⟩
        · rw [view, hstored, map_some]
        · rw [effective_request]
          exact not_not.mp hid

theorem loadExisting_ok (hload : store.loadExisting files id = .ok record) :
    files.Loads id record := by
  obtain ⟨loaded, hloaded, hload⟩ := bind_eq_ok.mp hload
  cases loaded with
  | none => cases hload
  | some record' =>
    cases hload
    exact load_some hloaded

/-! ## What a write does to the table -/

theorem table_ext {table table' : HeadTable} (hrecord : ∀ i, table.record i = table'.record i)
    (howner : table.owner = table'.owner) (hclaimed : table.claimed = table'.claimed) :
    table = table' := by
  cases table
  cases table'
  simp only [HeadTable.mk.injEq]
  exact ⟨funext hrecord, howner, hclaimed⟩

variable {files' : RecoveryFiles}

theorem effective_congr (hclaim : files'.claim = files.claim) :
    files'.effective = files.effective := by
  funext record
  unfold effective
  rw [hclaim]

/-- Files that store the same records have the same table. -/
theorem table_congr (hclaim : files'.claim = files.claim)
    (howner : files'.headOwner = files.headOwner) (hclaimed : files'.claimed = files.claimed)
    (hstored : ∀ i, files'.stored i = files.stored i) : files'.table = files.table := by
  refine table_ext ?_ howner hclaimed
  intro i
  simp only [table, view, effective_congr hclaim, hstored i]

/-- Files that store one other record have it in their table. -/
theorem table_put (hclaim : files'.claim = files.claim)
    (howner : files'.headOwner = files.headOwner) (hclaimed : files'.claimed = files.claimed)
    (hself : files'.stored id = some record) (heffective : files.effective record = record)
    (hothers : ∀ i, i ≠ id → files'.stored i = files.stored i) :
    files'.table = files.table.put id record := by
  refine table_ext ?_ howner hclaimed
  intro i
  by_cases hi : i = id
  · subst hi
    simp only [table, view, effective_congr hclaim, hself, map_some, heffective,
      HeadTable.put, update_self]
  · simp only [table, view, effective_congr hclaim, hothers i hi, HeadTable.put,
      update_of_ne hi]

theorem table_archive (hterm : record.receipt.status.isTerminal = true) :
    (files.apply (.record record)).table = files.table.put record.request.id record := by
  have heffective : files.effective record = record :=
    effective_of_unclaimed fun hpending =>
      absurd hpending (not_pending_of_isTerminal hterm)
  simp only [apply, hterm, if_true]
  refine table_put rfl rfl rfl ?_ heffective ?_
  · simp [stored]
  · intro i hi
    simp [stored, update_of_ne hi]

theorem table_activate (hlive : record.receipt.status.isTerminal = false)
    (harchived : files.archived record.request.id = none)
    (heffective : files.effective record = record) :
    (files.apply (.record record)).table = files.table.put record.request.id record := by
  simp only [apply, hlive]
  refine table_put rfl rfl rfl ?_ heffective ?_
  · simp [stored, harchived]
  · intro i hi
    simp [stored, SortedMap.get?_insert, hi]

/-- An archived copy hides the active one. -/
theorem table_hidden (hlive : record.receipt.status.isTerminal = false)
    (harchived : files.archived record.request.id = some old) :
    (files.apply (.record record)).table = files.table := by
  simp only [apply, hlive]
  refine table_congr rfl rfl rfl ?_
  intro i
  by_cases hi : i = record.request.id
  · simp [stored, hi, harchived]
  · simp [stored, SortedMap.get?_insert, hi]

theorem table_removeActive (harchived : files.archived id = some record) :
    (files.apply (.removeActive id)).table = files.table := by
  refine table_congr rfl rfl rfl ?_
  intro i
  by_cases hi : i = id
  · simp [apply, stored, hi, harchived]
  · simp [apply, stored, SortedMap.get?_erase, hi]

theorem table_removeArchived (hactive : files.active.get? id = some record)
    (heffective : files.effective record = record) :
    (files.apply (.removeArchived id)).table = files.table.put id record := by
  refine table_put rfl rfl rfl ?_ heffective ?_
  · simp [apply, stored, hactive]
  · intro i hi
    simp [apply, stored, update_of_ne hi]

/-! ## Well-formed files -/

/-- Every file is the one its name says, an archived copy is terminal and of
the head of the active one, a claim belongs to a record that counts it, and the
records of a head without an index entry can be found among the active ones. -/
structure WellFormed (files : RecoveryFiles) : Prop where
  activeId : ∀ {id record}, files.active.get? id = some record → record.request.id = id
  archivedId : ∀ {id record}, files.archived id = some record → record.request.id = id
  archivedTerminal : ∀ {id record}, files.archived id = some record →
    record.receipt.status.isTerminal = true
  sameHead : ∀ {id record old}, files.active.get? id = some record →
    files.archived id = some old → record.request.head = old.request.head
  claimSpent : ∀ {id claim}, files.claim id = some claim →
    ∃ record, files.view id = some record ∧ record.Spent
  indexed : ∀ {head id record}, files.headOwner head = none → files.table.Has head id record →
    ∃ active, files.active.get? id = some active

variable (hwf : files.WellFormed)

include hwf

theorem WellFormed.stored_id (hstored : files.stored id = some record) :
    record.request.id = id := by
  cases harchived : files.archived id with
  | some old =>
    rw [stored_of_archived harchived] at hstored
    cases hstored
    exact hwf.archivedId harchived
  | none =>
    rw [stored_of_active harchived] at hstored
    exact hwf.activeId hstored

/-- The active copy is of the head that its id loads. -/
theorem WellFormed.active_head {active : RecoveryRecord}
    (hactive : files.active.get? id = some active) (hview : files.view id = some record) :
    active.request.head = record.request.head := by
  obtain ⟨stored, hstored, rfl⟩ := map_eq_some_iff.mp hview
  rw [effective_request]
  cases harchived : files.archived id with
  | some old =>
    rw [stored_of_archived harchived] at hstored
    cases hstored
    exact hwf.sameHead hactive harchived
  | none =>
    rw [stored_of_active harchived, hactive] at hstored
    cases hstored
    rfl

/-- A record that gives no attempt back has no claim waiting for it while pending. -/
theorem WellFormed.effective_eq (hsound : record.receipt.Sound)
    (hreplaces : files.table.Replaces record.request.id record) :
    files.effective record = record := by
  apply effective_of_unclaimed
  intro hpending
  cases hclaim : files.claim record.request.id with
  | none => rfl
  | some claim =>
    obtain ⟨old, hview, hspent⟩ := hwf.claimSpent hclaim
    have hrecord : record.Spent := (hreplaces old hview).2 hspent
    exact absurd (hsound.pending hpending) (Nat.ne_of_gt hrecord)

theorem table_removeClaim (harchived : files.archived id = some record) :
    (files.apply (.removeClaim id)).table = files.table := by
  refine table_ext ?_ rfl rfl
  intro i
  change (files.stored i).map _ = (files.stored i).map _
  refine Option.map_congr ?_
  intro stored hstored
  unfold effective
  by_cases hi : i = id
  · subst hi
    rw [stored_of_archived harchived] at hstored
    cases hstored
    have hnot := not_pending_of_isTerminal (hwf.archivedTerminal harchived)
    rw [if_neg hnot, if_neg hnot]
  · have hid := hwf.stored_id hstored
    simp only [apply, hid, update_of_ne hi]

/-- Writing a claim for a pending record makes it running. -/
theorem table_claim {claim : DurableRecoveryClaim} {head : HeadKey}
    (hstored : files.stored claim.requestId = some record)
    (hpending : record.receipt.status = .pending) :
    (files.apply (.claim head claim)).table =
      (files.table.put claim.requestId (record.claimedBy claim)).claim head := by
  refine table_ext ?_ rfl rfl
  intro i
  change (files.stored i).map _ = Function.update files.view claim.requestId _ i
  by_cases hi : i = claim.requestId
  · subst hi
    have hid := hwf.stored_id hstored
    simp [hstored, effective, hpending, apply, hid]
  · rw [update_of_ne hi]
    refine Option.map_congr ?_
    intro stored hother
    have hid := hwf.stored_id hother
    simp only [effective, apply, hid, update_of_ne hi]

end RecoveryFiles

end Shipyard.Recovery
