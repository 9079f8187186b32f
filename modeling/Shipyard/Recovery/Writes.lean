import Shipyard.Recovery.Files

/-!
# What each file write keeps

Well-formed files stay well formed under every write of a save and of a claim.
-/

namespace Shipyard.Recovery

open Lib Lib.Disk HeadTable SortedMap

namespace RecoveryFiles

variable {files : RecoveryFiles} {id : String} {record old : RecoveryRecord}

/-- What was spent stays spent when the table changes by one replacement. -/
theorem view_spent {files' : RecoveryFiles} (hreplaces : files.table.Replaces id record)
    (htable : files'.table = files.table ∨ files'.table = files.table.put id record) {i : String}
    (hspent : ∃ old, files.view i = some old ∧ old.Spent) :
    ∃ new, files'.view i = some new ∧ new.Spent := by
  obtain ⟨old, hview, hspent⟩ := hspent
  rcases htable with htable | htable
  · exact ⟨old, (congrFun (congrArg HeadTable.record htable) i).trans hview, hspent⟩
  · have hrecord := congrFun (congrArg HeadTable.record htable) i
    by_cases hi : i = id
    · subst hi
      refine ⟨record, hrecord.trans ?_, (hreplaces old hview).2 hspent⟩
      simp [HeadTable.put]
    · refine ⟨old, hrecord.trans ?_, hspent⟩
      simp only [HeadTable.put, Function.update_of_ne hi]
      exact hview

variable (hwf : files.WellFormed)

include hwf

/-- A write that leaves the table alone leaves the claims spent. -/
theorem WellFormed.spent_of_table {files' : RecoveryFiles} (htable : files'.table = files.table)
    {i : String} {claim : DurableRecoveryClaim}
    (hclaim : files.claim i = some claim) : ∃ r, files'.view i = some r ∧ r.Spent := by
  obtain ⟨r, hview, hspent⟩ := hwf.claimSpent hclaim
  exact ⟨r, (congrFun (congrArg HeadTable.record htable) i).trans hview, hspent⟩

theorem WellFormed.archive (hterm : record.receipt.status.isTerminal = true)
    (hview : files.view record.request.id = some old)
    (hreplaces : files.table.Replaces record.request.id record) :
    (files.apply (.record record)).WellFormed := by
  have htable := files.table_archive hterm
  have hhead := (hreplaces old hview).1
  have hfiles : files.apply (.record record) =
      { files with archived :=
        Function.update files.archived record.request.id (some record) } := by
    simp [apply, hterm]
  rw [hfiles] at htable ⊢
  exact { hwf with
    archivedId := by
      intro i r hr
      rcases update_eq_some_iff.mp hr with ⟨hi, ⟨⟩⟩ | ⟨-, hr⟩
      · exact hi.symm
      · exact hwf.archivedId hr
    archivedTerminal := by
      intro i r hr
      rcases update_eq_some_iff.mp hr with ⟨-, ⟨⟩⟩ | ⟨-, hr⟩
      · exact hterm
      · exact hwf.archivedTerminal hr
    sameHead := by
      intro i r r' hr hr'
      rcases update_eq_some_iff.mp hr' with ⟨rfl, ⟨⟩⟩ | ⟨-, hr'⟩
      · exact (hwf.active_head hr hview).trans hhead
      · exact hwf.sameHead hr hr'
    claimSpent := fun hclaim => view_spent hreplaces (.inr htable) (hwf.claimSpent hclaim)
    indexed := by
      intro k i r howner hhas
      rw [htable] at hhas
      rcases has_put.mp hhas with ⟨rfl, rfl, hk⟩ | ⟨_, hhas⟩
      · exact hwf.indexed howner ⟨hview, hhead.trans hk⟩
      · exact hwf.indexed howner hhas }

theorem WellFormed.activate (hlive : record.receipt.status.isTerminal = false)
    (hsound : record.receipt.Sound) (hreplaces : files.table.Replaces record.request.id record) :
    (files.apply (.record record)).WellFormed := by
  have heffective := hwf.effective_eq hsound hreplaces
  have htable : (files.apply (.record record)).table = files.table ∨
      (files.apply (.record record)).table = files.table.put record.request.id record := by
    cases harchived : files.archived record.request.id with
    | some old => exact .inl (table_hidden hlive harchived)
    | none => exact .inr (table_activate hlive harchived heffective)
  have hfiles : files.apply (.record record) =
      { files with active := files.active.insert record.request.id record } := by
    simp [apply, hlive]
  rw [hfiles] at htable ⊢
  exact { hwf with
    activeId := by
      intro i r hr
      rw [get?_insert] at hr
      split at hr
      next heq =>
        cases hr
        exact heq.symm
      · exact hwf.activeId hr
    sameHead := by
      intro i r r' hr hr'
      rw [get?_insert] at hr
      split at hr
      next heq =>
        cases hr
        have hview : files.view i = some (files.effective r') := by
          rw [view, stored_of_archived (show files.archived i = _ from hr'), Option.map_some]
        have hhead := (hreplaces _ (heq ▸ hview)).1
        rw [effective_request] at hhead
        exact hhead.symm
      · exact hwf.sameHead hr hr'
    claimSpent := fun hclaim => view_spent hreplaces htable (hwf.claimSpent hclaim)
    indexed := by
      intro k i r howner hhas
      rw [get?_insert]
      split
      · exact ⟨record, rfl⟩
      next hi =>
        rcases htable with htable | htable
        · rw [htable] at hhas
          exact hwf.indexed howner hhas
        · rw [htable] at hhas
          rcases has_put.mp hhas with ⟨heq, _, _⟩ | ⟨_, hhas⟩
          · exact absurd heq hi
          · exact hwf.indexed howner hhas }

theorem WellFormed.own (head : HeadKey) (id : String) :
    (files.apply (.headOwner head id)).WellFormed :=
  { hwf with
    indexed := by
      intro k i r howner hhas
      have hbefore : (files.table.own head id).owner k = none := howner
      exact hwf.indexed (owner_own_none hbefore).2 hhas }

theorem WellFormed.removeActive (harchived : files.archived id = some record) {owner : String}
    (howned : files.headOwner record.request.head = some owner) :
    (files.apply (.removeActive id)).WellFormed := by
  have htable := table_removeActive harchived
  have hactive : ∀ {i r}, (files.active.erase id).get? i = some r →
      files.active.get? i = some r := by
    intro i r hr
    rw [get?_erase] at hr
    split at hr
    · cases hr
    · exact hr
  exact { hwf with
    activeId := fun hr => hwf.activeId (hactive hr)
    sameHead := fun hr hr' => hwf.sameHead (hactive hr) hr'
    claimSpent := fun hclaim => hwf.spent_of_table htable hclaim
    indexed := by
      intro k i r howner hhas
      rw [htable] at hhas
      change files.headOwner k = none at howner
      change ∃ active, (files.active.erase id).get? i = some active
      rw [get?_erase]
      split
      next hi =>
        -- the removed copy was of a head that has an index entry
        subst hi
        obtain ⟨hview, rfl⟩ := hhas
        change (files.stored i).map files.effective = some r at hview
        rw [stored_of_archived harchived, Option.map_some] at hview
        cases hview
        rw [effective_request, howned] at howner
        cases howner
      · exact hwf.indexed howner hhas }

theorem WellFormed.removeArchived (hactive : files.active.get? id = some record)
    (heffective : files.effective record = record) (hreplaces : files.table.Replaces id record) :
    (files.apply (.removeArchived id)).WellFormed := by
  have htable := table_removeArchived hactive heffective
  have harchived {i : String} {r : RecoveryRecord}
      (hr : Function.update files.archived id none i = some r) : files.archived i = some r := by
    rcases update_eq_some_iff.mp hr with ⟨-, ⟨⟩⟩ | ⟨-, hr⟩
    exact hr
  exact { hwf with
    archivedId := fun hr => hwf.archivedId (harchived hr)
    archivedTerminal := fun hr => hwf.archivedTerminal (harchived hr)
    sameHead := fun hr hr' => hwf.sameHead hr (harchived hr')
    claimSpent := fun hclaim => view_spent hreplaces (.inr htable) (hwf.claimSpent hclaim)
    indexed := by
      intro k i r howner hhas
      rw [htable] at hhas
      rcases has_put.mp hhas with ⟨rfl, rfl, _⟩ | ⟨_, hhas⟩
      · exact ⟨r, hactive⟩
      · exact hwf.indexed howner hhas }

theorem WellFormed.removeClaim (harchived : files.archived id = some record) :
    (files.apply (.removeClaim id)).WellFormed := by
  have htable := table_removeClaim hwf harchived
  exact { hwf with
    claimSpent := by
      intro i claim hclaim
      rcases update_eq_some_iff.mp hclaim with ⟨-, ⟨⟩⟩ | ⟨-, hclaim⟩
      exact hwf.spent_of_table htable hclaim
    indexed := fun howner hhas => hwf.indexed howner (htable ▸ hhas) }

theorem WellFormed.claim {claim : DurableRecoveryClaim} {head : HeadKey}
    (hstored : files.stored claim.requestId = some record)
    (hpending : record.receipt.status = .pending) (hattempt : 0 < claim.attempt) :
    (files.apply (.claim head claim)).WellFormed := by
  have htable : (files.apply (.claim head claim)).table = _ := table_claim hwf hstored hpending
  exact { hwf with
    claimSpent := by
      intro i other hclaim
      have hview := congrFun (congrArg HeadTable.record htable) i
      rcases update_eq_some_iff.mp hclaim with ⟨rfl, -⟩ | ⟨hi, hbefore⟩
      · refine ⟨record.claimedBy claim, hview.trans ?_, hattempt⟩
        simp [HeadTable.claim, HeadTable.put]
      · obtain ⟨r, hother, hspent⟩ := hwf.claimSpent hbefore
        refine ⟨r, hview.trans ?_, hspent⟩
        simp only [HeadTable.claim, HeadTable.put, Function.update_of_ne hi]
        exact hother
    indexed := by
      intro k i r howner hhas
      rw [htable, has_claim] at hhas
      rcases has_put.mp hhas with ⟨rfl, rfl, hk⟩ | ⟨_, hhas⟩
      · have hview : files.view claim.requestId = some (files.effective record) := by
          rw [view, hstored, Option.map_some]
        exact hwf.indexed howner ⟨hview, effective_request files record ▸ hk⟩
      · exact hwf.indexed howner hhas }

end RecoveryFiles

end Shipyard.Recovery
