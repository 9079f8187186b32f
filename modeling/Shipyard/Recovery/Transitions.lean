import Shipyard.Recovery.Save

/-!
# The transitions of existing records

Every operation that moves a record which waits for a worker or runs keeps the
invariant, because such a record owns its head. A claim is written only for a
head that was never claimed.
-/

namespace Shipyard.Recovery

open Lib Lib.Disk Contract RecoveryFiles Option

variable {files : RecoveryFiles} {id : String} {record : RecoveryRecord} {store : RecoveryStore}

def RecoveryRecord.Live (record : RecoveryRecord) : Prop :=
  record.receipt.status = .pending ∨ record.receipt.status = .running

theorem RecoveryFiles.Loads.has (hloads : files.Loads id record) :
    files.table.Has record.request.head id record := ⟨hloads.view, rfl⟩

theorem RecoveryFiles.Loads.not_idle (hloads : files.Loads id record) (hlive : record.Live) :
    ¬record.Idle := by
  rintro ⟨hpending, hattempt⟩
  rcases hlive with hstatus | hstatus
  · exact hpending hstatus
  · exact absurd hattempt (Nat.ne_of_gt (hloads.sound.running hstatus))

/-- Only an owner is not idle, so the others of its head are. -/
theorem HeadTable.Inv.othersIdle {table : HeadTable} {head : HeadKey} (hinv : table.Inv)
    (hhas : table.Has head id record) (hbusy : ¬record.Idle) : table.OthersIdle head id := by
  intro i r hne hother
  cases howner : table.owner head with
  | none => exact absurd (hinv.unique howner hother hhas) hne
  | some owner =>
    have hid : id = owner := by
      by_contra hnot
      exact hbusy (hinv.others howner hnot hhas)
    exact hinv.others howner (hid ▸ hne) hother

variable {new : RecoveryRecord}

/-- A record that is not idle can be saved in any later form. -/
theorem savable_of_busy (hinv : files.Inv) (hhas : files.table.Has new.request.head id record)
    (hbusy : ¬record.Idle) (hid : new.request.id = id) (hspent : record.Spent → new.Spent) :
    Savable files new := by
  subst hid
  constructor
  case replaces =>
    intro old hold
    obtain rfl : record = old := some.inj (hhas.1.symm.trans hold)
    exact ⟨hhas.2, hspent⟩
  case others => exact hinv.table.othersIdle hhas hbusy
  case known =>
    intro _
    exact ⟨record, hhas.1⟩
  case place =>
    intro _ owner howner hne
    exact absurd (hinv.table.others howner (Ne.symm hne) hhas) hbusy
  case alone =>
    intro hnone
    exact nomatch hnone.symm.trans hhas.1

theorem savable_of_live (hinv : files.Inv) (hloads : files.Loads id record) (hlive : record.Live)
    (hrequest : new.request = record.request)
    (hattempt : record.receipt.attempt ≤ new.receipt.attempt) : Savable files new := by
  have hhas : files.table.Has new.request.head id record := by
    rw [hrequest]
    exact hloads.has
  refine savable_of_busy hinv hhas (hloads.not_idle hlive) ?_ ?_
  · rw [hrequest]
    exact hloads.id
  · intro hspent
    exact Nat.lt_of_lt_of_le hspent hattempt

/-! ## Updates of one record -/

theorem wp_update {mutate : RecoveryRecord → Except RecoveryError RecoveryRecord}
    (hclaims : headContract.always files) (hinv : files.Inv)
    (hmutate : ∀ record new, files.Loads id record → mutate record = .ok new →
      Savable files new) :
    headContract.wp (store.update id mutate) (fun _ _ => True) files := by
  refine wp_read_bind hclaims hinv ?_
  intro record hload
  refine wp_read_bind hclaims hinv ?_
  intro new hnew
  have hsavable := hmutate record new (loadExisting_ok hload) hnew
  exact wp_map (wp_save hclaims hinv hsavable)

variable {now : Int}

variable {configSignature detail : String} {claim : DurableRecoveryClaim}

theorem wp_complete {output : RecoveryOutput} (hclaims : headContract.always files)
    (hinv : files.Inv) :
    headContract.wp (store.complete id configSignature output now) (fun _ _ => True) files := by
  refine wp_read_bind hclaims hinv ?_
  intro _ _
  refine wp_update hclaims hinv ?_
  intro record new hloads hnew
  obtain ⟨_, _, hnew⟩ := Except.bind_eq_ok.mp hnew
  obtain ⟨_, _, hnew⟩ := Except.bind_eq_ok.mp hnew
  split at hnew
  · cases hnew
  next hrunning =>
    cases hnew
    exact savable_of_live hinv hloads (.inr (not_not.mp hrunning)) rfl le_rfl

theorem wp_fail (hclaims : headContract.always files) (hinv : files.Inv) :
    headContract.wp (store.fail id configSignature detail now) (fun _ _ => True) files := by
  refine wp_update hclaims hinv ?_
  intro record new hloads hnew
  obtain ⟨_, _, hnew⟩ := Except.bind_eq_ok.mp hnew
  split at hnew
  · cases hnew
  next hrunning =>
    cases hnew
    exact savable_of_live hinv hloads (.inr (not_not.mp hrunning)) rfl le_rfl

/-- The id loads a superseded record of a head whose owner is another record
that waits for a worker or has used the head's attempt. -/
def RecoveryFiles.hidesOwner (files : RecoveryFiles) (id : String) : Bool :=
  (files.view id).any fun record =>
    record.receipt.status = .superseded &&
      (files.headOwner record.request.head).any fun owner =>
        owner ≠ id && (files.view owner).any fun other =>
          other.receipt.status = .pending || 0 < other.receipt.attempt

/-- Saving a superseded record again does no harm while its head's owner is idle. -/
theorem savable_superseded (hinv : files.Inv) (hloads : files.Loads id record)
    (hsuperseded : record.receipt.status = .superseded) (hkeeps : files.hidesOwner id = false) :
    Savable files record := by
  have hid := hloads.id
  subst hid
  have howner : ∀ owner other, files.headOwner record.request.head = some owner →
      owner ≠ record.request.id → files.view owner = some other → other.Idle := by
    intro owner other howner hne hview
    simp only [RecoveryFiles.hidesOwner, hloads.view, any_some, hsuperseded, howner,
      hview, decide_true, Bool.true_and] at hkeeps
    simp only [ne_eq, hne, not_false_eq_true, decide_true, Bool.true_and, Bool.or_eq_false_iff,
      decide_eq_false_iff_not, Nat.not_lt, Nat.le_zero] at hkeeps
    exact hkeeps
  constructor
  case replaces =>
    intro old hold
    obtain rfl : record = old := some.inj (hloads.view.symm.trans hold)
    exact ⟨rfl, fun hspent => hspent⟩
  case others =>
    intro i r hne hhas
    cases hown : files.headOwner record.request.head with
    | none => exact absurd (hinv.table.unique hown hhas hloads.has) hne
    | some owner =>
      by_cases hi : i = owner
      · subst hi
        exact howner i r hown hne hhas.1
      · exact hinv.table.others hown hi hhas
  case known =>
    intro _
    exact ⟨record, hloads.view⟩
  case place =>
    intro _ owner hown hne
    exact hinv.table.others hown (Ne.symm hne) hloads.has
  case alone =>
    intro hnone
    exact nomatch hnone.symm.trans hloads.view

theorem wp_supersede {successor : Option String} (hclaims : headContract.always files)
    (hinv : files.Inv) (hkeeps : files.hidesOwner id = false)
    : headContract.wp (store.supersede id successor detail now) (fun _ _ => True) files := by
  unfold RecoveryStore.supersede
  split
  · exact Contract.wp_fail hclaims hinv
  · refine wp_update hclaims hinv ?_
    intro record new hloads hnew
    unfold supersedeRecord at hnew
    split_ifs at hnew with hsuperseded _ hlive
    · cases hnew
      exact savable_superseded hinv hloads hsuperseded hkeeps
    · cases hnew
      refine savable_of_live hinv hloads ?_ rfl le_rfl
      unfold RecoveryRecord.Live
      tauto

theorem wp_deferPending (hclaims : headContract.always files) (hinv : files.Inv) :
    headContract.wp (store.deferPending id configSignature detail now) (fun _ _ => True)
      files := by
  refine wp_read_bind hclaims hinv ?_
  intro record hload
  have hloads := loadExisting_ok hload
  split
  · exact wp_pure hclaims hinv trivial
  next hpending =>
    have hlive : record.Live := .inl (by tauto)
    refine wp_read_bind hclaims hinv ?_
    intro others _
    exact wp_map (wp_save hclaims hinv (savable_of_live hinv hloads hlive rfl le_rfl))

/-! ## Claiming an attempt -/

/-- A record that loads as pending is stored as it is, and has no claim. -/
theorem RecoveryFiles.stored_of_pending (hview : files.view id = some record)
    (hpending : record.receipt.status = .pending) : files.stored id = some record := by
  obtain ⟨stored, hstored, heffective⟩ := map_eq_some_iff.mp hview
  have hsame : files.effective stored = stored := by
    apply effective_of_unclaimed
    intro hstoredPending
    cases hclaim : files.claim stored.request.id with
    | none => rfl
    | some claim =>
      rw [← heffective] at hpending
      simp [RecoveryFiles.effective, hstoredPending, hclaim, RecoveryRecord.claimedBy] at hpending
  rw [hstored, ← heffective, hsame]

/-- Writing the claim of a pending record is the first claim of its head. -/
theorem claim_safe (hclaims : headContract.always files) (hinv : files.Inv)
    (hloads : files.Loads claim.requestId record) (hpending : record.receipt.status = .pending)
    (hattempt : 0 < claim.attempt) :
    headContract.Safe files [.claim record.request.head claim] := by
  have hstored := stored_of_pending hloads.view hpending
  have hfresh := hinv.table.not_claimed hloads.has hpending (hloads.sound.pending hpending)
  refine .cons hclaims hinv ⟨?_, ⟨hinv.wellFormed.claim hstored hpending hattempt, ?_⟩⟩
  · intro head
    change (files.claimed ++ [record.request.head]).count head ≤ 1
    rw [List.count_append]
    by_cases hhead : head = record.request.head
    · subst hhead
      have hzero : files.claimed.count record.request.head = 0 := List.count_eq_zero.mpr hfresh
      simp [hzero]
    · have hother : [record.request.head].count head = 0 := by
        simp [List.count_eq_zero, hhead]
      rw [hother]
      exact hclaims head
  · change (files.apply (.claim record.request.head claim)).table.Inv
    rw [table_claim hinv.wellFormed hstored hpending]
    refine HeadTable.Inv.claim (hinv.table.put hloads.view ?_ ?_) HeadTable.has_put_self hattempt
    · intro old hold
      obtain rfl : record = old := some.inj (hloads.view.symm.trans hold)
      exact ⟨rfl, fun _ => hattempt⟩
    · intro owner howner hne
      have hidle := hinv.table.others howner (Ne.symm hne) hloads.has
      exact absurd hidle (hloads.not_idle (.inl hpending))

theorem claimFromRunningRecord_ok (hclaim : claimFromRunningRecord record = .ok claim) :
    claim.requestId = record.request.id ∧ 0 < claim.attempt := by
  unfold claimFromRunningRecord at hclaim
  split at hclaim
  · cases hclaim
  next hrunning =>
    split at hclaim
    · cases hclaim
    · split at hclaim
      · cases hclaim
      · cases hclaim
        exact ⟨rfl, Nat.pos_of_ne_zero (by tauto)⟩

/-- After the claim is written its record is no longer idle. -/
theorem wp_persistClaim (hclaims : headContract.always files) (hinv : files.Inv)
    (hloads : files.Loads id record) (hpending : record.receipt.status = .pending)
    (hrequest : new.request = record.request) :
    headContract.wp (persistClaim new)
      (fun _ files' => ∃ claimed : RecoveryRecord, claimed.Spent ∧
        (RecoveryFiles.table files').Has new.request.head id claimed) files := by
  refine wp_read_bind hclaims hinv ?_
  intro claim hclaim
  obtain ⟨hid, hpos⟩ := claimFromRunningRecord_ok hclaim
  obtain rfl : claim.requestId = id := by rw [hid, hrequest, hloads.id]
  refine wp_read_bind hclaims hinv ?_
  intro _ _
  rw [hrequest]
  refine wp_write (claim_safe hclaims hinv hloads hpending hpos) ?_
  refine ⟨record.claimedBy claim, hpos, ?_⟩
  have hstored := stored_of_pending hloads.view hpending
  change (files.apply (.claim record.request.head claim)).table.Has _ _ _
  rw [table_claim hinv.wellFormed hstored hpending]
  exact HeadTable.has_put_self

theorem wp_begin {workerGeneration : String} (hclaims : headContract.always files)
    (hinv : files.Inv) :
    headContract.wp (store.begin id configSignature workerGeneration now) (fun _ _ => True)
      files := by
  refine wp_read_bind hclaims hinv ?_
  intro record hload
  have hloads := loadExisting_ok hload
  refine wp_read_bind hclaims hinv ?_
  intro _ _
  split_ifs with hpending _ hrunning _
  · exact Contract.wp_fail hclaims hinv
  · -- a new claim: the claim file first, then the record it announces
    refine wp_read_bind hclaims hinv ?_
    intro _ _
    refine wp_bind (wp_persistClaim hclaims hinv hloads hpending rfl) ?_
    rintro _ files' hclaims' hinv' ⟨claimed, hspent, hhas⟩
    refine wp_map (wp_save hclaims' hinv' ?_)
    refine savable_of_busy hinv' hhas ?_ hloads.id ?_
    · rintro ⟨_, hzero⟩
      exact absurd hzero (Nat.ne_of_gt hspent)
    · intro _
      exact Nat.succ_pos _
  · exact wp_map
      (wp_save hclaims hinv (savable_of_live hinv hloads (.inr hrunning.1) rfl le_rfl))
  · exact Contract.wp_fail hclaims hinv
  · exact Contract.wp_fail hclaims hinv

end Shipyard.Recovery
