import Shipyard.Recovery.Transitions
import Shipyard.Lib.Rows

/-!
# Sweeps and enqueueing

The operations that look at several records. A sweep saves records it loaded
before; an enqueue finds the owner of a head, and hands the head over only
while no attempt of it was made.
-/

namespace Shipyard.Recovery

open Lib Lib.Disk Contract RecoveryFiles Function List

variable {files : RecoveryFiles} {id : String} {record : RecoveryRecord} {store : RecoveryStore}

/-! ## Sweeps -/

variable {now : Int} {detail : String} {head : HeadKey}

variable {ids : List String} {existing : RecoveryRecord}

theorem wp_supersedeEach (hclaims : headContract.always files) (hinv : files.Inv) :
    headContract.wp (store.supersedeEach head detail now ids) (fun _ _ => True) files := by
  induction ids generalizing files with
  | nil => exact wp_pure hclaims hinv trivial
  | cons id rest ih =>
    refine wp_read_bind hclaims hinv ?_
    intro record hload
    split
    next hlive =>
      have hsavable : Savable files (record.supersededAs none detail now) :=
        savable_of_live hinv (loadExisting_ok hload) hlive.2 rfl le_rfl
      refine wp_bind (wp_save hclaims hinv hsavable) ?_
      intro _ files' hclaims' hinv' _
      exact wp_map (ih hclaims' hinv')
    · exact ih hclaims hinv

variable {records : List RecoveryRecord}

theorem loaded_ids
    (hall : List.Forall₂ (fun id record => store.loadExisting files id = .ok record) ids records) :
    records.map (·.request.id) = ids := by
  induction hall with
  | nil => rfl
  | cons hhead _ ih => rw [map_cons, ih, (loadExisting_ok hhead).id]

/-- The active records are loaded under their ids, one for each. -/
theorem loadActive_ok (hload : store.loadActive files = .ok records) :
    (∀ record ∈ records, files.Loads record.request.id record) ∧
      (records.map (·.request.id)).Nodup ∧
      ∀ id active, files.active.get? id = some active →
        ∃ record ∈ records, files.Loads id record := by
  have hall := Except.forall₂_of_mapM hload
  refine ⟨?_, ?_, ?_⟩
  · intro record hmem
    obtain ⟨id, _, hid⟩ := forall₂_exists_left hall hmem
    have hloads := loadExisting_ok hid
    rw [hloads.id]
    exact hloads
  · rw [loaded_ids hall]
    exact files.active.sorted.imp ne_of_lt
  · intro id active hactive
    obtain ⟨record, hmem, hid⟩ := forall₂_exists_right hall (SortedMap.mem_keys_of_get? hactive)
    exact ⟨record, hmem, loadExisting_ok hid⟩

/-- A save leaves what other ids load. -/
theorem RecoveryFiles.Loads.saved {files' : RecoveryFiles} {saved : RecoveryRecord}
    (hloads : files.Loads id record) (htable : files'.table = files.savedTable saved)
    (hne : id ≠ saved.request.id) : files'.Loads id record := by
  refine ⟨?_, hloads.id, hloads.sound⟩
  refine (congrFun (congrArg HeadTable.record htable) id).trans ?_
  simp only [RecoveryFiles.savedTable, HeadTable.own, HeadTable.put, update_of_ne hne]
  exact hloads.view

theorem wp_failEach (hclaims : headContract.always files) (hinv : files.Inv)
    (hloads : ∀ record ∈ records, files.Loads record.request.id record)
    (hrunning : ∀ record ∈ records, record.receipt.status = .running)
    (hnodup : (records.map (·.request.id)).Nodup) :
    headContract.wp (store.failEach detail now records) (fun _ _ => True) files := by
  induction records generalizing files with
  | nil => exact wp_pure hclaims hinv trivial
  | cons record rest ih =>
    rw [map_cons, nodup_cons] at hnodup
    obtain ⟨hfresh, hnodup⟩ := hnodup
    have hsavable : Savable files (record.failedWith detail now) :=
      savable_of_live hinv (hloads record mem_cons_self)
        (.inr (hrunning record mem_cons_self)) rfl le_rfl
    refine wp_bind (wp_save hclaims hinv hsavable) ?_
    intro _ files' hclaims' hinv' htable
    have hrest : ∀ other ∈ rest, RecoveryFiles.Loads files' other.request.id other := by
      intro other hother
      refine (hloads other (mem_cons_of_mem _ hother)).saved htable ?_
      intro heq
      exact hfresh (mem_map.mpr ⟨other, hother, heq⟩)
    exact wp_map
      (ih hclaims' hinv' hrest (fun other hother =>
        hrunning other (mem_cons_of_mem _ hother)) hnodup)

theorem wp_reconcileRunningWhere {predicate : RecoveryRecord → Bool}
    (hclaims : headContract.always files) (hinv : files.Inv) :
    headContract.wp (store.reconcileRunningWhere detail now predicate) (fun _ _ => True)
      files := by
  refine wp_read_bind hclaims hinv ?_
  intro records hload
  obtain ⟨hloads, hnodup, _⟩ := loadActive_ok hload
  refine wp_failEach hclaims hinv ?_ ?_ ?_
  · intro record hmem
    exact hloads record (mem_filter.mp hmem).1
  · intro record hmem
    simp only [mem_filter, Bool.and_eq_true, decide_eq_true_eq] at hmem
    exact hmem.2.1
  · exact hnodup.sublist (filter_sublist.map _)

/-! ## Enqueueing -/

/-- What a look at the records of a head finds: the owner, or that the head has
no record at all. -/
inductive HeadView (files : RecoveryFiles) (head : HeadKey) : List RecoveryRecord → Prop
  | owned (owner : RecoveryRecord) (loads : files.Loads owner.request.id owner)
      (same : owner.request.head = head)
      (index : files.headOwner head = some owner.request.id) : HeadView files head [owner]
  | unowned (index : files.headOwner head = none)
      (alone : ∀ id record, ¬files.table.Has head id record) : HeadView files head []

variable {request : RecoveryRequest}

/-- Without an index entry, a head has at most one active record, and no other. -/
theorem scan_cases {active : List RecoveryRecord} (hinv : files.Inv)
    (hload : store.loadActive files = .ok active) (hindex : files.headOwner request.head = none) :
    (∃ owner, active.filter (·.request.head = request.head) = [owner] ∧
      files.Loads owner.request.id owner ∧ owner.request.head = request.head) ∨
    (active.filter (·.request.head = request.head) = [] ∧
      ∀ id record, ¬files.table.Has request.head id record) := by
  obtain ⟨hloads, hnodup, hfound⟩ := loadActive_ok hload
  have hmem : ∀ record ∈ active.filter (·.request.head = request.head),
      files.Loads record.request.id record ∧ record.request.head = request.head := by
    intro record hrecord
    simp only [mem_filter, decide_eq_true_eq] at hrecord
    exact ⟨hloads record hrecord.1, hrecord.2⟩
  have hids := hnodup.sublist
    ((filter_sublist (p := fun record : RecoveryRecord =>
      decide (record.request.head = request.head))).map (·.request.id))
  cases hrecords : active.filter (·.request.head = request.head) with
  | nil =>
    refine .inr ⟨rfl, ?_⟩
    intro id record hhas
    obtain ⟨copy, hcopy⟩ := hinv.wellFormed.indexed hindex hhas
    obtain ⟨loaded, hloaded, hload⟩ := hfound id copy hcopy
    obtain rfl : loaded = record := Option.some.inj (hload.view.symm.trans hhas.1)
    have hin : loaded ∈ active.filter (·.request.head = request.head) :=
      mem_filter.mpr ⟨hloaded, by simpa using hhas.2⟩
    rw [hrecords] at hin
    cases hin
  | cons owner rest =>
    rw [hrecords] at hmem hids
    have howner := hmem owner mem_cons_self
    cases rest with
    | nil => exact .inl ⟨owner, rfl, howner⟩
    | cons other rest =>
      have hother := hmem other (mem_cons_of_mem _ mem_cons_self)
      have hsame := hinv.table.unique hindex ⟨howner.1.view, howner.2⟩
        ⟨hother.1.view, hother.2⟩
      simp [hsame] at hids

theorem wp_sameHeadRecords (hclaims : headContract.always files) (hinv : files.Inv) :
    headContract.wp (store.sameHeadRecords request)
      (fun records files' => HeadView files' request.head records ∧
        ∀ id, RecoveryFiles.view files' id = files.view id) files := by
  refine wp_read_bind hclaims hinv ?_
  intro found hfound
  unfold RecoveryStore.loadHeadOwner at hfound
  split at hfound
  next hindex =>
    cases hfound
    refine wp_read_bind hclaims hinv ?_
    intro active hload
    rcases scan_cases hinv hload hindex with ⟨owner, hrecords, hloads, hsame⟩ | ⟨hrecords, halone⟩
    · rw [hrecords]
      have hhas : files.table.Has owner.request.head owner.request.id owner := hloads.has
      refine wp_bind (Q := fun _ files' => HeadView files' request.head [owner] ∧
        ∀ id, RecoveryFiles.view files' id = files.view id)
        (wp_write (.cons hclaims hinv ⟨hclaims, hinv.wellFormed.own _ _, ?_⟩) ?_)
        fun _ _ halways hrest hpost => wp_pure halways hrest hpost
      · refine hinv.table.own hhas ?_
        intro id record hne hother
        rw [hsame] at hhas hother
        exact absurd (hinv.table.unique hindex hother hhas) hne
      · refine ⟨.owned owner ⟨hloads.view, rfl, hloads.sound⟩ hsame ?_, fun _ => rfl⟩
        rw [← hsame]
        exact update_self ..
    · rw [hrecords]
      exact wp_pure hclaims hinv ⟨.unowned hindex halone, fun _ => rfl⟩
  next owner hindex =>
    obtain ⟨record, hload, hfound⟩ := Except.bind_eq_ok.mp hfound
    have hloads := loadExisting_ok hload
    split at hfound
    · cases hfound
    next hsame =>
      cases hfound
      refine wp_pure hclaims hinv ⟨.owned record ?_ (not_not.mp hsame) ?_, fun _ => rfl⟩
      · rw [hloads.id]
        exact hloads
      · rw [hloads.id]
        exact hindex

theorem HeadView.loads (hview : HeadView files head records) (hmem : record ∈ records) :
    files.Loads record.request.id record := by
  cases hview with
  | owned owner hloads _ _ =>
    rw [mem_singleton] at hmem
    exact hmem ▸ hloads
  | unowned _ _ => cases hmem

variable {excludedId : Option String}

/-- Without an outcome the siblings have used no attempt, and nothing was written. -/
theorem wp_spentHeadOutcome (hclaims : headContract.always files) (hinv : files.Inv)
    (hview : HeadView files head records) :
    headContract.wp (store.spentHeadOutcome records excludedId now)
      (fun outcome files' => outcome = none → files = files' ∧
        ∀ record ∈ records, isSibling excludedId record = true →
          record.receipt.attempt = 0) files := by
  unfold RecoveryStore.spentHeadOutcome
  split
  next hfind =>
    refine wp_pure hclaims hinv fun _ => ⟨rfl, ?_⟩
    intro record hmem hsibling
    have hnot := find?_eq_none.mp hfind record hmem
    simpa [hsibling] using hnot
  next spent hfind =>
    split
    next hrunning =>
      have hloads := hview.loads (mem_of_find?_eq_some hfind)
      have hsavable : ∀ detail, Savable files (spent.supersededAs none detail now) :=
        fun _ => savable_of_live hinv hloads (.inr hrunning) rfl le_rfl
      exact wp_bind (wp_save hclaims hinv (hsavable _))
        fun _ _ halways hrest _ => wp_pure halways hrest nofun
    · exact wp_pure hclaims hinv nofun

/-- The head is free for the id: all its other records are idle. -/
structure HeadFree (files : RecoveryFiles) (head : HeadKey) (id : String) : Prop where
  others : files.table.OthersIdle head id
  alone : files.headOwner head = none → ∀ i record, ¬files.table.Has head i record

/-- A head whose owner is idle, or is the id itself, is free. -/
theorem headFree_of_owner (owner : RecoveryRecord) (hinv : files.Inv)
    (hhas : files.table.Has head owner.request.id owner)
    (hindex : files.headOwner head = some owner.request.id)
    (hidle : owner.request.id ≠ id → owner.Idle) : HeadFree files head id := by
  constructor
  case others =>
    intro i record hne hother
    by_cases hi : i = owner.request.id
    · subst hi
      obtain rfl : owner = record := Option.some.inj (hhas.1.symm.trans hother.1)
      exact hidle hne
    · exact hinv.table.others hindex hi hother
  case alone =>
    intro hnone
    exact nomatch hnone.symm.trans hindex

variable (hclaims : headContract.always files)

include hclaims

variable (hinv : files.Inv)

include hinv

/-- Once the pending sibling is superseded, the head is free. -/
theorem wp_supersedePendingSibling (hview : HeadView files request.head records)
    (hunspent : ∀ record ∈ records, isSibling excludedId record = true → record.receipt.attempt = 0)
    (hsibling : ∀ record ∈ records, isSibling excludedId record = true ↔ record.request.id ≠
      request.id) :
    headContract.wp (store.supersedePendingSibling records excludedId request detail now)
      (fun _ files' => HeadFree files' request.head request.id ∧
        RecoveryFiles.view files' request.id = files.view request.id) files := by
  refine wp_read_bind hclaims hinv ?_
  intro sibling hfound
  cases hview with
  | unowned hindex halone =>
    cases hfound
    refine wp_pure hclaims hinv ⟨⟨?_, fun _ => halone⟩, rfl⟩
    intro i record _ hhas
    exact absurd hhas (halone i record)
  | owned owner hloads hsame hindex =>
    have hhas : files.table.Has request.head owner.request.id owner := ⟨hloads.view, hsame⟩
    have howner := hsibling owner mem_cons_self
    have hattempt := hunspent owner mem_cons_self
    by_cases hpending : isSibling excludedId owner = true ∧ owner.receipt.status = .pending
    · simp only [singlePendingSibling, filter_cons, hpending, decide_true, Bool.and_self,
        if_true, filter_nil, Except.ok.injEq] at hfound
      subst hfound
      have hsavable : Savable files (owner.supersededAs (some request.id) detail now) :=
        savable_of_live hinv hloads (.inl hpending.2) rfl le_rfl
      refine wp_mono (wp_save hclaims hinv hsavable) ?_
      intro _ files' hinv' htable
      have hother : request.id ≠ owner.request.id := Ne.symm (howner.mp hpending.1)
      constructor
      · refine headFree_of_owner (owner.supersededAs (some request.id) detail now)
          hinv' ?_ ?_ fun _ => ⟨nofun, hattempt hpending.1⟩
        · rw [htable, ← hsame]
          exact HeadTable.has_put_self
        · refine (congrFun (congrArg HeadTable.owner htable) request.head).trans ?_
          rw [← hsame]
          exact update_self ..
      · refine (congrFun (congrArg HeadTable.record htable) request.id).trans ?_
        exact update_of_ne hother ..
    · have hnone : sibling = none := by
        have hfilter : [owner].filter (fun record => isSibling excludedId record
            && record.receipt.status = .pending) = [] := by
          simpa using hpending
        rw [singlePendingSibling, hfilter] at hfound
        exact (Except.ok.inj hfound).symm
      subst hnone
      refine wp_pure hclaims hinv ⟨headFree_of_owner owner hinv hhas hindex ?_, rfl⟩
      intro hne
      have hsib := howner.mpr hne
      exact ⟨fun hstatus => hpending ⟨hsib, hstatus⟩, hattempt hsib⟩

/-- Taking a head over: unless its attempt is spent, the head is free when the
record is finally saved. -/
theorem wp_takeOver {finish : Program Unit}
    (hsibling : ∀ record, files.view record.request.id = some record → (isSibling excludedId record
      = true ↔ record.request.id ≠ request.id))
    (hfinish : ∀ files', headContract.always files' → RecoveryFiles.Inv files' → HeadFree files'
      request.head request.id → RecoveryFiles.view files' request.id = files.view request.id →
      headContract.wp finish (fun _ _ => True) files') :
    headContract.wp (do
      let sameHead ← store.sameHeadRecords request
      match ← store.spentHeadOutcome sameHead excludedId now with
      | some outcome => pure outcome
      | none =>
        store.supersedePendingSibling sameHead excludedId request detail now
        finish
        pure EnqueueOutcome.created) (fun _ _ => True) files := by
  refine wp_bind (wp_sameHeadRecords hclaims hinv) ?_
  rintro records files₁ hclaims₁ hinv₁ ⟨hview, hsame⟩
  refine wp_bind (wp_spentHeadOutcome hclaims₁ hinv₁ hview) ?_
  intro outcome files₂ hclaims₂ hinv₂ hspent
  cases outcome with
  | some outcome => exact wp_pure hclaims₂ hinv₂ trivial
  | none =>
    obtain ⟨rfl, hunspent⟩ := hspent rfl
    have hsibling₁ : ∀ record ∈ records,
        isSibling excludedId record = true ↔ record.request.id ≠ request.id := by
      intro record hmem
      refine hsibling record ?_
      rw [← hsame]
      exact (hview.loads hmem).view
    refine wp_bind
      (wp_supersedePendingSibling hclaims₁ hinv₁ hview hunspent hsibling₁) ?_
    rintro _ files₃ hclaims₃ hinv₃ ⟨hfree, hkept⟩
    exact wp_map (hfinish files₃ hclaims₃ hinv₃ hfree (hkept.trans (hsame _)))

theorem wp_reactivateUnattempted (hothers : files.table.OthersIdle request.head request.id)
    (hview : files.view request.id = some existing) (hhead : existing.request.head = request.head)
    (hattempt : existing.receipt.attempt = 0) :
    headContract.wp (store.reactivateUnattempted existing request now) (fun _ _ => True)
      files := by
  refine wp_mono (wp_save hclaims hinv ?_) fun _ _ _ _ => trivial
  constructor
  case replaces =>
    intro old hold
    obtain rfl : existing = old := Option.some.inj (hview.symm.trans hold)
    exact ⟨hhead, fun hspent => absurd hattempt (Nat.ne_of_gt hspent)⟩
  case others => exact hothers
  case known => exact fun hnot => absurd rfl hnot
  case place => exact fun hnot => absurd rfl hnot
  case alone => exact fun hnone => nomatch hnone.symm.trans hview

theorem wp_enqueueExisting (hloads : files.Loads request.id existing) :
    headContract.wp (store.enqueueExisting existing request now) (fun _ _ => True) files := by
  unfold RecoveryStore.enqueueExisting
  split
  · exact Contract.wp_fail hclaims hinv
  next hidentity =>
    have hhead : existing.request.head = request.head :=
      sameRecoveryIdentity_head (by simpa using hidentity)
    split
    · exact wp_read hclaims hinv fun _ _ => trivial
    next hunspent =>
      have hattempt : existing.receipt.attempt = 0 := by omega
      split
      next hpending =>
        split
        · exact wp_pure hclaims hinv trivial
        · have hhas : files.table.Has request.head request.id existing := ⟨hloads.view, hhead⟩
          have hothers := hinv.table.othersIdle hhas (hloads.not_idle (.inl hpending))
          exact wp_map
            (wp_reactivateUnattempted hclaims hinv hothers hloads.view hhead hattempt)
      · refine wp_takeOver hclaims hinv ?_ ?_
        · intro record _
          simp [isSibling]
        · intro files' hclaims' hinv' hfree hkept
          exact wp_reactivateUnattempted hclaims' hinv' hfree.others
            (hkept.trans hloads.view) hhead hattempt
      · exact wp_read hclaims hinv fun _ _ => trivial

theorem wp_enqueue :
    headContract.wp (store.enqueue request now) (fun _ _ => True) files := by
  refine wp_read_bind hclaims hinv ?_
  intro _ _
  refine wp_read_bind hclaims hinv ?_
  intro found hload
  cases found with
  | some existing => exact wp_enqueueExisting hclaims hinv (load_some hload)
  | none =>
    have hnone := load_none hload
    refine wp_takeOver hclaims hinv ?_ ?_
    · intro record hview
      refine iff_of_true rfl ?_
      intro heq
      rw [heq] at hview
      exact nomatch hnone.symm.trans hview
    · intro files' hclaims' hinv' hfree hkept
      refine wp_mono (wp_save hclaims' hinv' ?_) fun _ _ _ _ => trivial
      have hnew := hkept.trans hnone
      constructor
      case replaces => exact fun old hold => nomatch hnew.symm.trans hold
      case others => exact hfree.others
      case known => exact fun hnot => absurd rfl hnot
      case place => exact fun hnot => absurd rfl hnot
      case alone => exact fun _ hindex => hfree.alone hindex

end Shipyard.Recovery
