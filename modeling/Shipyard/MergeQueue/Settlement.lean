import Shipyard.MergeQueue.Guard

/-!
# Guards and the whole history

The retained files stay faithful to the whole history, because an append
rotates only while nothing is unresolved and nobody else writes meanwhile. A
guard is granted after a look at the retained files, so the whole history has
settled its pull request.
-/

namespace Shipyard.MergeQueue

open Lib List

variable {lineBytes : AuditRecord → Nat}

/-! ## Appends -/

variable (segments : Nat) {key : PullRequestKey} {holder next : Holder} {op : LogOp AuditRecord}
  {guard : MutationGuard}

theorem pruneExcessSegments_appended :
    ∀ op ∈ (pruneExcessSegments segments : List (LogOp AuditRecord)), op.appended = [] := by
  intro op hop
  obtain ⟨index, -, rfl⟩ := mem_map.mp hop
  rfl

theorem rotateBeforeOpenUnlocked_appended (active : Option (List AuditRecord)) :
    ∀ op ∈ rotateBeforeOpenUnlocked lineBytes segments active, op.appended = [] := by
  intro op hop
  rcases mem_append.mp hop with hprune | hrotate
  · exact pruneExcessSegments_appended _ op hprune
  · split at hrotate
    · simp only [mem_cons, mem_append, mem_map, not_mem_nil, or_false]
        at hrotate
      rcases hrotate with rfl | ⟨index, -, rfl⟩ | rfl <;> rfl
    · cases hrotate

theorem rotateIfOversize_appended (policy : LogRetentionPolicy)
    (active : Option (List AuditRecord)) :
    ∀ op ∈ rotateIfOversize lineBytes policy active, op.appended = [] := by
  intro op hop
  rcases mem_append.mp hop with hprune | hrotate
  · exact pruneExcessSegments_appended _ op hprune
  · split at hrotate
    · exact rotateBeforeOpenUnlocked_appended _ _ op hrotate
    · cases hrotate

/-- The operations of an append: file moves, only while nothing is unresolved,
and then the record. -/
theorem appendAudit_cases (lineBytes : AuditRecord → Nat) (policy : LogRetentionPolicy)
    (record : AuditRecord) (log : AuditLog) :
    ∃ ops, appendAudit lineBytes policy record log = ops ++ [.append record] ∧
      (∀ op ∈ ops, op.appended = []) ∧
      (ops ≠ [] → readUncertain log.records = SortedMap.empty) := by
  refine ⟨_, rfl, ?_, ?_⟩
  · intro op hop
    split at hop
    · exact rotateIfOversize_appended policy log.active op hop
    · cases hop
  · split
    next hempty => exact fun _ => SortedMap.eq_empty_of_values_isEmpty hempty
    · exact fun hne => absurd rfl hne

/-! ## The invariant -/

variable {record : AuditRecord}

theorem isFor_eq (hfor : record.isFor key = true) (other : PullRequestKey) :
    record.isFor other = decide (other = key) := by
  simp only [AuditRecord.isFor, Bool.and_eq_true, decide_eq_true_eq] at hfor
  obtain ⟨⟨hrepo, hbase⟩, hpr⟩ := hfor
  rw [Bool.eq_iff_iff, decide_eq_true_eq]
  simp only [AuditRecord.isFor, hrepo, hbase, hpr, Bool.and_eq_true, decide_eq_true_eq,
    Option.some.injEq]
  constructor
  · rintro ⟨⟨hr, hb⟩, hp⟩
    cases other
    cases key
    simp_all
  · rintro rfl
    exact ⟨⟨rfl, rfl⟩, rfl⟩

/-- A record of a guard's correlation id, if it opens a mutation, opens the
guard's. -/
def OpensFor (guard : MutationGuard) (record : AuditRecord) : Prop :=
  record.opens = true → record.correlationId = guard.correlationId → record.isFor guard.key = true

structure ControlInv (s : ControlState) : Prop where
  faithful : s.log.Faithful applyAuditLine .empty s.history
  oneTarget : OneTarget s.history
  /-- The history uses the correlation id of a guard for its pull request only. -/
  owned : ∀ holder guard, s.holder = some holder → holder.guard? = some guard →
    ∀ record ∈ s.history, OpensFor guard record
  settled : ∀ guard, s.holder = some (.acquiring guard) → Settled guard.key s.history
  /-- An append in progress may close the active file only while nothing is
  unresolved, and an opening record that it writes is the holder's. -/
  writing : s.writing = [] ∨ ∃ ops record, s.writing = ops ++ [.append record] ∧
    (∀ op ∈ ops, op.appended = []) ∧ (ops ≠ [] → readUncertain s.history = SortedMap.empty) ∧
    (record.opens = true → ∃ holder guard, s.holder = some holder ∧ holder.guard? = some guard ∧
      record.correlationId = guard.correlationId ∧ record.isFor guard.key = true)

variable {s : ControlState}

theorem ControlInv.readUncertain_eq (hinv : ControlInv s) :
    readUncertain s.log.records = readUncertain s.history :=
  hinv.faithful.foldl_records

/-- Beginning an append in a role whose guard is known to own its id. -/
theorem ControlInv.write (hinv : ControlInv s) (policy : LogRetentionPolicy)
    (howned : ∀ guard, holder.guard? = some guard → ∀ old ∈ s.history, OpensFor guard old)
    (hsettled : ∀ guard, holder = .acquiring guard → Settled guard.key s.history)
    (hrecord : record.opens = true → ∃ guard, holder.guard? = some guard ∧ record.correlationId =
      guard.correlationId ∧ record.isFor guard.key = true) :
    ControlInv (s.write lineBytes policy holder record) where
  faithful := hinv.faithful
  oneTarget := hinv.oneTarget
  owned := by
    intro other guard hholder hguard
    cases hholder
    exact howned guard hguard
  settled := by
    intro guard hholder
    cases hholder
    exact hsettled guard rfl
  writing := by
    obtain ⟨ops, hops, hmoves, hempty⟩ := appendAudit_cases lineBytes policy record s.log
    refine .inr ⟨ops, record, hops, hmoves, fun hne => ?_, fun hopens => ?_⟩
    · exact hinv.readUncertain_eq.symm.trans (hempty hne)
    · obtain ⟨guard, hguard, hid, hfor⟩ := hrecord hopens
      exact ⟨holder, guard, rfl, hguard, hid, hfor⟩

/-- A step that ends the append and lets the holder go on or go away. -/
theorem ControlInv.release (hinv : ControlInv s) {next : Option Holder}
    (hnext : ∀ holder, next = some holder → (∀ guard, holder ≠ .acquiring guard) ∧ ∃ old, s.holder
      = some old ∧ holder.guard? = old.guard?) :
    ControlInv { s with writing := [], holder := next } where
  faithful := hinv.faithful
  oneTarget := hinv.oneTarget
  owned := by
    intro holder guard hholder hguard
    obtain ⟨-, old, hold, hsame⟩ := hnext holder hholder
    exact hinv.owned old guard hold (hsame ▸ hguard)
  settled := by
    intro guard hholder
    exact absurd rfl ((hnext _ hholder).1 guard)
  writing := .inl rfl

theorem OneTarget.append {history : List AuditRecord} (hone : OneTarget history)
    (hrecord : ∀ old ∈ history, old.opens = true → record.opens = true → old.correlationId =
      record.correlationId → ∀ key, old.isFor key = record.isFor key) :
    OneTarget (history ++ [record]) := by
  intro first hfirst second hsecond hopens hopens' hid key
  rcases mem_append.mp hfirst with hfirst | hfirst <;>
    rcases mem_append.mp hsecond with hsecond | hsecond
  · exact hone first hfirst second hsecond hopens hopens' hid key
  · cases mem_singleton.mp hsecond
    exact hrecord first hfirst hopens hopens' hid key
  · cases mem_singleton.mp hfirst
    exact (hrecord second hsecond hopens' hopens hid.symm key).symm
  · cases mem_singleton.mp hfirst
    cases mem_singleton.mp hsecond
    rfl

theorem afterWrite_guard? (hnext : holder.afterWrite = some next) :
    (∀ guard, next ≠ .acquiring guard) ∧ next.guard? = holder.guard? := by
  cases holder with
  | acquiring guard | guarding guard =>
    cases hnext
    exact ⟨by simp, rfl⟩
  | closing | resolving => cases hnext

theorem afterFailure_guard? (hnext : holder.afterFailure = some next) :
    (∀ guard, next ≠ .acquiring guard) ∧ next.guard? = holder.guard? := by
  cases holder with
  | guarding guard | closing guard =>
    cases hnext
    exact ⟨by simp, rfl⟩
  | acquiring | resolving => cases hnext

/-- The last operation of an append adds its record to the log and the history. -/
theorem ControlInv.appendRecord (hinv : ControlInv s)
    (hrecord : record.opens = true → ∃ holder guard, s.holder = some holder ∧ holder.guard? = some
      guard ∧ record.correlationId = guard.correlationId ∧ record.isFor guard.key = true) :
    ControlInv { s with
      log := s.log.run (.append record)
      history := s.history ++ [record]
      writing := []
      holder := s.holder.bind Holder.afterWrite } where
  faithful := hinv.faithful.run (.append record) nofun
  oneTarget := by
    refine hinv.oneTarget.append fun old hold hopens hrecordOpens hid key => ?_
    obtain ⟨holder, guard, hholder, hguard, hrecordId, hfor⟩ := hrecord hrecordOpens
    have holdFor := hinv.owned holder guard hholder hguard old hold hopens (hid.trans hrecordId)
    rw [isFor_eq holdFor key, isFor_eq hfor key]
  owned := by
    intro next guard hnext hguard
    obtain ⟨holder, hholder, hafter⟩ := Option.bind_eq_some_iff.mp hnext
    rw [(afterWrite_guard? hafter).2] at hguard
    intro old hold
    rcases mem_append.mp hold with hold | hnew
    · exact hinv.owned holder guard hholder hguard old hold
    · cases mem_singleton.mp hnew
      intro hopens _
      obtain ⟨holder', guard', hholder', hguard', -, hfor⟩ := hrecord hopens
      rw [hholder] at hholder'
      cases hholder'
      rw [hguard] at hguard'
      cases hguard'
      exact hfor
  settled := by
    intro guard hnext
    obtain ⟨holder, -, hafter⟩ := Option.bind_eq_some_iff.mp hnext
    exact absurd rfl ((afterWrite_guard? hafter).1 guard)
  writing := .inl rfl

/-- An operation before the last one moves files and adds nothing. -/
theorem ControlInv.moveFiles (hinv : ControlInv s) {ops : List (LogOp AuditRecord)}
    (hwriting : s.writing = op :: (ops ++ [.append record])) : ControlInv { s with
      log := s.log.run op
      history := s.history ++ op.appended
      writing := ops ++ [.append record] } := by
  rcases hinv.writing with hnone | ⟨all, last, hall, hmoves, hempty, hrecord⟩
  · rw [hwriting] at hnone
    cases hnone
  · rw [hwriting, ← cons_append] at hall
    obtain ⟨rfl, hlast⟩ := append_inj' hall rfl
    cases hlast
    have happended : op.appended = [] := hmoves op mem_cons_self
    have hunresolved := hempty (cons_ne_nil _ _)
    have hfaithful := hinv.faithful.run op fun _ => hunresolved
    rw [happended, append_nil] at hfaithful ⊢
    exact ⟨hfaithful, hinv.oneTarget, hinv.owned, hinv.settled,
      .inr ⟨ops, record, rfl, fun other hother => hmoves other (.tail _ hother),
        fun _ => hunresolved, hrecord⟩⟩

theorem ControlInv.fileOp (hinv : ControlInv s) {rest : List (LogOp AuditRecord)}
    (hwriting : s.writing = op :: rest) : ControlInv { s with
      log := s.log.run op
      history := s.history ++ op.appended
      writing := rest
      holder := if rest.isEmpty then s.holder.bind Holder.afterWrite else s.holder } := by
  rcases hinv.writing with hnone | ⟨ops, record, hops, -, -, hrecord⟩
  · rw [hwriting] at hnone
    cases hnone
  · rw [hwriting] at hops
    cases ops with
    | nil =>
      cases hops
      exact hinv.appendRecord hrecord
    | cons first ops =>
      cases hops
      rw [if_neg (by simp)]
      exact hinv.moveFiles hwriting

/-! ## Every step -/

/-- A correlation id is never used for two different pull requests. -/
def reusesForSameTarget (s : ControlState) : ControlLabel → Bool
  | .acquire _ _ guard => s.history.all fun record =>
    !record.opens || record.correlationId ≠ guard.correlationId || record.isFor guard.key
  | _ => true

abbrev ReusesForSameTarget (s : ControlState) (label : ControlLabel) : Prop :=
  reusesForSameTarget s label = true

theorem idleGuard_eq_some (hidle : s.idleGuard = some guard) :
    s.holder = some (.guarding guard) := by
  unfold ControlState.idleGuard at hidle
  split at hidle
  next hholder _ =>
    cases hidle
    exact hholder
  · cases hidle

/-- An idle guard begins to write a record of its own. -/
theorem ControlInv.guardWrites (hinv : ControlInv s) (hidle : s.idleGuard = some guard)
    (policy : LogRetentionPolicy) {writer : MutationGuard} (hholder : holder.guard? = some writer)
    (hnotAcquiring : ∀ other, holder ≠ .acquiring other)
    (hid : writer.correlationId = guard.correlationId) (hkey : writer.key = guard.key)
    (hrecord : record.opens = true → record.correlationId = writer.correlationId ∧ record.isFor
      writer.key = true) : ControlInv (s.write lineBytes policy holder record) := by
  have howned := hinv.owned _ guard (idleGuard_eq_some hidle) rfl
  refine hinv.write policy ?_ (fun other hother => absurd hother (hnotAcquiring other)) ?_
  · intro other hother old hold hopens holdId
    rw [hholder] at hother
    cases hother
    rw [hkey]
    exact howned old hold hopens (holdId.trans hid)
  · exact fun hopens => ⟨writer, hholder, hrecord hopens⟩

theorem isFor_of_fields (hrepo : record.repo = some key.repo) (hbase : record.base = some key.base)
    (hpr : record.pr = some key.pr) : record.isFor key = true := by
  simp [AuditRecord.isFor, hrepo, hbase, hpr]

theorem ControlInv.step {s s' : ControlState} {label : ControlLabel} (hinv : ControlInv s)
    (hreuse : ReusesForSameTarget s label) (hstep : controlStep lineBytes s label = some s') :
    ControlInv s' := by
  cases label with
  | acquire policy now guard =>
    simp only [controlStep, Option.ite_none_left_eq_some, Option.some.injEq] at hstep
    obtain ⟨-, hclear, rfl⟩ := hstep
    refine hinv.write policy ?_ ?_ ?_
    · intro other hother old hold hopens hid
      cases hother
      have hall := all_eq_true.mp hreuse old hold
      simpa [hopens, hid] using hall
    · intro other hother
      cases hother
      refine settled_of_no_entry hinv.oneTarget fun entry hentry => ?_
      rw [← hinv.readUncertain_eq] at hentry
      by_contra hfor
      exact hclear (any_eq_true.mpr ⟨entry, hentry, by simpa using hfor⟩)
    · exact fun _ => ⟨guard, rfl, rfl, isFor_of_fields rfl rfl rfl⟩
  | recordApproval policy now commentId =>
    obtain ⟨guard, hidle, rfl⟩ := Option.map_eq_some_iff.mp hstep
    exact hinv.guardWrites hidle policy rfl (by simp) rfl rfl fun hopens => by
      simp [AuditRecord.opens, evidenceRecord] at hopens
  | finish policy now outcome =>
    obtain ⟨guard, hidle, rfl⟩ := Option.map_eq_some_iff.mp hstep
    exact hinv.guardWrites hidle policy rfl (by simp) rfl rfl
      fun _ => ⟨rfl, isFor_of_fields rfl rfl rfl⟩
  | drop policy now =>
    obtain ⟨guard, hidle, rfl⟩ := Option.map_eq_some_iff.mp hstep
    exact hinv.guardWrites hidle policy rfl (by simp) rfl rfl
      fun _ => ⟨rfl, isFor_of_fields rfl rfl rfl⟩
  | resolve policy now correlationId accepted byResolver =>
    simp only [controlStep, Option.ite_none_left_eq_some] at hstep
    obtain ⟨entry, -, rfl⟩ := Option.map_eq_some_iff.mp hstep.2
    refine hinv.write policy (by simp [Holder.guard?]) (by simp) fun hopens => ?_
    cases accepted <;> simp [AuditRecord.opens, resolvedRecord] at hopens
  | supersede policy now correlationId =>
    obtain ⟨-, ⟨⟩⟩ := Option.ite_none_left_eq_some.mp hstep
    exact hinv.write policy (by simp [Holder.guard?]) (by simp) fun hopens => by
      simp [AuditRecord.opens, supersededRecord] at hopens
  | setHold held =>
    obtain ⟨-, ⟨⟩⟩ := Option.ite_none_left_eq_some.mp hstep
    exact ⟨hinv.faithful, hinv.oneTarget, hinv.owned, hinv.settled, hinv.writing⟩
  | fileOp =>
    simp only [controlStep] at hstep
    split at hstep
    · cases hstep
    next op rest hwriting =>
      cases hstep
      exact hinv.fileOp hwriting
  | writeFails =>
    obtain ⟨-, ⟨⟩⟩ := Option.ite_none_left_eq_some.mp hstep
    refine hinv.release fun next hnext => ?_
    obtain ⟨holder, hholder, hafter⟩ := Option.bind_eq_some_iff.mp hnext
    obtain ⟨hnot, hsame⟩ := afterFailure_guard? hafter
    exact ⟨hnot, holder, hholder, hsame⟩
  | die =>
    cases hstep
    exact hinv.release (by simp)

theorem controlInv_of_reachable (hreach : (control lineBytes).ReachableWhen ReusesForSameTarget s) :
    ControlInv s := by
  refine hreach.invariant (I := ControlInv) ?_ fun _ _ _ hinv hreuse hexec =>
    hinv.step hreuse hexec
  rintro _ rfl
  constructor
  case faithful => exact ⟨by simp, rfl⟩
  case oneTarget => simp [OneTarget]
  case owned => simp
  case settled => simp
  case writing => exact .inl rfl

/-- In every run that uses no correlation id for two pull requests, the
unresolved mutations that are read from the retained segments are those of the
whole history, at every point of an append, and a guard is granted only for a
pull request that the whole history has settled. -/
theorem retained_segments_suffice_and_guards_are_settled (lineBytes : AuditRecord → Nat)
    {s : ControlState} (hreach : (control lineBytes).ReachableWhen ReusesForSameTarget s) :
    uncertainMutations s.log = (readUncertain s.history).values ∧
    ∀ label s' guard, (control lineBytes).exec s label = some s' →
      s.holder = some (.acquiring guard) → s'.holder = some (.guarding guard) →
      Settled guard.key s.history := by
  have hinv := controlInv_of_reachable hreach
  refine ⟨?_, fun label s' guard _ hacquiring _ => hinv.settled guard hacquiring⟩
  rw [uncertainMutations, hinv.readUncertain_eq]

/-! ## A run with a rotation and a crash -/

/-- A policy under which every nonempty active file is rotated. -/
def eagerPolicy : LogRetentionPolicy where
  maxActiveFileBytes := 1
  rotatedSegments := 32

def sampleGuard (correlationId : String) : MutationGuard where
  correlationId
  key := ⟨"acme/app", "main", 7⟩
  head := "abc"
  action := "arm"

def fileOps (count : Nat) : List ControlLabel := List.replicate count .fileOp

/-- A guard is granted and finished. The next one dies within its rotation,
before the rename of the active file. A third one, with the same correlation
id, has rotated and is about to write its started record. -/
def rotatingRun : List ControlLabel :=
  .acquire eagerPolicy 1 (sampleGuard "mq-1") :: .fileOp ::
    .finish eagerPolicy 2 "accepted" :: .fileOp ::
    .acquire eagerPolicy 3 (sampleGuard "mq-2") ::
    (fileOps 32 ++ .die :: .acquire eagerPolicy 4 (sampleGuard "mq-2") :: fileOps 33)

def rotated : ControlState :=
  ((control fun _ => 1).execAll ReusesForSameTarget {} rotatingRun).get (by decide)

theorem rotated_guard_is_settled :
    (rotated.holder = some (.acquiring (sampleGuard "mq-2")) ∧
      rotated.log.active = none ∧ rotated.log.closed.length = 1) ∧
    uncertainMutations rotated.log = (readUncertain rotated.history).values ∧
    ∀ label s' guard, (control fun _ => 1).exec rotated label = some s' →
      rotated.holder = some (.acquiring guard) → s'.holder = some (.guarding guard) →
      Settled guard.key rotated.history :=
  ⟨by decide +kernel, retained_segments_suffice_and_guards_are_settled (fun _ => 1)
    (.of_execAll rfl (Option.some_get _).symm)⟩

end Shipyard.MergeQueue
