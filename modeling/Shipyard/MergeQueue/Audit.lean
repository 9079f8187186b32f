import Mathlib.Algebra.GroupWithZero.Nat
import Shipyard.Job
import Shipyard.Lib.SegmentedLog
import Mathlib.Data.List.Induction

/-!
# The mutation audit of the merge queue

The audit log of `merge_queue_control.rs` and its rotation in `log_retention.rs`.
Unresolved mutations are not stored: readers fold the retained segments. The
steps of a rotation are listed as file operations, so that a process can stop
between any two of them.
-/

namespace Shipyard.MergeQueue

open Lib SortedMap List

/-! ## Rotation -/

/-- The part of the retention policy that rotation reads; configuration caps
the number of segments at 32. -/
structure LogRetentionPolicy where
  maxActiveFileBytes : Nat
  rotatedSegments : Nat
  atLeastOne : 1 ≤ rotatedSegments := by decide
  atMost : rotatedSegments ≤ 32 := by decide
deriving DecidableEq

section Rotation

variable {ρ : Type} (lineBytes : ρ → Nat)

def fileBytes (contents : List ρ) : Nat := (contents.map lineBytes).sum

def pruneExcessSegments (segments : Nat) : List (LogOp ρ) :=
  (List.range' (segments + 1) (32 - segments)).map .remove

def rotateBeforeOpenUnlocked (segments : Nat) (active : Option (List ρ)) : List (LogOp ρ) :=
  let segments := max segments 1
  pruneExcessSegments segments ++
    if active.any fun contents => fileBytes lineBytes contents ≠ 0 then
      .remove segments :: ((List.range' 1 (segments - 1)).reverse.map .shift ++ [.close])
    else []

def rotateIfOversize (policy : LogRetentionPolicy) (active : Option (List ρ)) : List (LogOp ρ) :=
  pruneExcessSegments (max policy.rotatedSegments 1) ++
    if active.any fun contents => policy.maxActiveFileBytes ≤ fileBytes lineBytes contents then
      rotateBeforeOpenUnlocked lineBytes policy.rotatedSegments active
    else []

end Rotation

/-! ## Records and their fold -/

inductive AuditPhase where
  | started
  | intentEvidence
  | finished
deriving DecidableEq, Repr

/-- The fields of an audit line that the fold reads or writes. A missing field
is `none`; the comment id is also stored as null. -/
structure AuditRecord where
  timestamp : Time
  correlationId : String
  phase : AuditPhase
  action : Option String := none
  outcome : Option String := none
  repo : Option String := none
  base : Option String := none
  pr : Option Nat := none
  head : Option String := none
  approvalCommentId : Option (Option Nat) := none
  finishedAt : Option Time := none
deriving DecidableEq

/-- The unresolved mutations by correlation id. -/
abbrev Started := SortedMap String AuditRecord

def applyAuditLine (started : Started) (line : AuditRecord) : Started :=
  match line.phase with
  | .started => started.insert line.correlationId { line with outcome := some "uncertain" }
  | .intentEvidence =>
    match started.get? line.correlationId, line.approvalCommentId with
    | some existing, some commentId =>
      started.insert line.correlationId { existing with approvalCommentId := some commentId }
    | _, _ => started
  | .finished =>
    if line.outcome = some "uncertain" then
      match started.get? line.correlationId with
      | some existing =>
        started.insert line.correlationId
          { existing with outcome := some "uncertain", finishedAt := some line.timestamp }
      | none => started.insert line.correlationId line
    else started.erase line.correlationId

/-- The unresolved mutations after a list of records, oldest first. -/
def readUncertain (records : List AuditRecord) : Started := records.foldl applyAuditLine .empty

abbrev AuditLog := SegmentedLog AuditRecord

def uncertainMutations (log : AuditLog) : List AuditRecord := (readUncertain log.records).values

/-- The file operations of one append: the log is rotated only while nothing is
unresolved. -/
def appendAudit (lineBytes : AuditRecord → Nat) (policy : LogRetentionPolicy)
    (value : AuditRecord) (log : AuditLog) : List (LogOp AuditRecord) :=
  (if (uncertainMutations log).isEmpty then rotateIfOversize lineBytes policy log.active else []) ++
    [.append value]

/-! ## What the fold remembers -/

/-- The pull request that a record names. -/
structure PullRequestKey where
  repo : String
  base : String
  pr : Nat
deriving DecidableEq, Repr

variable (record : AuditRecord) (started : Started) {id : String} {history : List AuditRecord}

def AuditRecord.isFor (key : PullRequestKey) : Bool :=
  record.repo = some key.repo && record.base = some key.base && record.pr = some key.pr

/-- Started, or finished without a conclusion. -/
def AuditRecord.opens : Bool :=
  record.phase = .started || record.phase = .finished && record.outcome = some "uncertain"

def AuditRecord.concludes : Bool :=
  record.phase = .finished && record.outcome ≠ some "uncertain"

/-- Every opening record of the pull request is followed by a conclusive one
with the same correlation id. -/
def Settled (key : PullRequestKey) (history : List AuditRecord) : Prop :=
  ∀ before record after, history = before ++ record :: after → record.opens = true →
    record.isFor key = true →
    ∃ later ∈ after, later.correlationId = record.correlationId ∧ later.concludes = true

/-- Opening records with one correlation id name the same pull request. -/
def OneTarget (history : List AuditRecord) : Prop :=
  ∀ first ∈ history, ∀ second ∈ history, first.opens = true → second.opens = true →
    first.correlationId = second.correlationId →
    ∀ key, first.isFor key = second.isFor key

theorem readUncertain_append (records : List AuditRecord) (line : AuditRecord) :
    readUncertain (records ++ [line]) = applyAuditLine (readUncertain records) line := by
  rw [readUncertain, foldl_append]
  rfl

variable {line : AuditRecord}

/-- A line only touches the entry of its correlation id. -/
theorem applyAuditLine_get?_of_ne (hne : id ≠ line.correlationId)
    : (applyAuditLine started line).get? id = started.get? id := by
  unfold applyAuditLine
  split
  · exact get?_insert_of_ne _ hne _
  · split
    · exact get?_insert_of_ne _ hne _
    · rfl
  · split
    · split
      · exact get?_insert_of_ne _ hne _
      · exact get?_insert_of_ne _ hne _
    · rw [get?_erase, if_neg hne]

/-- An entry after a line comes from the line itself or from the entry before. -/
theorem applyAuditLine_origin {started : Started} {line entry : AuditRecord}
    (hentry : (applyAuditLine started line).get? line.correlationId = some entry) :
    (line.opens = true ∧ ∀ key, entry.isFor key = line.isFor key) ∨
    ∃ old, started.get? line.correlationId = some old ∧ ∀ key, entry.isFor key = old.isFor key := by
  unfold applyAuditLine at hentry
  split at hentry
  next hphase =>
    rw [get?_insert_self] at hentry
    cases hentry
    exact .inl ⟨by simp [AuditRecord.opens, hphase], fun _ => rfl⟩
  · split at hentry
    next existing commentId hexisting _ =>
      rw [get?_insert_self] at hentry
      cases hentry
      exact .inr ⟨existing, hexisting, fun _ => rfl⟩
    · exact .inr ⟨entry, hentry, fun _ => rfl⟩
  next hphase =>
    split at hentry
    next houtcome =>
      split at hentry
      next existing hexisting =>
        rw [get?_insert_self] at hentry
        cases hentry
        exact .inr ⟨existing, hexisting, fun _ => rfl⟩
      · rw [get?_insert_self] at hentry
        cases hentry
        exact .inl ⟨by simp [AuditRecord.opens, hphase, houtcome], fun _ => rfl⟩
    · rw [get?_erase, if_pos rfl] at hentry
      cases hentry

theorem applyAuditLine_isSome_of_opens (hopens : line.opens = true) :
    ((applyAuditLine started line).get? line.correlationId).isSome = true := by
  unfold applyAuditLine
  split
  · simp
  next hphase => simp [AuditRecord.opens, hphase] at hopens
  next hphase =>
    have houtcome : line.outcome = some "uncertain" := by
      simpa [AuditRecord.opens, hphase] using hopens
    rw [if_pos houtcome]
    split <;> simp

/-- Only a conclusive line removes an entry. -/
theorem applyAuditLine_isSome {started : Started} (hbefore : (started.get? id).isSome = true)
    (hline : line.correlationId = id → line.concludes = false) :
    ((applyAuditLine started line).get? id).isSome = true := by
  by_cases hid : id = line.correlationId
  · subst hid
    unfold applyAuditLine
    split
    · simp
    · split
      · simp
      · exact hbefore
    next hphase =>
      have houtcome : line.outcome = some "uncertain" := by
        simpa [AuditRecord.concludes, hphase] using hline rfl
      rw [if_pos houtcome]
      split <;> simp
  · rw [applyAuditLine_get?_of_ne started hid]
    exact hbefore

/-- Every unresolved entry names the pull request of an opening record. -/
theorem readUncertain_origin {entry : AuditRecord}
    (hentry : (readUncertain history).get? id = some entry) :
    ∃ record ∈ history, record.opens = true ∧ record.correlationId = id ∧
      ∀ key, entry.isFor key = record.isFor key := by
  induction history using List.reverseRecOn generalizing entry with
  | nil => cases hentry
  | append_singleton init line ih =>
    rw [readUncertain_append] at hentry
    have hold : ∀ old, (readUncertain init).get? id = some old →
        (∀ key, entry.isFor key = old.isFor key) →
        ∃ record ∈ init ++ [line], record.opens = true ∧ record.correlationId = id ∧
          ∀ key, entry.isFor key = record.isFor key := by
      intro old hget hkeys
      obtain ⟨record, hrecord, hopens, hid, hsame⟩ := ih hget
      exact ⟨record, mem_append_left _ hrecord, hopens, hid,
        fun key => (hkeys key).trans (hsame key)⟩
    by_cases hid : id = line.correlationId
    · subst hid
      rcases applyAuditLine_origin hentry with ⟨hopens, hkeys⟩ | ⟨old, hget, hkeys⟩
      · exact ⟨line, mem_append_right _ (mem_singleton.mpr rfl), hopens, rfl, hkeys⟩
      · exact hold old hget hkeys
    · rw [applyAuditLine_get?_of_ne _ hid] at hentry
      exact hold entry hentry fun _ => rfl

/-- An opening record without a later conclusion has an unresolved entry. -/
theorem readUncertain_isSome (before : List AuditRecord) {after : List AuditRecord}
    {record : AuditRecord}
    (hopens : record.opens = true)
    (hopen : ∀ later ∈ after, later.correlationId = record.correlationId →
      later.concludes = false) :
    ((readUncertain (before ++ record :: after)).get? record.correlationId).isSome = true := by
  induction after using List.reverseRecOn with
  | nil =>
    rw [readUncertain_append]
    exact applyAuditLine_isSome_of_opens _ hopens
  | append_singleton init line ih =>
    have hinit := ih fun later hlater => hopen later (mem_append_left _ hlater)
    rw [← cons_append, ← append_assoc, readUncertain_append]
    exact applyAuditLine_isSome hinit
      (hopen line (mem_append_right _ (mem_singleton.mpr rfl)))

/-- If no unresolved entry names a pull request, the history has settled it. -/
theorem settled_of_no_entry (hone : OneTarget history) {key : PullRequestKey}
    (hnone : ∀ entry ∈ (readUncertain history).values, entry.isFor key = false) :
    Settled key history := by
  intro before record after hhistory hopens hfor
  by_contra hopen
  have hlater : ∀ later ∈ after, later.correlationId = record.correlationId →
      later.concludes = false := by
    intro later hmem hid
    by_contra hconcludes
    exact hopen ⟨later, hmem, hid, by simpa using hconcludes⟩
  obtain ⟨entry, hentry⟩ := Option.isSome_iff_exists.mp
    (readUncertain_isSome before hopens hlater)
  rw [← hhistory] at hentry
  obtain ⟨origin, horigin, horiginOpens, hid, hkeys⟩ := readUncertain_origin hentry
  have hrecord : record ∈ history := hhistory ▸ mem_append_right _ mem_cons_self
  have hsame := hone origin horigin record hrecord horiginOpens hopens hid key
  have hentryFor := hnone entry (mem_values_of_get? hentry)
  rw [hkeys key, hsame, hfor] at hentryFor
  cases hentryFor

end Shipyard.MergeQueue
