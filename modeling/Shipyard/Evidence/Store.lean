import Shipyard.Job
import Shipyard.Lib.Checks

/-!
# The evidence store

One file of records per branch, and one per branch of a workload scope. A scope and a
branch are encoded into file names; an earlier, longer encoding is still read. A read
merges the two files by completion time and a write goes to the new file only, so a
write is read back as it was made unless the older file holds a newer record: the
theorem says exactly when.
-/

namespace Shipyard.Evidence

open Lib

structure EvidenceRecord where
  branch : String
  workloadScope : Option String := none
  targetName : String
  completedAt : Time
deriving DecidableEq, Repr

/-- Records by target name. -/
abbrev Records := SortedMap String EvidenceRecord

inductive EvidenceFile where
  | unreadable (error : String)
  | records (stored : Records)

/-- The hexadecimal text of a SHA-256 digest. -/
structure Sha256Hex where
  digest : String → String
  length_digest : ∀ value, (digest value).length = 64

/-- The files below the store's path. -/
structure EvidenceStore where
  files : List String → Option EvidenceFile

/-! ## File names -/

def sanitizeBranch (branch : String) : String :=
  String.join (branch.toList.map fun ch =>
    if ch = '/' || ch = '\\' then "--" else String.singleton ch)

def sanitizeComponent (value : String) : String :=
  let sanitized := value.toList.map fun ch =>
    if ch.isAlphanum || ch = '-' || ch = '_' || ch = '.' then ch else '-'
  if sanitized.isEmpty then "command-evidence" else String.ofList sanitized

variable (sha : Sha256Hex)

/-- The two encodings of a name: how much of it is kept readable, and of its digest. -/
def encodedComponent (readable digest : Nat) (value : String) : String :=
  String.ofList ((sanitizeComponent value).toList.take readable) ++ "--" ++
    String.ofList ((sha.digest value).toList.take digest)

def collisionSafeComponent (value : String) : String :=
  encodedComponent sha 16 32 value

def legacyCollisionSafeComponent (value : String) : String :=
  encodedComponent sha 48 64 value

def scopedFile (scope branch : String) : List String :=
  ["scoped", collisionSafeComponent sha scope, collisionSafeComponent sha branch ++ ".json"]

def legacyScopedFile (scope branch : String) : List String :=
  ["scoped", legacyCollisionSafeComponent sha scope,
    legacyCollisionSafeComponent sha branch ++ ".json"]

def branchFile (branch : String) : List String := [sanitizeBranch branch ++ ".json"]

/-- The two encodings of one name differ, by their length. -/
theorem collisionSafeComponent_ne (value : String) :
    collisionSafeComponent sha value ≠ legacyCollisionSafeComponent sha value := by
  intro heq
  have hlength := congrArg String.length heq
  have hdigest : (sha.digest value).toList.length = 64 := by
    rw [String.length_toList, sha.length_digest]
  have hseparator : "--".length = 2 := rfl
  simp only [collisionSafeComponent, legacyCollisionSafeComponent, encodedComponent,
    String.length_append, String.length_ofList, List.length_take, hdigest, hseparator] at hlength
  omega

/-! ## Reading and writing -/

namespace EvidenceStore

def loadRecords (store : EvidenceStore) (path : List String) : Except String Records :=
  match store.files path with
  | none => .ok .empty
  | some (.unreadable error) => .error error
  | some (.records stored) => .ok stored

def saveRecords (store : EvidenceStore) (path : List String) (records : Records) :
    EvidenceStore where
  files := Function.update store.files path (some (.records records))

/-- The records of a scope, where a record gives way to one that completed no earlier. -/
def loadScopedRecords (sha : Sha256Hex) (store : EvidenceStore) (scope branch : String) :
    Except String Records := do
  let legacy ← store.loadRecords (legacyScopedFile sha scope branch)
  let current ← store.loadRecords (scopedFile sha scope branch)
  return legacy.mergeWhen
    (fun existing record => existing.completedAt ≤ record.completedAt) current

/-- A change to the records of a branch, made under its lock: what the change returns
and the store it leaves. The last argument is the answer of the disk. -/
def withBranchRecordsLocked {τ : Type} (store : EvidenceStore) (branch : String)
    (change : Records → Except String (τ × Records)) (disk : Except String Unit) :
    Except String (τ × EvidenceStore) := do
  let records ← store.loadRecords (branchFile branch)
  let (output, changed) ← change records
  disk
  return (output, store.saveRecords (branchFile branch) changed)

def withScopedBranchRecordsLocked {τ : Type} (sha : Sha256Hex) (store : EvidenceStore)
    (scope branch : String) (change : Records → Except String (τ × Records))
    (disk : Except String Unit) : Except String (τ × EvidenceStore) := do
  let records ← store.loadScopedRecords sha scope branch
  let (output, changed) ← change records
  disk
  return (output, store.saveRecords (scopedFile sha scope branch) changed)

def recordScoped (sha : Sha256Hex) (store : EvidenceStore) (scope : String)
    (evidence : EvidenceRecord) (disk : Except String Unit) :
    Except String (Unit × EvidenceStore) :=
  store.withScopedBranchRecordsLocked sha scope evidence.branch
    (fun records => .ok ((), records.insert evidence.targetName
      { evidence with workloadScope := some scope }))
    disk

def getBranch (store : EvidenceStore) (branch : String) : Records :=
  (store.loadRecords (branchFile branch)).toOption.getD .empty

def getBranchScoped (sha : Sha256Hex) (store : EvidenceStore) (scope branch : String) : Records :=
  (store.loadScopedRecords sha scope branch).toOption.getD .empty

variable {store : EvidenceStore} {path : List String} {records : Records}

end EvidenceStore

/-! ## What is read back -/

open EvidenceStore

/-- No record of the older file is newer than what is stored in its place. -/
def Supersedes (stored legacy : Records) : Prop :=
  ∀ target old, legacy.get? target = some old →
    ∃ new, stored.get? target = some new ∧ (new = old ∨ old.completedAt ≤ new.completedAt)

/-- Merging a file into an older one gives the file back. -/
theorem mergeWhen_eq_iff (legacy stored : Records) :
    legacy.mergeWhen (fun existing record => existing.completedAt ≤ record.completedAt) stored =
      stored ↔ Supersedes stored legacy := by
  have hget := SortedMap.get?_mergeWhen
    (fun existing record : EvidenceRecord =>
      decide (existing.completedAt ≤ record.completedAt)) legacy stored
  constructor
  · intro heq target old hold
    have hmerged := hget target
    rw [heq, hold] at hmerged
    cases hstored : stored.get? target with
    | none =>
      rw [hstored] at hmerged
      cases hmerged
    | some new =>
      rw [hstored] at hmerged
      by_cases hnewer : old.completedAt ≤ new.completedAt
      · exact ⟨new, rfl, .inr hnewer⟩
      · simp only [Option.all_some, decide_eq_true_eq, if_neg hnewer] at hmerged
        exact ⟨new, rfl, .inl (Option.some.inj hmerged)⟩
  · intro hsupersedes
    ext1 target
    rw [hget]
    cases hold : legacy.get? target with
    | none => cases stored.get? target <;> rfl
    | some old =>
      obtain ⟨new, hnew, hwins⟩ := hsupersedes target old hold
      simp only [hnew, Option.all_some, decide_eq_true_eq]
      rcases hwins with rfl | hnewer
      · exact ite_self _
      · exact if_pos hnewer

/-- A change that succeeded was made to the records read before, and was written. -/
theorem withScopedBranchRecordsLocked_eq_ok {τ : Type} {sha : Sha256Hex} {store : EvidenceStore}
    {scope branch : String} {change : Records → Except String (τ × Records)}
    {disk : Except String Unit} {output : τ} {after : EvidenceStore}
    (hrun : store.withScopedBranchRecordsLocked sha scope branch change disk =
      .ok (output, after)) :
    ∃ legacy records changed,
      store.loadRecords (legacyScopedFile sha scope branch) = .ok legacy ∧
      store.loadScopedRecords sha scope branch = .ok records ∧
      change records = .ok (output, changed) ∧
      after = store.saveRecords (scopedFile sha scope branch) changed := by
  obtain ⟨records, hload, hrest⟩ := Except.bind_eq_ok.mp hrun
  obtain ⟨⟨given, changed⟩, hchange, hrest⟩ := Except.bind_eq_ok.mp hrest
  obtain ⟨_, _, hrest⟩ := Except.bind_eq_ok.mp hrest
  obtain ⟨legacy, hlegacy, _⟩ := Except.bind_eq_ok.mp hload
  cases hrest
  exact ⟨legacy, records, changed, hlegacy, hload, hchange, rfl⟩

/-- The records of the older file. -/
def legacyRecords (store : EvidenceStore) (scope branch : String) : Records :=
  (store.loadRecords (legacyScopedFile sha scope branch)).toOption.getD .empty

/-- After a change to the records of a scope, a read gives exactly what the change made
of them, if and only if the older file holds no record that is newer than the stored one
and none that the change removed. -/
theorem scoped_change_is_read_back_iff {τ : Type} (sha : Sha256Hex) (store : EvidenceStore)
    (scope branch : String) (change : Records → Except String (τ × Records))
    (disk : Except String Unit) {output : τ} {after : EvidenceStore} {records changed : Records}
    (hrun : store.withScopedBranchRecordsLocked sha scope branch change disk =
      .ok (output, after))
    (hload : store.loadScopedRecords sha scope branch = .ok records)
    (hchange : change records = .ok (output, changed)) :
    after.getBranchScoped sha scope branch = changed ↔
      Supersedes changed (legacyRecords sha store scope branch) := by
  obtain ⟨legacy, found, made, hlegacy, hfound, hmade, rfl⟩ :=
    withScopedBranchRecordsLocked_eq_ok hrun
  obtain rfl : found = records := Except.ok.inj (hfound.symm.trans hload)
  obtain rfl : made = changed := congrArg Prod.snd (Except.ok.inj (hmade.symm.trans hchange))
  have hne : legacyScopedFile sha scope branch ≠ scopedFile sha scope branch := fun heq =>
    collisionSafeComponent_ne sha scope (List.cons.inj (List.cons.inj heq).2).1.symm
  have hkept : (store.saveRecords (scopedFile sha scope branch) made).loadRecords
      (legacyScopedFile sha scope branch) = .ok legacy := by
    rw [← hlegacy]
    simp only [loadRecords, saveRecords, Function.update_of_ne hne]
  have hwritten : (store.saveRecords (scopedFile sha scope branch) made).loadRecords
      (scopedFile sha scope branch) = .ok made := by
    simp only [loadRecords, saveRecords, Function.update_self]
  rw [getBranchScoped, legacyRecords, loadScopedRecords, hkept, hwritten, hlegacy]
  exact mergeWhen_eq_iff legacy made

section Samples

/-- A digest of the right length. -/
def sampleSha : Sha256Hex where
  digest _ := String.ofList (List.replicate 64 '0')
  length_digest _ := by rw [String.length_ofList, List.length_replicate]

def sampleRecord (completedAt : Time) : EvidenceRecord :=
  { branch := "main", targetName := "macos", completedAt }

/-- A store whose older file holds one record. -/
def sampleStore : EvidenceStore where
  files path :=
    if path = legacyScopedFile sampleSha "repo:o/r" "main" then
      some (.records (SortedMap.empty.insert "macos" (sampleRecord 5)))
    else none

/-- What a read gives after a change. -/
def readAfter (change : Records → Records) : Option (List (String × EvidenceRecord)) :=
  (sampleStore.withScopedBranchRecordsLocked sampleSha "repo:o/r" "main"
    (fun records => .ok ((), change records)) (.ok ())).toOption.map fun done =>
      (done.2.getBranchScoped sampleSha "repo:o/r" "main").entries

/-- A record that completed later is read back. -/
theorem scoped_change_is_read_back_for_a_newer_record :
    let store : EvidenceStore := { files := fun _ => none }
    let changed : Records := SortedMap.empty.insert "macos" (sampleRecord 7)
    (store.saveRecords (scopedFile sampleSha "repo:o/r" "main") changed).getBranchScoped
      sampleSha "repo:o/r" "main" = changed :=
  (scoped_change_is_read_back_iff sampleSha { files := fun _ => none } "repo:o/r" "main"
    (fun records => .ok ((), records.insert "macos" (sampleRecord 7))) (.ok ()) rfl rfl rfl).mpr
    (fun target old hold => by cases hold)

/-- A removed target comes back, and so does the record that an older one replaced. -/
theorem scoped_change_is_not_read_back :
    readAfter (fun records => records.erase "macos") = some [("macos", sampleRecord 5)] ∧
    readAfter (fun records => records.insert "macos" (sampleRecord 3)) =
      some [("macos", sampleRecord 5)] := by
  constructor
  · decide +kernel
  · decide +kernel

end Samples

end Shipyard.Evidence
