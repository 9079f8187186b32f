import Shipyard.ParallelProof.Store

/-!
# What every call on the store may rely on

The disk only grows while power is on: a published file keeps its bytes, and what was
synced stays synced. Every step of a call guarantees this to the others, and touches no
lock and no temporary file but its own.
-/

namespace Shipyard.ParallelProof

open Lib Function Option

theorem Entry.map_eq_foreign {β γ : Type} {f : β → γ} {entry : Entry β} :
    entry.map f = .foreign ↔ entry = .foreign := by
  cases entry <;> simp [Entry.map]

namespace StoreDisk

/-- The file at the path has these bytes. -/
def Holds (disk : StoreDisk) (path : RecordPath) (bytes : List UInt8) : Prop :=
  ∃ file, disk.files path = .proper file ∧ file.bytes = bytes

/-- The file at the path has these bytes, and its name was synced. -/
def HoldsDurably (disk : StoreDisk) (path : RecordPath) (bytes : List UInt8) : Prop :=
  ∃ file, disk.files path = .proper file ∧ file.bytes = bytes ∧ file.nameSynced = true

theorem HoldsDurably.holds {disk : StoreDisk} {path : RecordPath} {bytes : List UInt8}
    (hdurable : disk.HoldsDurably path bytes) : disk.Holds path bytes := by
  obtain ⟨file, hfile, hbytes, -⟩ := hdurable
  exact ⟨file, hfile, hbytes⟩

/-- Directories and files stay, with their bytes, and what was synced stays synced. -/
structure Grows (disk disk' : StoreDisk) : Prop where
  directory : ∀ kind synced, disk.directories kind = .proper synced →
    ∃ synced', disk'.directories kind = .proper synced' ∧ (synced = true → synced' = true)
  file : ∀ path file, disk.files path = .proper file →
    ∃ file', disk'.files path = .proper file' ∧ file'.bytes = file.bytes ∧
      (file.nameSynced = true → file'.nameSynced = true)

namespace Grows

variable {disk disk' : StoreDisk} {path : RecordPath} {bytes : List UInt8}

theorem of_eq (hdirectories : disk'.directories = disk.directories)
    (hfiles : disk'.files = disk.files) : Grows disk disk' where
  directory kind synced hkind := ⟨synced, by rw [hdirectories, hkind], id⟩
  file path file hfile := ⟨file, by rw [hfiles, hfile], rfl, id⟩

theorem trans {disk'' : StoreDisk} (hfirst : Grows disk disk') (hsecond : Grows disk' disk'') :
    Grows disk disk'' where
  directory kind synced hkind := by
    obtain ⟨synced', hkind', hkept⟩ := hfirst.directory kind synced hkind
    obtain ⟨synced'', hkind'', hkept'⟩ := hsecond.directory kind synced' hkind'
    exact ⟨synced'', hkind'', hkept' ∘ hkept⟩
  file path file hfile := by
    obtain ⟨file', hfile', hbytes, hkept⟩ := hfirst.file path file hfile
    obtain ⟨file'', hfile'', hbytes', hkept'⟩ := hsecond.file path file' hfile'
    exact ⟨file'', hfile'', hbytes'.trans hbytes, hkept' ∘ hkept⟩

theorem syncedDirectory (hgrows : Grows disk disk') {kind : RecordKind}
    (hkind : disk.directories kind = .proper true) : disk'.directories kind = .proper true := by
  obtain ⟨synced, hkind', hkept⟩ := hgrows.directory kind true hkind
  rw [hkind', hkept rfl]

theorem holds (hgrows : Grows disk disk') (hholds : disk.Holds path bytes) :
    disk'.Holds path bytes := by
  obtain ⟨file, hfile, rfl⟩ := hholds
  obtain ⟨file', hfile', hbytes, -⟩ := hgrows.file path file hfile
  exact ⟨file', hfile', hbytes⟩

theorem holdsDurably (hgrows : Grows disk disk') (hholds : disk.HoldsDurably path bytes) :
    disk'.HoldsDurably path bytes := by
  obtain ⟨file, hfile, rfl, hsynced⟩ := hholds
  obtain ⟨file', hfile', hbytes, hkept⟩ := hgrows.file path file hfile
  exact ⟨file', hfile', hbytes, hkept hsynced⟩

end Grows

/-! ## The operations -/

/-- What a call guarantees to the others. -/
structure Guarantee (id : CallId) (disk disk' : StoreDisk) : Prop where
  sound : disk.Sound → disk'.Sound
  grows : Grows disk disk'
  temporaries : ∀ other, other ≠ id → disk'.temporaries other = disk.temporaries other
  owners : ∀ other, other ≠ id → ∀ path,
    (disk'.owners path = some other ↔ disk.owners path = some other)

variable {disk : StoreDisk} {id : CallId} {path : RecordPath}

theorem Guarantee.refl (id : CallId) (disk : StoreDisk) : Guarantee id disk disk where
  sound := fun hsound => hsound
  grows := .of_eq rfl rfl
  temporaries _ _ := rfl
  owners _ _ _ := Iff.rfl

theorem Guarantee.trans {disk' disk'' : StoreDisk} (hfirst : Guarantee id disk disk')
    (hsecond : Guarantee id disk' disk'') : Guarantee id disk disk'' where
  sound := hsecond.sound ∘ hfirst.sound
  grows := hfirst.grows.trans hsecond.grows
  temporaries other hother :=
    (hsecond.temporaries other hother).trans (hfirst.temporaries other hother)
  owners other hother path :=
    (hsecond.owners other hother path).trans (hfirst.owners other hother path)

theorem guarantee_setTemporary (temporary : Option Temporary) :
    Guarantee id disk (disk.setTemporary id temporary) where
  sound hsound := { hsound with }
  grows := .of_eq rfl rfl
  temporaries _ hother := update_of_ne hother _ _
  owners _ _ _ := Iff.rfl

/-- A lock is taken when it is free, and released by the call that holds it. -/
theorem guarantee_setOwner {owner : Option CallId}
    (howner : ∀ other, other ≠ id → owner ≠ some other ∧ disk.owners path ≠ some other) :
    Guarantee id disk (disk.setOwner path owner) where
  sound hsound := { hsound with }
  grows := .of_eq rfl rfl
  temporaries _ _ := rfl
  owners other hother other_path := by
    obtain ⟨hnew, hold⟩ := howner other hother
    simp only [setOwner, update_apply]
    split
    next hpath =>
      subst hpath
      exact ⟨fun h => absurd h hnew, fun h => absurd h hold⟩
    · exact Iff.rfl

theorem guarantee_createLockFile : Guarantee id disk (disk.createLockFile path) where
  sound hsound := by
    refine ⟨hsound.directories, hsound.files, fun other => ?_, hsound.file⟩
    simp only [createLockFile, update_apply]
    split
    · nofun
    · exact hsound.lockFiles other
  grows := .of_eq rfl rfl
  temporaries _ _ := rfl
  owners _ _ _ := Iff.rfl

variable {kind : RecordKind}

theorem syncRoot_directories {synced : Bool} (hkind : disk.directories kind = .proper synced) :
    disk.syncRoot.directories kind = .proper true := by
  simp only [syncRoot, hkind, Entry.map]

theorem guarantee_syncRoot : Guarantee id disk disk.syncRoot where
  sound hsound := by
    refine ⟨fun kind => ?_, hsound.files, hsound.lockFiles, fun path file hfile => ?_⟩
    · rw [syncRoot, Ne, Entry.map_eq_foreign]
      exact hsound.directories kind
    · obtain ⟨hsynced, hkind⟩ := hsound.file path file hfile
      exact ⟨hsynced, syncRoot_directories hkind⟩
  grows :=
    { directory := fun kind synced hkind => ⟨true, syncRoot_directories hkind, fun _ => rfl⟩
      file := fun path file hfile => ⟨file, hfile, rfl, fun h => h⟩ }
  temporaries _ _ := rfl
  owners _ _ _ := Iff.rfl

theorem guarantee_createDirectory (hkind : disk.directories kind = .absent) :
    Guarantee id disk (disk.createDirectory kind) := by
  have hother : ∀ other synced, disk.directories other = .proper synced →
      (disk.createDirectory kind).directories other = .proper synced := by
    intro other synced hproper
    have hne : other ≠ kind := by
      rintro rfl
      rw [hkind] at hproper
      cases hproper
    simp only [createDirectory, update_of_ne hne, hproper]
  refine ⟨fun hsound =>
      ⟨fun other => ?_, hsound.files, hsound.lockFiles, fun path file hfile => ?_⟩,
    ⟨fun other synced hproper => ⟨synced, hother other synced hproper, fun h => h⟩,
      fun path file hfile => ⟨file, hfile, rfl, fun h => h⟩⟩, fun _ _ => rfl, fun _ _ _ => Iff.rfl⟩
  · simp only [createDirectory, update_apply]
    split
    · nofun
    · exact hsound.directories other
  · obtain ⟨hsynced, hdirectory⟩ := hsound.file path file hfile
    exact ⟨hsynced, hother path.kind true hdirectory⟩

theorem syncDirectory_files (kind : RecordKind) {file : StoredFile}
    (hfile : disk.files path = .proper file) :
    ∃ synced, (disk.syncDirectory kind).files path = .proper { file with nameSynced := synced } ∧
      (file.nameSynced = true ∨ path.kind = kind → synced = true) := by
  simp only [syncDirectory, hfile]
  split
  · exact ⟨true, rfl, fun _ => rfl⟩
  next hkind => exact ⟨file.nameSynced, rfl, fun h => h.resolve_right hkind⟩

/-- After the sync, the names of the directory's files are durable. -/
theorem syncDirectory_durable {bytes : List UInt8} (hholds : disk.Holds path bytes) :
    (disk.syncDirectory path.kind).HoldsDurably path bytes := by
  obtain ⟨file, hfile, rfl⟩ := hholds
  obtain ⟨synced, hfile', hsynced⟩ := syncDirectory_files path.kind hfile
  exact ⟨_, hfile', rfl, hsynced (.inr rfl)⟩

theorem guarantee_syncDirectory : Guarantee id disk (disk.syncDirectory kind) where
  sound hsound := by
    refine ⟨hsound.directories, fun path => ?_, hsound.lockFiles, fun path file' hfile' => ?_⟩
    · simp only [syncDirectory]
      split
      · rw [Ne, Entry.map_eq_foreign]
        exact hsound.files path
      · exact hsound.files path
    · cases hentry : disk.files path with
      | absent => simp [syncDirectory, hentry, Entry.map] at hfile'
      | foreign => exact absurd hentry (hsound.files path)
      | proper file =>
        obtain ⟨synced, hsame, -⟩ := syncDirectory_files kind hentry
        obtain ⟨hdata, hdirectory⟩ := hsound.file path file hentry
        cases hfile'.symm.trans hsame
        exact ⟨hdata, hdirectory⟩
  grows :=
    { directory := fun kind synced hkind => ⟨synced, hkind, fun h => h⟩
      file := fun path file hfile => by
        obtain ⟨synced, hfile', hsynced⟩ := syncDirectory_files kind hfile
        exact ⟨_, hfile', rfl, fun h => hsynced (.inl h)⟩ }
  temporaries _ _ := rfl
  owners _ _ _ := Iff.rfl

/-- Publishing replaces nothing. -/
theorem guarantee_publish {temporary : Temporary} (habsent : disk.files path = .absent)
    (hsynced : temporary.synced = true) (hkind : disk.directories path.kind = .proper true) :
    Guarantee id disk (disk.publish path temporary) := by
  have hother : ∀ other file, disk.files other = .proper file →
      (disk.publish path temporary).files other = .proper file := by
    intro other file hfile
    have hne : other ≠ path := by
      rintro rfl
      rw [habsent] at hfile
      cases hfile
    simp only [publish, update_of_ne hne, hfile]
  refine ⟨fun hsound => ⟨hsound.directories, fun other => ?_, hsound.lockFiles,
      fun other file hfile => ?_⟩,
    ⟨fun kind synced hproper => ⟨synced, hproper, fun h => h⟩,
      fun other file hfile => ⟨file, hother other file hfile, rfl, fun h => h⟩⟩,
    fun _ _ => rfl, fun _ _ _ => Iff.rfl⟩
  · simp only [publish, update_apply]
    split
    · nofun
    · exact hsound.files other
  · simp only [publish, update_apply] at hfile
    split at hfile
    next hpath =>
      cases hfile
      exact ⟨hsynced, hpath ▸ hkind⟩
    · exact hsound.file other file hfile

end StoreDisk

/-! ## What holds at each operation of a call -/

open StoreDisk

/-- What a `put` of the bytes has established before its next operation. -/
def StageHolds (id : CallId) (path : RecordPath) (bytes : List UInt8) (disk : StoreDisk) :
    PutStage → Prop
  | .statDirectory => True
  | .createDirectory => True
  | .recheckDirectory => ∃ synced, disk.directories path.kind = .proper synced
  | .syncRoot => ∃ synced, disk.directories path.kind = .proper synced
  | .readExisting => ∃ existing, disk.Holds path existing
  | .syncPresent => disk.Holds path bytes
  | .writeTemporary =>
    disk.directories path.kind = .proper true ∧
      ∃ content, disk.temporaries id = some ⟨content, false⟩ ∧ content <+: bytes
  | .persist =>
    disk.directories path.kind = .proper true ∧ disk.temporaries id = some ⟨bytes, true⟩
  | .readRaced => ∃ existing, disk.Holds path existing
  | .syncRaced => disk.Holds path bytes
  | .syncCreated => disk.Holds path bytes
  | .unlock (.ok _) => disk.HoldsDurably path bytes
  | .unlock (.error _) => True
  | _ => disk.directories path.kind = .proper true

namespace ParallelProofStore

variable {ρ : RecordKind → Type} (store : ParallelProofStore ρ)

/-- The path whose lock a call holds. -/
def lockedPath : Call ρ → Option RecordPath
  | .putting put _ stage =>
    if stage.holdsLock then some (store.path put.kind put.logicalKey) else none
  | _ => none

/-- What a call has established. -/
def Established (id : CallId) (disk : StoreDisk) : Call ρ → Prop
  | .putting put bytes stage =>
    store.recordBytes put.kind put.logicalKey put.value = .ok bytes ∧
      StageHolds id (store.path put.kind put.logicalKey) bytes disk stage
  | .wrote put (.ok _) =>
    ∃ bytes, store.recordBytes put.kind put.logicalKey put.value = .ok bytes ∧
      disk.HoldsDurably (store.path put.kind put.logicalKey) bytes
  | .loading load .read =>
    ∃ existing, disk.Holds (store.path load.kind load.logicalKey) existing
  | _ => True

/-- A call owns the lock it says it holds, and no other, and has established what the
place it has reached requires. -/
structure CallHolds (id : CallId) (call : Call ρ) (disk : StoreDisk) : Prop where
  locks : ∀ path, disk.owners path = some id ↔ store.lockedPath call = some path
  established : store.Established id disk call

def assertions : Calls.Assertions CallId StoreDisk (Call ρ) where
  shared := StoreDisk.Sound
  call := store.CallHolds

variable {store} {id : CallId} {disk disk' : StoreDisk} {put : Put ρ} {bytes : List UInt8}
  {stage : PutStage} {path : RecordPath}

theorem stageHolds_stable (hgrows : Grows disk disk')
    (htemporary : disk'.temporaries id = disk.temporaries id)
    (hstage : StageHolds id path bytes disk stage) : StageHolds id path bytes disk' stage := by
  have hproper : (∃ synced, disk.directories path.kind = .proper synced) →
      ∃ synced, disk'.directories path.kind = .proper synced := by
    rintro ⟨synced, hkind⟩
    obtain ⟨synced', hkind', -⟩ := hgrows.directory _ _ hkind
    exact ⟨synced', hkind'⟩
  have hexisting : (∃ existing, disk.Holds path existing) → ∃ existing, disk'.Holds path existing :=
    fun ⟨existing, hholds⟩ => ⟨existing, hgrows.holds hholds⟩
  cases stage with
  | statDirectory => trivial
  | createDirectory => trivial
  | recheckDirectory => exact hproper hstage
  | syncRoot => exact hproper hstage
  | readExisting => exact hexisting hstage
  | readRaced => exact hexisting hstage
  | syncPresent => exact hgrows.holds hstage
  | syncRaced => exact hgrows.holds hstage
  | syncCreated => exact hgrows.holds hstage
  | writeTemporary =>
    obtain ⟨hkind, hcontent⟩ := hstage
    exact ⟨hgrows.syncedDirectory hkind, htemporary.symm ▸ hcontent⟩
  | persist => exact ⟨hgrows.syncedDirectory hstage.1, htemporary.trans hstage.2⟩
  | unlock result =>
    cases result with
    | ok => exact hgrows.holdsDurably hstage
    | error => trivial
  | _ => exact hgrows.syncedDirectory hstage

variable {call : Call ρ}

theorem established_stable (hgrows : Grows disk disk')
    (htemporary : disk'.temporaries id = disk.temporaries id)
    (hcall : store.Established id disk call) : store.Established id disk' call := by
  cases call with
  | putting put bytes stage => exact ⟨hcall.1, stageHolds_stable hgrows htemporary hcall.2⟩
  | wrote put result =>
    cases result with
    | ok =>
      obtain ⟨bytes, hbytes, hdurable⟩ := hcall
      exact ⟨bytes, hbytes, hgrows.holdsDurably hdurable⟩
    | error => trivial
  | loading load stage =>
    cases stage with
    | read =>
      obtain ⟨existing, hholds⟩ := hcall
      exact ⟨existing, hgrows.holds hholds⟩
    | _ => trivial
  | _ => trivial

theorem callHolds_stable {other : CallId} (hother : id ≠ other)
    (hcall : store.CallHolds id call disk) (hstep : Guarantee other disk disk') :
    store.CallHolds id call disk' where
  locks path := (hstep.owners id hother path).trans (hcall.locks path)
  established := established_stable hstep.grows (hstep.temporaries id hother) hcall.established

/-! ## One action -/

theorem holds_of_readBounded {existing : List UInt8}
    (hread : readBounded (disk.files path) = .ok existing) : disk.Holds path existing := by
  cases hentry : disk.files path with
  | absent => simp [hentry, readBounded] at hread
  | foreign => simp [hentry, readBounded] at hread
  | proper file =>
    simp only [hentry, readBounded, Except.bind_eq_ok, exists_unit, require_eq_ok,
      Except.pure_eq_ok] at hread
    exact ⟨file, hentry, hread.2⟩

/-- What stands at a record's path is a file. -/
theorem holds_of_present (hsound : disk.Sound) (hpresent : disk.files path ≠ .absent) :
    ∃ existing, disk.Holds path existing := by
  cases hentry : disk.files path with
  | absent => exact absurd hentry hpresent
  | proper file => exact ⟨file.bytes, file, hentry, rfl⟩
  | foreign => exact absurd hentry (hsound.files path)

section Putting

variable (hcall : store.CallHolds id (.putting put bytes stage) disk)

include hcall

/-- A call goes on to an operation under the same lock. -/
theorem CallHolds.move {stage' : PutStage} (howners : disk'.owners = disk.owners)
    (hlock : stage'.holdsLock = stage.holdsLock)
    (hstage : StageHolds id (store.path put.kind put.logicalKey) bytes disk' stage') :
    store.CallHolds id (.putting put bytes stage') disk' where
  locks path := by
    rw [howners, hcall.locks path, lockedPath, lockedPath, hlock]
  established := ⟨hcall.established.1, hstage⟩

theorem CallHolds.goto {stage' : PutStage} (hlock : stage'.holdsLock = stage.holdsLock)
    (hstage : StageHolds id (store.path put.kind put.logicalKey) bytes disk stage') :
    store.CallHolds id (.putting put bytes stage') disk ∧ Guarantee id disk disk :=
  ⟨hcall.move rfl hlock hstage, .refl id disk⟩

/-- A call returns an error before it takes the lock. -/
theorem CallHolds.refuse {error : StoreError} (hlock : stage.holdsLock = false) :
    store.CallHolds id (.wrote put (.error error)) disk ∧ Guarantee id disk disk := by
  refine ⟨⟨fun path => ?_, trivial⟩, .refl id disk⟩
  simpa only [lockedPath, hlock, Bool.false_eq_true, if_false] using hcall.locks path

/-- A call that holds the lock leaves the locked part with an error. -/
theorem CallHolds.leave {error : StoreError}
    (howners : disk'.owners = disk.owners) (hlock : stage.holdsLock = true)
    (hstep : Guarantee id disk disk') :
    store.CallHolds id (ParallelProofStore.leave id put bytes disk' (.error error)).2
        (ParallelProofStore.leave id put bytes disk' (.error error)).1 ∧
      Guarantee id disk (ParallelProofStore.leave id put bytes disk' (.error error)).1 :=
  ⟨hcall.move howners hlock.symm trivial, hstep.trans (guarantee_setTemporary none)⟩

/-- A call that found or published its record syncs the directory and leaves. -/
theorem CallHolds.leaveSynced {outcome : StoreWriteOutcome} (hlock : stage.holdsLock = true)
    (hholds : disk.Holds (store.path put.kind put.logicalKey) bytes) :
    store.CallHolds id (.putting put bytes (.unlock (.ok outcome)))
        ((disk.syncDirectory put.kind).setTemporary id none) ∧
      Guarantee id disk ((disk.syncDirectory put.kind).setTemporary id none) :=
  ⟨hcall.move rfl hlock.symm (syncDirectory_durable hholds),
    guarantee_syncDirectory.trans (guarantee_setTemporary none)⟩

theorem compareExisting_spec {same : PutStage}
    (hcompare : store.compareExisting id put bytes disk same = (disk', call))
    (hlock : stage.holdsLock = true) (hsameLock : same.holdsLock = true)
    (hsame : disk.Holds (store.path put.kind put.logicalKey) bytes → StageHolds id (store.path
      put.kind put.logicalKey) bytes disk same) :
    store.CallHolds id call disk' ∧ Guarantee id disk disk' := by
  unfold compareExisting at hcompare
  split at hcompare
  · cases hcompare
    exact hcall.leave rfl hlock (.refl id disk)
  next existing hread =>
    split at hcompare <;> cases hcompare
    next hequal =>
      subst hequal
      exact hcall.goto (hsameLock.trans hlock.symm) (hsame (holds_of_readBounded hread))
    · exact hcall.leave rfl hlock (.refl id disk)

/-- A call that holds the lock gives it up. -/
theorem CallHolds.release (hlock : stage.holdsLock = true)
    (hfree : store.lockedPath call = none)
    (hestablished : store.Established id (disk.setOwner (store.path put.kind put.logicalKey) none)
      call) :
    store.CallHolds id call (disk.setOwner (store.path put.kind put.logicalKey) none) ∧
      Guarantee id disk (disk.setOwner (store.path put.kind put.logicalKey) none) := by
  have hlocks := hcall.locks
  simp only [lockedPath, hlock, if_true, some.injEq] at hlocks
  refine ⟨⟨fun path => ?_, hestablished⟩, guarantee_setOwner fun other hother => ⟨nofun, ?_⟩⟩
  · simp only [hfree, setOwner, update_apply]
    split
    · simp
    next hpath => exact iff_of_false (fun h => hpath ((hlocks path).mp h).symm) nofun
  · rw [(hlocks _).mpr rfl]
    exact fun h => hother (some.inj h).symm

theorem putStep_spec {written : Nat} (hsound : disk.Sound)
    (hstep : store.putStep id put bytes disk written stage = some (disk', call)) :
    store.CallHolds id call disk' ∧ Guarantee id disk disk' := by
  have hstage := hcall.established.2
  cases stage with
  | statDirectory =>
    simp only [putStep] at hstep
    split at hstep <;> cases hstep
    next synced hkind => exact hcall.goto rfl ⟨synced, hkind⟩
    · exact hcall.refuse rfl
    · exact hcall.goto rfl trivial
  | createDirectory =>
    simp only [putStep] at hstep
    split at hstep <;> cases hstep
    next hkind =>
      exact ⟨hcall.move rfl rfl ⟨false, update_self _ _ _⟩,
        guarantee_createDirectory hkind⟩
    next hkind =>
      cases hentry : disk.directories put.kind with
      | absent => exact absurd hentry hkind
      | proper synced => exact hcall.goto rfl ⟨synced, hentry⟩
      | foreign => exact absurd hentry (hsound.directories put.kind)
  | recheckDirectory =>
    simp only [putStep] at hstep
    split at hstep <;> cases hstep
    next synced hkind => exact hcall.goto rfl ⟨synced, hkind⟩
    · exact hcall.refuse rfl
    · exact hcall.refuse rfl
  | syncRoot =>
    cases hstep
    obtain ⟨synced, hkind⟩ := hstage
    exact ⟨hcall.move rfl rfl (syncRoot_directories hkind), guarantee_syncRoot⟩
  | statDestination =>
    simp only [putStep] at hstep
    split at hstep <;> cases hstep
    · exact hcall.refuse rfl
    · exact hcall.goto rfl hstage
  | statLock =>
    simp only [putStep] at hstep
    split at hstep <;> cases hstep
    · exact hcall.refuse rfl
    · exact hcall.goto rfl hstage
  | openLock =>
    simp only [putStep] at hstep
    split at hstep <;> cases hstep
    · exact ⟨hcall.move rfl rfl hstage, guarantee_createLockFile⟩
    · exact hcall.goto rfl hstage
    · exact hcall.refuse rfl
  | lockExclusive =>
    simp only [putStep] at hstep
    split at hstep <;> cases hstep
    next hfree =>
      have hlocks := hcall.locks
      simp only [lockedPath, PutStage.holdsLock, Bool.false_eq_true, if_false] at hlocks
      refine ⟨⟨fun path => ?_, hcall.established.1, hstage⟩,
        guarantee_setOwner fun other hother => ⟨?_, ?_⟩⟩
      · simp only [lockedPath, PutStage.holdsLock, if_true, setOwner, update_apply]
        split
        next hpath => simp [hpath]
        next hpath =>
          refine iff_of_false (fun h => by simpa using (hlocks path).mp h) fun h => ?_
          exact hpath (some.inj h).symm
      · exact fun h => hother (some.inj h).symm
      · simp [hfree]
  | probe =>
    simp only [putStep] at hstep
    split at hstep <;> cases hstep
    · exact hcall.goto rfl hstage
    next hpresent => exact hcall.goto rfl (holds_of_present hsound hpresent)
  | readExisting | readRaced =>
    exact compareExisting_spec hcall (some.inj hstep) rfl rfl fun hsame => hsame
  | syncPresent | syncRaced | syncCreated =>
    cases hstep
    exact hcall.leaveSynced rfl hstage
  | createTemporary =>
    cases hstep
    exact ⟨hcall.move rfl rfl ⟨hstage, [], update_self _ _ _, List.nil_prefix⟩,
      guarantee_setTemporary _⟩
  | writeTemporary =>
    obtain ⟨hkind, content, htemporary, rest, rfl⟩ := hstage
    simp only [putStep, htemporary, List.drop_left] at hstep
    split at hstep
    next hdone =>
      subst hdone
      split at hstep <;> cases hstep
      · exact hcall.leave rfl rfl (.refl id disk)
      · refine ⟨hcall.move rfl rfl ⟨hkind, ?_⟩, guarantee_setTemporary _⟩
        simp [setTemporary]
    · split at hstep <;> cases hstep
      refine ⟨hcall.move rfl rfl ⟨hkind, _, update_self _ _ _, ?_⟩,
        guarantee_setTemporary _⟩
      exact (List.prefix_append_right_inj content).mpr (List.take_prefix written rest)
  | persist =>
    obtain ⟨hkind, htemporary⟩ := hstage
    simp only [putStep, htemporary] at hstep
    split at hstep
    next habsent => cases habsent
    next temporary hsame hentry =>
      cases hsame
      have hpublish : Guarantee id disk (disk.publish _ ⟨bytes, true⟩) :=
        guarantee_publish hentry rfl hkind
      split at hstep <;> cases hstep
      · exact hcall.leave rfl rfl hpublish
      · exact ⟨hcall.move rfl rfl ⟨_, update_self _ _ _, rfl⟩,
          hpublish.trans (guarantee_setTemporary none)⟩
    next hpresent =>
      cases hstep
      exact hcall.goto rfl (holds_of_present hsound (by simpa using hpresent))
  | unlock result =>
    cases hstep
    refine hcall.release rfl rfl ?_
    cases result with
    | ok => exact ⟨bytes, hcall.established.1, hstage⟩
    | error => trivial

theorem putFail_spec (hfail : store.putFail id put bytes disk stage = (disk', call)) :
    store.CallHolds id call disk' ∧ Guarantee id disk disk' := by
  unfold putFail at hfail
  split at hfail
  · cases hfail
    exact hcall.release rfl rfl trivial
  · split at hfail <;> cases hfail
    next hlock => exact hcall.leave rfl hlock (.refl id disk)
    next hlock => exact hcall.refuse (Bool.eq_false_iff.mpr hlock)

theorem putCrash_spec :
    store.CallHolds id .stopped (store.putCrash put disk stage) ∧
      Guarantee id disk (store.putCrash put disk stage) := by
  unfold putCrash
  split
  next hlock => exact hcall.release hlock rfl trivial
  next hlock =>
    refine ⟨⟨fun path => ?_, trivial⟩, .refl id disk⟩
    simpa only [lockedPath, if_neg hlock] using hcall.locks path

end Putting

/-- A call that holds no lock goes on to a place where it holds none. -/
theorem CallHolds.replace {call call' : Call ρ} (hcall : store.CallHolds id call disk)
    (hfree : store.lockedPath call = none) (hfree' : store.lockedPath call' = none)
    (hestablished : store.Established id disk call') :
    store.CallHolds id call' disk ∧ Guarantee id disk disk :=
  ⟨⟨fun path => by rw [hcall.locks path, hfree, hfree'], hestablished⟩, .refl id disk⟩

theorem loadStep_established {load : Load} {stage : LoadStage} (hsound : disk.Sound) :
    store.Established id disk (store.loadStep load disk stage) := by
  cases stage with
  | stat =>
    simp only [loadStep]
    split <;> trivial
  | probe =>
    simp only [loadStep]
    split
    · trivial
    next hpresent => exact holds_of_present hsound hpresent
  | read =>
    simp only [loadStep]
    trivial

theorem loadStep_unlocked (load : Load) (stage : LoadStage) (disk : StoreDisk) :
    store.lockedPath (store.loadStep load disk stage) = none := by
  cases stage <;> simp only [loadStep]
  · split <;> rfl
  · split <;> rfl
  · rfl

theorem act_spec {call call' : Call ρ} {action : Action ρ} (hsound : disk.Sound)
    (hcall : store.CallHolds id call disk)
    (hact : store.act id call disk action = some (disk', call')) :
    store.CallHolds id call' disk' ∧ Guarantee id disk disk' := by
  unfold act at hact
  split at hact
  next put =>
    split at hact <;> cases hact
    · exact hcall.replace rfl rfl trivial
    next bytes hbytes => exact hcall.replace rfl rfl ⟨hbytes, trivial⟩
  next load => split at hact <;> cases hact <;> exact hcall.replace rfl rfl trivial
  · exact putStep_spec hcall hsound hact
  · exact putFail_spec hcall (some.inj hact)
  · cases hact
    exact putCrash_spec hcall
  next load stage written =>
    cases hact
    exact hcall.replace rfl (loadStep_unlocked load stage disk) (loadStep_established hsound)
  · cases hact
    exact hcall.replace rfl rfl trivial
  · cases hact
    exact hcall.replace rfl rfl trivial
  · cases hact

/-! ## Loss of power -/

variable {loss : PowerLoss}

theorem losePower_sound (hsound : disk.Sound) : (disk.losePower loss).Sound := by
  refine ⟨fun kind => ?_, fun path => ?_, fun path => ?_, fun path file hfile => ?_⟩
  · have hkind := hsound.directories kind
    simp only [losePower]
    split
    · split <;> nofun
    next hentry => exact hkind
  · have hpath := hsound.files path
    simp only [losePower]
    split
    · nofun
    · split <;> nofun
    · exact hpath
  · have hpath := hsound.lockFiles path
    simp only [losePower]
    split
    · split <;> nofun
    · exact hpath
  · cases hentry : disk.files path with
    | absent =>
      simp only [losePower, hentry] at hfile
      split at hfile <;> simp_all
    | foreign => exact absurd hentry (hsound.files path)
    | proper old =>
      have hkind := (hsound.file path old hentry).2
      refine ⟨?_, by simp [losePower, hkind]⟩
      simp only [losePower, hentry, hkind, Bool.true_or, if_true] at hfile
      split at hfile
      · cases hfile; rfl
      · cases hfile

/-- A durable file survives a loss of power. -/
theorem losePower_durable (hsound : disk.Sound) (hdurable : disk.HoldsDurably path bytes) :
    (disk.losePower loss).HoldsDurably path bytes := by
  obtain ⟨file, hfile, rfl, hsynced⟩ := hdurable
  obtain ⟨hdata, hkind⟩ := hsound.file path file hfile
  refine ⟨⟨file.bytes, true, true⟩, ?_, rfl, rfl⟩
  simp [losePower, hfile, hkind, hsynced, hdata]

theorem callHolds_losePower (hsound : disk.Sound) (hcall : store.CallHolds id call disk) :
    store.CallHolds id call.losePower (disk.losePower loss) := by
  cases call with
  | wrote put result =>
    refine ⟨fun path => by simp [losePower, lockedPath, Call.losePower], ?_⟩
    cases result with
    | ok =>
      obtain ⟨bytes, hbytes, hdurable⟩ := hcall.established
      exact ⟨bytes, hbytes, losePower_durable hsound hdurable⟩
    | error => trivial
  | _ => exact ⟨fun path => by simp [losePower, lockedPath, Call.losePower], trivial⟩

/-! ## Every run -/

theorem outline : store.calls.Outline (fun _ _ => True) store.assertions Guarantee where
  act hsound hcall hact := by
    obtain ⟨hcall', hstep⟩ := act_spec hsound hcall hact
    exact ⟨hstep.sound hsound, hcall', hstep⟩
  stable := callHolds_stable
  strike hold _ := ⟨losePower_sound hold.shared,
    fun id => callHolds_losePower hold.shared (hold.call id)⟩

theorem hold_of_reachable {s : StoreState ρ} (hreach : store.machine.Reachable s) :
    store.assertions.Hold s := by
  refine outline.reachable (fun s₀ hinit => ?_) hreach
  obtain ⟨hsound, howners, hunstarted⟩ := hinit
  refine ⟨hsound, fun id => ⟨fun path => ?_, ?_⟩⟩
  · rw [howners, hunstarted]
    exact ⟨nofun, nofun⟩
  · rw [hunstarted]
    trivial

end ParallelProofStore

end Shipyard.ParallelProof
