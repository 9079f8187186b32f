import Shipyard.ParallelProof.StoreSafety

/-!
# A published record is immutable

Whatever calls interleave with whatever crashes: once a path holds a record, its bytes stay
as they are, a `put` made afterwards reports the record as present if it is the same one
and as a conflict otherwise, and a `load` made afterwards returns it. A loss of power is no
exception once the record's name was synced, which it was when a `put` has reported it.

A call made afterwards also returns: whenever it is under way, the calls can go on to a
state in which it has returned.
-/

namespace Shipyard.ParallelProof

open Lib StoreDisk Function List Option

namespace ParallelProofStore

variable {ρ : RecordKind → Type} (store : ParallelProofStore ρ)

/-! ## Records and bytes -/

variable {store} in
theorem recordBytes_eq_ok {kind : RecordKind} {key : String} {value : ρ kind}
    {bytes : List UInt8} (hbytes : store.recordBytes kind key value = .ok bytes) :
    isIdentifier key = true ∧ bytes.length ≤ maxRecordBytes ∧
      store.writeEnvelope ⟨parallelProofSchemaVersion, kind, key,
        store.payloadDigest (store.toValue value), store.toValue value⟩ = bytes := by
  simp only [recordBytes, validateIdentifier, Except.bind_eq_ok, exists_unit, require_eq_ok,
    Except.pure_eq_ok] at hbytes
  obtain ⟨hkey, -, hlength, rfl⟩ := hbytes
  exact ⟨hkey, hlength, rfl⟩

variable {store} in
/-- What `put` publishes, `load` reads back. -/
theorem recordOf_recordBytes {kind : RecordKind} {key : String} {value : ρ kind}
    {bytes : List UInt8} (hbytes : store.recordBytes kind key value = .ok bytes) :
    store.recordOf kind key bytes = .ok value := by
  obtain ⟨-, -, rfl⟩ := recordBytes_eq_ok hbytes
  simp only [recordOf, store.readEnvelope_writeEnvelope, store.fromValue_toValue]
  rfl

variable {store} in
/-! ## What a call reports -/

/-- What a `put` has to report when the path holds the published bytes. -/
def report (put : Put ρ) (published : List UInt8) : Except StoreError StoreWriteOutcome :=
  match store.recordBytes put.kind put.logicalKey put.value with
  | .error error => .error (.refused error)
  | .ok bytes =>
    if published = bytes then .ok .alreadyPresent
    else .error (.refused (.immutableConflict put.logicalKey))

/-- A `put` to the path goes the way that ends in its report. -/
def StageReports (put : Put ρ) (bytes published : List UInt8) : PutStage → Prop
  | .createTemporary => False
  | .writeTemporary => False
  | .persist => False
  | .readRaced => False
  | .syncRaced => False
  | .syncCreated => False
  | .syncPresent => published = bytes
  | .unlock result => result = store.report put published ∨ result = .error .io
  | _ => True

/-- A call on the path reports what the published bytes require, or a failed operation. -/
def Reports (path : RecordPath) (published : List UInt8) : Call ρ → Prop
  | .putting put bytes stage =>
    store.path put.kind put.logicalKey = path → store.StageReports put bytes published stage
  | .wrote put result =>
    store.path put.kind put.logicalKey = path →
      result = store.report put published ∨ result = .error .io
  | .loaded load result =>
    isIdentifier load.logicalKey = true → store.path load.kind load.logicalKey = path →
      result = (store.recordOf load.kind load.logicalKey published).mapError .refused ∨
        result = .error .io
  | _ => True

variable {store} {id : CallId} {disk disk' : StoreDisk} {put : Put ρ}
  {bytes published : List UInt8} {path : RecordPath}

theorem report_of_ok (put : Put ρ)
    (hbytes : store.recordBytes put.kind put.logicalKey put.value = .ok bytes) :
    store.report put published =
      if published = bytes then .ok .alreadyPresent
      else .error (.refused (.immutableConflict put.logicalKey)) := by
  rw [report, hbytes]

variable {stage : PutStage} {call : Call ρ} {s s' : StoreState ρ}

/-- A step of a `put` leads to another stage of it or to its return. -/
theorem putStep_put {written : Nat}
    (hstep : store.putStep id put bytes disk written stage = some (disk', call)) :
    (∃ next, call = .putting put bytes next) ∨ ∃ result, call = .wrote put result := by
  unfold putStep compareExisting leave at hstep
  dsimp only at hstep
  repeat' split at hstep
  all_goals cases hstep
  all_goals first | exact .inl ⟨_, rfl⟩ | exact .inr ⟨_, rfl⟩

theorem putFail_reports (hfail : store.putFail id put bytes disk stage = (disk', call)) :
    store.Reports path published call := by
  unfold putFail at hfail
  split at hfail
  · cases hfail
    exact fun _ => .inr rfl
  · split at hfail <;> cases hfail <;> exact fun _ => .inr rfl

section Reporting

variable (hholds : disk.Holds path published) (hlength : published.length ≤ maxRecordBytes)

include hholds hlength

theorem readBounded_of_holds : readBounded (disk.files path) = .ok published := by
  obtain ⟨file, hfile, rfl⟩ := hholds
  simp only [hfile, readBounded, Except.bind_eq_ok, exists_unit, require_eq_ok]
  exact ⟨hlength, rfl⟩

variable (hsound : disk.Sound)

include hsound

theorem putStep_reports {stage : PutStage} {written : Nat} {call : Call ρ}
    (hcall : store.CallHolds id (.putting put bytes stage) disk)
    (hreports : store.Reports path published (.putting put bytes stage))
    (hstep : store.putStep id put bytes disk written stage = some (disk', call)) :
    store.Reports path published call := by
  have hbytes := hcall.established.1
  by_cases hpath : store.path put.kind put.logicalKey = path
  swap
  · rcases putStep_put hstep with ⟨_, rfl⟩ | ⟨_, rfl⟩
    · exact fun h => absurd h hpath
    · exact fun h => absurd h hpath
  have hstage := hreports hpath
  subst hpath
  cases stage with
  | statDirectory =>
    simp only [putStep] at hstep
    split at hstep <;> cases hstep
    · exact fun _ => trivial
    next hforeign => exact absurd hforeign (hsound.directories put.kind)
    · exact fun _ => trivial
  | createDirectory | lockExclusive =>
    simp only [putStep] at hstep
    split at hstep <;> cases hstep <;> exact fun _ => trivial
  | recheckDirectory =>
    obtain ⟨synced, hkind⟩ := hcall.established.2
    have hkind : disk.directories put.kind = .proper synced := hkind
    simp only [putStep, hkind] at hstep
    cases hstep
    exact fun _ => trivial
  | syncRoot =>
    cases hstep
    exact fun _ => trivial
  | statDestination =>
    simp only [putStep] at hstep
    split at hstep <;> cases hstep
    next hforeign => exact absurd hforeign (hsound.files _)
    · exact fun _ => trivial
  | statLock =>
    simp only [putStep] at hstep
    split at hstep <;> cases hstep
    next hforeign => exact absurd hforeign (hsound.lockFiles _)
    · exact fun _ => trivial
  | openLock =>
    simp only [putStep] at hstep
    split at hstep <;> cases hstep
    · exact fun _ => trivial
    · exact fun _ => trivial
    next hforeign => exact absurd hforeign (hsound.lockFiles _)
  | probe =>
    -- the record stands at the path, so the call does not go on to write one
    obtain ⟨file, hfile, -⟩ := hholds
    simp only [putStep, hfile] at hstep
    cases hstep
    exact fun _ => trivial
  | readExisting =>
    simp only [putStep, compareExisting, readBounded_of_holds hholds hlength] at hstep
    split at hstep <;> cases hstep
    next hequal => exact fun _ => hequal
    next hdiffer => exact fun _ => .inl (by rw [report_of_ok put hbytes, if_neg hdiffer])
  | syncPresent =>
    cases hstep
    have hequal : published = bytes := hstage
    exact fun _ => .inl (by rw [report_of_ok put hbytes, if_pos hequal])
  | unlock result =>
    cases hstep
    exact fun _ => hstage
  | _ => exact hstage.elim

theorem loadStep_reports {load : Load} {stage : LoadStage} :
    store.Reports path published (store.loadStep load disk stage) := by
  cases stage with
  | stat =>
    simp only [loadStep]
    split
    next hforeign => exact absurd hforeign (hsound.files _)
    · trivial
  | probe =>
    simp only [loadStep]
    split
    next habsent =>
      rintro - rfl
      obtain ⟨file, hfile, -⟩ := hholds
      rw [habsent] at hfile
      cases hfile
    · trivial
  | read =>
    rintro - rfl
    rw [readBounded_of_holds hholds hlength]
    exact .inl rfl

theorem act_reports {call call' : Call ρ} {action : Action ρ}
    (hcall : store.CallHolds id call disk) (hreports : store.Reports path published call)
    (hact : store.act id call disk action = some (disk', call')) :
    store.Reports path published call' := by
  unfold act at hact
  split at hact
  next put =>
    split at hact <;> cases hact
    next error hbytes => exact fun _ => .inl (by rw [report, hbytes])
    · exact fun _ => trivial
  next load =>
    split at hact <;> cases hact
    next error hinvalid =>
      intro hkey
      rw [validateIdentifier, require, if_pos hkey] at hinvalid
      cases hinvalid
    · trivial
  · exact putStep_reports hholds hlength hsound hcall hreports hact
  · exact putFail_reports (some.inj hact)
  · cases hact
    trivial
  · cases hact
    exact loadStep_reports hholds hlength hsound
  · cases hact
    exact fun _ _ => .inr rfl
  · cases hact
    trivial
  · cases hact

end Reporting

/-! ## Every run after the publication -/

variable (store) in
/-- Power is lost only while the path holds the bytes durably. -/
def PowerLostOnlyIfDurable (path : RecordPath) (published : List UInt8) (s : StoreState ρ) :
    StoreLabel ρ → Prop
  | .strike _ => s.shared.HoldsDurably path published
  | .act _ _ => True

theorem act_losesNoPower (s : StoreState ρ) (action : Action ρ) :
    PowerLostOnlyIfDurable path published s (.act id action) := trivial

variable (store) in
/-- The path holds the published bytes, and the calls made since report accordingly. -/
def publicationAssertions (path : RecordPath) (published : List UInt8) (later : CallId → Prop) :
    Calls.Assertions CallId StoreDisk (Call ρ) where
  shared disk := disk.Sound ∧ disk.Holds path published
  call id call disk := store.CallHolds id call disk ∧ (later id → store.Reports path published call)

theorem publicationOutline {later : CallId → Prop}
    (hlength : ∀ id, later id → published.length ≤ maxRecordBytes) :
    store.calls.Outline (PowerLostOnlyIfDurable path published)
      (store.publicationAssertions path published later) Guarantee where
  act := by
    rintro id call disk action disk' call' ⟨hsound, hholds⟩ ⟨hcall, hreports⟩ hact
    obtain ⟨hcall', hstep⟩ := act_spec hsound hcall hact
    exact ⟨⟨hstep.sound hsound, hstep.grows.holds hholds⟩, ⟨hcall', fun hlater =>
      act_reports hholds (hlength id hlater) hsound hcall (hreports hlater) hact⟩, hstep⟩
  stable := by
    rintro id other call disk disk' hother ⟨hcall, hreports⟩ hstep
    exact ⟨callHolds_stable hother hcall hstep, hreports⟩
  strike := by
    rintro s loss ⟨⟨hsound, -⟩, hcalls⟩ hdurable
    refine ⟨⟨losePower_sound hsound, (losePower_durable hsound hdurable).holds⟩, fun id => ?_⟩
    obtain ⟨hcall, hreports⟩ := hcalls id
    refine ⟨callHolds_losePower hsound hcall, fun hlater => ?_⟩
    have hbefore := hreports hlater
    change store.Reports path published (s.calls id).losePower
    cases hentry : s.calls id with
    | wrote | loaded =>
      rw [hentry] at hbefore
      exact hbefore
    | _ => trivial

/-! ## Calls return -/

/-- An operation of a call succeeds. -/
def Succeeds (_ : StoreState ρ) : StoreLabel ρ → Prop
  | .act _ (.step _) => True
  | _ => False

/-- A bound on the operations that a `put` has left, its waiting for the lock apart. -/
def remaining (id : CallId) (bytes : List UInt8) (disk : StoreDisk) : PutStage → Nat
  | .statDirectory => 18
  | .createDirectory => 17
  | .recheckDirectory => 16
  | .syncRoot => 15
  | .statDestination => 14
  | .statLock => 13
  | .openLock => 12
  | .lockExclusive => 11
  | .probe => 10
  | .createTemporary => 9
  | .writeTemporary =>
    if disk.temporaries id = some ⟨bytes, false⟩ then 7 else 8
  | .persist => 6
  | .readRaced => 5
  | .readExisting => 5
  | .syncRaced => 4
  | .syncPresent => 4
  | .syncCreated => 4
  | .unlock _ => 3

/-- The operation of a `put` leads to a stage with less left. -/
structure Advances (id : CallId) (bytes : List UInt8) (disk : StoreDisk) (stage : PutStage)
    (disk' : StoreDisk) (next : PutStage) : Prop where
  less : remaining id bytes disk' next < remaining id bytes disk stage
  succeeds : next ≠ .unlock (.error .io)
  waits : next.holdsLock = false → stage.holdsLock = false ∧ disk'.owners = disk.owners

/-- Where an operation of a `put` leads: it returns, or goes on with less left. -/
def LeadsOn (id : CallId) (put : Put ρ) (bytes : List UInt8) (disk : StoreDisk) (stage : PutStage)
    (disk' : StoreDisk) (call : Call ρ) : Prop :=
  (∃ result, call = .wrote put result ∧
    (stage ≠ .unlock (.error .io) → result ≠ .error .io)) ∨
  ∃ next, call = .putting put bytes next ∧ Advances id bytes disk stage disk' next

theorem LeadsOn.locked {next : PutStage}
    (hless : remaining id bytes disk' next < remaining id bytes disk stage)
    (hsucceeds : next ≠ .unlock (.error .io)) (hlocked : next.holdsLock = true) :
    LeadsOn id put bytes disk stage disk' (.putting put bytes next) :=
  .inr ⟨next, rfl, hless, hsucceeds, fun hfree => absurd (hlocked.symm.trans hfree) (by simp)⟩

theorem compareExisting_leadsOn {same : PutStage} {existing : List UInt8}
    (hholds : disk.Holds (store.path put.kind put.logicalKey) existing)
    (hcompare : store.compareExisting id put bytes disk same = (disk', call))
    (hless : remaining id bytes disk same < remaining id bytes disk stage)
    (hunlock : 3 < remaining id bytes disk stage) (hsame : same.holdsLock = true)
    (hsucceeds : same ≠ .unlock (.error .io)) : LeadsOn id put bytes disk stage disk' call := by
  obtain ⟨file, hfile, -⟩ := hholds
  simp only [compareExisting, hfile, readBounded, require] at hcompare
  split at hcompare
  next error hread =>
    cases hcompare
    refine .locked hunlock ?_ rfl
    split at hread <;> cases hread
    simp
  · split at hcompare <;> cases hcompare
    · exact .locked hless hsucceeds hsame
    · exact .locked hunlock (by simp) rfl

/-- An operation that is carried out and may write all bytes leads on. -/
theorem putStep_leadsOn (hsound : disk.Sound)
    (hcall : store.CallHolds id (.putting put bytes stage) disk)
    (hstep : store.putStep id put bytes disk bytes.length stage = some (disk', call)) :
    LeadsOn id put bytes disk stage disk' call := by
  have hstage := hcall.established.2
  cases stage with
  | unlock result =>
    cases hstep
    exact .inl ⟨result, rfl, fun h hio => h (congrArg _ hio)⟩
  | statDirectory | createDirectory | syncRoot | statDestination | statLock =>
    simp only [putStep] at hstep
    repeat' split at hstep
    all_goals cases hstep
    all_goals first
      | exact .inr ⟨_, rfl, by simp [remaining], by simp, fun _ => ⟨rfl, rfl⟩⟩
      | exact .inl ⟨_, rfl, fun _ => by simp [notADirectory, notAFile]⟩
  | recheckDirectory =>
    obtain ⟨synced, hkind⟩ := hstage
    have hkind : disk.directories put.kind = .proper synced := hkind
    simp only [putStep, hkind] at hstep
    cases hstep
    exact .inr ⟨_, rfl, by simp [remaining], by simp, fun _ => ⟨rfl, rfl⟩⟩
  | openLock =>
    simp only [putStep] at hstep
    split at hstep <;> cases hstep
    · exact .inr ⟨_, rfl, by simp [remaining], by simp, fun _ => ⟨rfl, rfl⟩⟩
    · exact .inr ⟨_, rfl, by simp [remaining], by simp, fun _ => ⟨rfl, rfl⟩⟩
    next hforeign => exact absurd hforeign (hsound.lockFiles _)
  | lockExclusive | probe | syncPresent | syncRaced | syncCreated =>
    simp only [putStep, leave] at hstep
    repeat' split at hstep
    all_goals cases hstep
    all_goals exact .locked (by simp [remaining]) (by simp) rfl
  | readExisting | readRaced =>
    obtain ⟨existing, hholds⟩ := hstage
    exact compareExisting_leadsOn hholds (some.inj hstep) (by simp [remaining])
      (by simp [remaining]) rfl (by simp)
  | createTemporary =>
    cases hstep
    refine .locked ?_ (by simp) rfl
    simp only [remaining]
    split <;> omega
  | writeTemporary =>
    obtain ⟨hkind, content, htemporary, rest, rfl⟩ := hstage
    simp only [putStep, htemporary, drop_left, leave] at hstep
    split at hstep
    next hdone =>
      subst hdone
      split at hstep <;> cases hstep <;>
        exact .locked (by simp [remaining, htemporary]) (by simp) rfl
    next hdone =>
      -- one write takes all the bytes that are left
      split at hstep <;> cases hstep
      have htake : rest.take (content.length + rest.length) = rest :=
        take_of_length_le (Nat.le_add_left _ _)
      refine .locked ?_ (by simp) rfl
      simp [remaining, htemporary, setTemporary, hdone, htake]
  | persist =>
    obtain ⟨hkind, htemporary⟩ := hstage
    simp only [putStep, htemporary, leave] at hstep
    split at hstep
    next habsent => cases habsent
    · split at hstep <;> cases hstep <;>
        exact .locked (by simp [remaining]) (by simp) rfl
    · cases hstep
      exact .locked (by simp [remaining]) (by simp) rfl

theorem putStep_isSome (hcall : store.CallHolds id (.putting put bytes stage) disk)
    (hfree : stage = .lockExclusive → disk.owners (store.path put.kind put.logicalKey) = none) :
    ∃ disk' call, store.putStep id put bytes disk bytes.length stage = some (disk', call) := by
  have hstage := hcall.established.2
  cases stage with
  | lockExclusive => exact ⟨_, _, by simp only [putStep, hfree rfl]; rfl⟩
  | writeTemporary =>
    obtain ⟨-, content, htemporary, rest, rfl⟩ := hstage
    simp only [putStep, htemporary, drop_left]
    repeat' split
    · exact ⟨_, _, rfl⟩
    · exact ⟨_, _, rfl⟩
    · exact ⟨_, _, rfl⟩
    next hdone hempty => simp [hdone] at hempty
  | _ =>
    simp only [putStep]
    repeat' split
    all_goals exact ⟨_, _, rfl⟩

/-- The state after a successful operation of a call, on the way to another. -/
theorem run_of_act {written : Nat}
    (hact : store.act id (s.calls id) s.shared (.step written) = some (disk', call))
    (hrun : store.machine.RunWhen Succeeds ⟨disk', Function.update s.calls id call⟩ s') :
    store.machine.RunWhen Succeeds s s' :=
  .head ⟨.act id (.step written), trivial, Calls.exec_of_act hact⟩ hrun

/-- A `put` that does not wait for another call's lock returns by its own operations. -/
theorem put_returns_alone {fuel : Nat} (hold : store.assertions.Hold s)
    (hcall : s.calls id = .putting put bytes stage)
    (hfree : stage.holdsLock = false →
      s.shared.owners (store.path put.kind put.logicalKey) = none)
    (hfuel : remaining id bytes s.shared stage ≤ fuel) :
    ∃ s' result, store.machine.RunWhen Succeeds s s' ∧ s'.calls id = .wrote put result ∧
      (stage ≠ .unlock (.error .io) → result ≠ .error .io) ∧
      ∀ other, other ≠ id → s'.calls other = s.calls other := by
  have hholds := hold.call id
  rw [hcall] at hholds
  induction fuel generalizing s stage with
  | zero => cases stage <;> simp [remaining] at hfuel; split at hfuel <;> omega
  | succ fuel ih =>
    obtain ⟨disk', call, hstep⟩ := putStep_isSome hholds fun h => hfree (h ▸ rfl)
    have hact : store.act id (s.calls id) s.shared (.step bytes.length) = some (disk', call) := by
      rw [hcall]
      exact hstep
    rcases putStep_leadsOn hold.shared hholds hstep with
      ⟨result, rfl, hresult⟩ | ⟨next, rfl, hadvances⟩
    · exact ⟨_, result, run_of_act hact .refl, update_self _ _ _, hresult,
        fun other hother => update_of_ne hother _ _⟩
    · have hold' := outline.exec hold trivial (Calls.exec_of_act (C := store.calls) hact)
      have hcall' : Function.update s.calls id (.putting put bytes next) id =
          .putting put bytes next := update_self _ _ _
      have hnext : remaining id bytes disk' next ≤ fuel := by
        have hless := hadvances.less
        omega
      have hholds' : store.CallHolds id (.putting put bytes next) disk' :=
        hcall' ▸ hold'.call id
      have hfree' : next.holdsLock = false →
          disk'.owners (store.path put.kind put.logicalKey) = none := by
        intro hwaits
        obtain ⟨hwaited, howners⟩ := hadvances.waits hwaits
        rw [howners]
        exact hfree hwaited
      obtain ⟨s', result, hrun, hreturned, hresult, hothers⟩ :=
        ih hold' hcall' hfree' hnext hholds'
      refine ⟨s', result, run_of_act hact hrun, hreturned,
        fun _ => hresult hadvances.succeeds, fun other hother => ?_⟩
      rw [hothers other hother]
      exact update_of_ne hother _ _

theorem hold_of_run {ok : StoreState ρ → StoreLabel ρ → Prop} (hrun : store.machine.RunWhen ok s s')
    (hold : store.assertions.Hold s) : store.assertions.Hold s' :=
  hrun.preserves (I := store.assertions.Hold) (fun _ _ _ hold _ => outline.exec hold trivial) hold

/-- A `put` under way can return: if another call holds its lock, that call returns first. -/
theorem put_returns (hold : store.assertions.Hold s) (hcall : s.calls id = .putting put bytes stage)
    (hstage : stage ≠ .unlock (.error .io)) :
    ∃ s' result, store.machine.RunWhen Succeeds s s' ∧ s'.calls id = .wrote put result ∧
      result ≠ .error .io := by
  by_cases hfree : stage.holdsLock = false →
      s.shared.owners (store.path put.kind put.logicalKey) = none
  · obtain ⟨s', result, hrun, hreturned, hresult, -⟩ :=
      put_returns_alone hold hcall hfree le_rfl
    exact ⟨s', result, hrun, hreturned, hresult hstage⟩
  obtain ⟨hwaits, howner⟩ := Classical.not_imp.mp hfree
  obtain ⟨holder, hholder⟩ := ne_none_iff_exists'.mp howner
  -- the call that holds the lock is a `put` in its locked part
  have hlocked := ((hold.call holder).locks _).mp hholder
  cases hother : s.calls holder with
  | putting held heldBytes heldStage =>
    rw [hother, lockedPath] at hlocked
    obtain ⟨hheld, -⟩ := ite_none_right_eq_some.mp hlocked
    obtain ⟨s₁, result₁, hrun₁, hreturned₁, -, hothers₁⟩ :=
      put_returns_alone hold hother (fun h => absurd (hheld.symm.trans h) (by simp)) le_rfl
    have hne : id ≠ holder := by
      rintro rfl
      rw [hcall] at hother
      cases hother
      exact absurd (hheld.symm.trans hwaits) (by simp)
    have hcall₁ : s₁.calls id = .putting put bytes stage := (hothers₁ id hne).trans hcall
    have hold₁ := hold_of_run hrun₁ hold
    -- nobody else can hold the lock that the holder has released
    have hfree₁ : s₁.shared.owners (store.path put.kind put.logicalKey) = none := by
      cases hnow : s₁.shared.owners (store.path put.kind put.logicalKey) with
      | none => rfl
      | some next =>
        have hnext := ((hold₁.call next).locks _).mp hnow
        by_cases hsame : next = holder
        · rw [hsame, hreturned₁] at hnext
          cases hnext
        · rw [hothers₁ next hsame] at hnext
          have hbefore := ((hold.call next).locks _).mpr hnext
          rw [hholder] at hbefore
          exact absurd (some.inj hbefore).symm hsame
    obtain ⟨s', result, hrun, hreturned, hresult, -⟩ :=
      put_returns_alone hold₁ hcall₁ (fun _ => hfree₁) le_rfl
    exact ⟨s', result, hrun₁.trans hrun, hreturned, hresult hstage⟩
  | _ =>
    rw [hother] at hlocked
    cases hlocked

/-- How many operations a `load` has left. -/
def loadRemaining : LoadStage → Nat
  | .stat => 3
  | .probe => 2
  | .read => 1

theorem loadStep_advances {load : Load} {stage : LoadStage} (hsound : disk.Sound)
    (hestablished : store.Established id disk (.loading load stage)) :
    (∃ result, store.loadStep load disk stage = .loaded load result ∧ result ≠ .error .io) ∨
      ∃ next, store.loadStep load disk stage = .loading load next ∧
        loadRemaining next < loadRemaining stage := by
  cases stage with
  | stat =>
    simp only [loadStep]
    split
    next hforeign => exact absurd hforeign (hsound.files _)
    · exact .inr ⟨.probe, rfl, by decide⟩
  | probe =>
    simp only [loadStep]
    split
    · exact .inl ⟨_, rfl, by simp⟩
    · exact .inr ⟨.read, rfl, by decide⟩
  | read =>
    obtain ⟨existing, file, hfile, -⟩ := hestablished
    refine .inl ⟨_, rfl, ?_⟩
    rw [hfile, readBounded, require]
    split
    · intro hio
      change (store.recordOf load.kind load.logicalKey file.bytes).mapError
        StoreError.refused = .error StoreError.io at hio
      cases hrecord : store.recordOf load.kind load.logicalKey file.bytes with
      | error =>
        rw [hrecord] at hio
        cases hio
      | ok =>
        rw [hrecord] at hio
        cases hio
    · simp [bind, Except.bind]

theorem load_returns {load : Load} {stage : LoadStage} {fuel : Nat} (hold : store.assertions.Hold s)
    (hcall : s.calls id = .loading load stage) (hfuel : loadRemaining stage ≤ fuel) :
    ∃ s' result, store.machine.RunWhen Succeeds s s' ∧ s'.calls id = .loaded load result ∧
      result ≠ .error .io := by
  induction fuel generalizing s stage with
  | zero => cases stage <;> simp [loadRemaining] at hfuel
  | succ fuel ih =>
    have hact : store.act id (s.calls id) s.shared (.step 0) =
        some (s.shared, store.loadStep load s.shared stage) := by rw [hcall]; rfl
    rcases loadStep_advances hold.shared (hcall ▸ (hold.call id).established) with
      ⟨result, hreturned, hresult⟩ | ⟨next, hnext, hless⟩
    · rw [hreturned] at hact
      exact ⟨_, result, run_of_act hact .refl, update_self _ _ _, hresult⟩
    · rw [hnext] at hact
      have hold' := outline.exec hold trivial (Calls.exec_of_act (C := store.calls) hact)
      obtain ⟨s', result, hrun, hreturned, hresult⟩ :=
        ih hold' (update_self _ _ _) (show loadRemaining next ≤ fuel by omega)
      exact ⟨s', result, run_of_act hact hrun, hreturned, hresult⟩

/-! ## The store -/

variable (store) in
/-- A `put` that has returned reported the answer, unless a file operation failed; one that
is under way can go on to report it. -/
def PutAnswers (s : StoreState ρ) (id : CallId) (put : Put ρ)
    (answer : Except StoreError StoreWriteOutcome) : Prop :=
  (∀ result, s.calls id = .wrote put result → result = answer ∨ result = .error .io) ∧
    ∀ bytes stage, s.calls id = .putting put bytes stage → stage ≠ .unlock (.error .io) →
      ∃ s', store.machine.RunWhen Succeeds s s' ∧ s'.calls id = .wrote put answer

variable (store) in
/-- The same for a `load`. -/
def LoadAnswers (s : StoreState ρ) (id : CallId) (load : Load)
    (answer : Except StoreError (ρ load.kind)) : Prop :=
  (∀ result, s.calls id = .loaded load result → result = answer ∨ result = .error .io) ∧
    ∀ stage, s.calls id = .loading load stage →
      ∃ s', store.machine.RunWhen Succeeds s s' ∧ s'.calls id = .loaded load answer

/-- Successful operations lose no power. -/
theorem run_of_succeeds (hrun : store.machine.RunWhen Succeeds s s') :
    store.machine.RunWhen (PowerLostOnlyIfDurable path published) s s' := by
  refine Relation.ReflTransGen.mono ?_ s s' hrun
  rintro before after ⟨label, hlabel, hexec⟩
  refine ⟨label, ?_, hexec⟩
  cases label with
  | act => exact act_losesNoPower before _
  | strike => exact hlabel.elim

section Published

variable {s s' : StoreState ρ} (hreach : store.machine.Reachable s)
  (hpublished : s.shared.Holds path published) (hlength : published.length ≤ maxRecordBytes)
  (hrun : store.machine.RunWhen (PowerLostOnlyIfDurable path published) s s')
  (hlater : s.calls id = .unstarted)

include hreach hpublished hlength hrun hlater

theorem reports_later : store.Reports path published (s'.calls id) := by
  have hold := hold_of_reachable hreach
  have hstart : (store.publicationAssertions path published
      fun id => s.calls id = .unstarted).Hold s :=
    ⟨⟨hold.shared, hpublished⟩, fun id => ⟨hold.call id, fun hunstarted => by
      rw [hunstarted]
      trivial⟩⟩
  exact (((publicationOutline fun _ _ => hlength).run hrun hstart).call id).2 hlater

theorem put_answers (put : Put ρ) (hpath : store.path put.kind put.logicalKey = path) :
    store.PutAnswers s' id put (store.report put published) := by
  have hreports : ∀ {s'' result}, store.machine.RunWhen Succeeds s' s'' →
      s''.calls id = .wrote put result →
      result = store.report put published ∨ result = .error .io := by
    intro s'' result hrun' hreturned
    have hreports := reports_later hreach hpublished hlength
      (hrun.trans (run_of_succeeds hrun')) hlater
    rw [hreturned] at hreports
    exact hreports hpath
  refine ⟨fun result => hreports .refl, fun bytes stage hcall hstage => ?_⟩
  have hold := hold_of_run hrun (hold_of_reachable hreach)
  obtain ⟨s'', result, hrun', hreturned, hresult⟩ := put_returns hold hcall hstage
  rw [(hreports hrun' hreturned).resolve_right hresult] at hreturned
  exact ⟨s'', hrun', hreturned⟩

theorem load_answers (load : Load) (hkey : isIdentifier load.logicalKey = true)
    (hpath : store.path load.kind load.logicalKey = path) :
    store.LoadAnswers s' id load
      ((store.recordOf load.kind load.logicalKey published).mapError .refused) := by
  have hreports : ∀ {s'' result}, store.machine.RunWhen Succeeds s' s'' →
      s''.calls id = .loaded load result →
      result = (store.recordOf load.kind load.logicalKey published).mapError .refused ∨
        result = .error .io := by
    intro s'' result hrun' hreturned
    have hreports := reports_later hreach hpublished hlength
      (hrun.trans (run_of_succeeds hrun')) hlater
    rw [hreturned] at hreports
    exact hreports hkey hpath
  refine ⟨fun result => hreports .refl, fun stage hcall => ?_⟩
  have hold := hold_of_run hrun (hold_of_reachable hreach)
  obtain ⟨s'', result, hrun', hreturned, hresult⟩ := load_returns hold hcall le_rfl
  rw [(hreports hrun' hreturned).resolve_right hresult] at hreturned
  exact ⟨s'', hrun', hreturned⟩

end Published

end ParallelProofStore

/-! ## A store of numbers -/

def writeNumbers (numbers : List Nat) : List UInt8 :=
  numbers.flatMap fun n => List.replicate n 1 ++ [0]

/-- Each zero ends a number of ones. -/
def readNumbers : List UInt8 → Nat → List Nat
  | [], _ => []
  | byte :: rest, ones =>
    if byte = 0 then ones :: readNumbers rest 0 else readNumbers rest (ones + 1)

theorem readNumbers_ones (n ones : Nat) (rest : List UInt8) :
    readNumbers (List.replicate n 1 ++ 0 :: rest) ones = (ones + n) :: readNumbers rest 0 := by
  induction n generalizing ones with
  | zero => simp [readNumbers]
  | succ n ih =>
    rw [replicate_succ, cons_append, readNumbers, if_neg (by decide), ih]
    congr 1
    omega

theorem readNumbers_writeNumbers (numbers : List Nat) :
    readNumbers (writeNumbers numbers) 0 = numbers := by
  induction numbers with
  | nil => rfl
  | cons n rest ih =>
    rw [writeNumbers, flatMap_cons, append_assoc, singleton_append,
      readNumbers_ones, Nat.zero_add]
    exact congrArg (n :: ·) ih

def RecordKind.all : List RecordKind :=
  [.manifest, .inventory, .plan, .assignment, .disposition, .receipt]

/-- The numbers of an envelope: its key and its digest stand at the end. -/
def envelopeNumbers (envelope : StoredEnvelope Nat) : List Nat :=
  envelope.schemaVersion :: RecordKind.all.idxOf envelope.kind :: envelope.payload ::
    envelope.logicalKey.toList.length ::
      (envelope.logicalKey.toList.map Char.toNat ++
        envelope.payloadSha256.value.toList.map Char.toNat)

def envelopeOf : List Nat → Except String (StoredEnvelope Nat)
  | version :: kind :: payload :: length :: codes =>
    let digest := String.ofList ((codes.drop length).map Char.ofNat)
    if hdigest : isHexDigest digest = true then
      .ok
        { schemaVersion := version
          kind := RecordKind.all.getD kind .manifest
          logicalKey := String.ofList ((codes.take length).map Char.ofNat)
          payloadSha256 := ⟨digest, hdigest⟩
          payload := payload }
    else .error "not a digest"
  | _ => .error "not an envelope"

theorem envelopeOf_envelopeNumbers (envelope : StoredEnvelope Nat) :
    envelopeOf (envelopeNumbers envelope) = .ok envelope := by
  obtain ⟨version, kind, key, ⟨digest, hdigest⟩, payload⟩ := envelope
  have hcodes : ∀ text : String, (text.toList.map Char.toNat).map Char.ofNat = text.toList := by
    intro text
    simp [comp_def, Char.ofNat_toNat]
  have hkind : RecordKind.all[RecordKind.all.idxOf kind]?.getD .manifest = kind := by
    cases kind <;> decide
  simp [envelopeOf, envelopeNumbers, hcodes, hdigest, hkind]

/-- Records are numbers, and every text has the same digest. -/
def sampleStore : ParallelProofStore fun _ => Nat where
  root := "proofs"
  Value := Nat
  toValue record := record
  fromValue _ value := .ok value
  writeValue value := writeNumbers [value]
  writeEnvelope envelope := writeNumbers (envelopeNumbers envelope)
  readEnvelope bytes := envelopeOf (readNumbers bytes 0)
  sha256 _ := .zero
  fromValue_toValue _ := rfl
  readEnvelope_writeEnvelope envelope := by
    rw [readNumbers_writeNumbers, envelopeOf_envelopeNumbers]

def sampleBytes : List UInt8 :=
  sampleStore.writeEnvelope ⟨parallelProofSchemaVersion, .receipt, "r1", .zero, (7 : Nat)⟩

theorem sampleStore_recordBytes : sampleStore.recordBytes .receipt "r1" 7 = .ok sampleBytes := by
  decide +kernel

/-- A disk on which one receipt is published. -/
def sampleDisk : StoreDisk :=
  { StoreDisk.empty with
    directories := fun kind => if kind = .receipt then .proper true else .absent
    files := fun path =>
      if path = sampleStore.path .receipt "r1" then .proper ⟨sampleBytes, true, true⟩
      else .absent }

theorem sampleDisk_sound : sampleDisk.Sound where
  directories kind := by
    simp only [sampleDisk]
    split <;> nofun
  files path := by
    simp only [sampleDisk]
    split <;> nofun
  lockFiles _ := nofun
  file path file hfile := by
    simp only [sampleDisk] at hfile
    split at hfile
    next hpath =>
      cases hfile
      subst hpath
      exact ⟨rfl, rfl⟩
    · cases hfile

def sampleStart : StoreState fun _ => Nat := ⟨sampleDisk, fun _ => .unstarted⟩

/-- The same receipt is put once more. -/
def samplePut : Put fun _ => Nat := ⟨.receipt, "r1", (7 : Nat), .none⟩

def sampleAgain : StoreState fun _ => Nat :=
  ⟨sampleDisk, Function.update sampleStart.calls 0 (.putting samplePut sampleBytes .statDirectory)⟩

end Shipyard.ParallelProof
