import Shipyard.Ship.WorkItem

/-!
# Fencing of work items over whole runs

Any number of agents call in any order, with clock readings that do not go back.
The versions that successful writes expected and the epochs of the claims count
up from one, which is what excludes an agent whose claim was superseded.
-/

namespace Shipyard.Ship

open Lib List Option

section Runs

variable {key : WorkItemKey} {s s' : WorkState} {call : WorkCall}

theorem exec_cases (hexec : s.exec key call = some s') :
    (∃ error, (call.perform key s.stored).2 = .error error) ∧
        s' = { s with clock := call.now } ∨
      ∃ item, (call.perform key s.stored).2 = .ok item ∧ Performed s.stored call item ∧
        s' = s.record (some item) call item := by
  unfold WorkState.exec at hexec
  split at hexec
  · cases hexec
  · rcases perform_outcome key s.stored call with
      ⟨⟨error, herror⟩, hstored⟩ | ⟨item, hok, hstored, hperformed⟩
    · left
      refine ⟨⟨error, herror⟩, ?_⟩
      rw [show call.perform key s.stored = (s.stored, .error error) from
        Prod.ext hstored herror] at hexec
      exact (some.inj hexec).symm
    · right
      refine ⟨item, hok, hperformed, ?_⟩
      rw [show call.perform key s.stored = (some item, .ok item) from
        Prod.ext hstored hok] at hexec
      exact (some.inj hexec).symm

/-- The file is determined by the successful calls: versions and owner epochs
count the writes and the claims. -/
structure Fenced (s : WorkState) : Prop where
  unregistered : s.stored = none → s.successes = []
  registered : ∀ item, s.stored = some item →
    s.expectedVersions.length < s.successes.length ∧
      item.stateVersion = s.expectedVersions.length + 1 ∧ item.generation = 1 ∧
      item.owner = s.claimedOwners.getLast?
  versions : s.expectedVersions = List.range' 1 s.expectedVersions.length
  epochs : s.claimedOwners.map WorkItemOwner.epoch = List.range' 1 s.claimedOwners.length

variable {item : WorkItem}

/-- The epoch of the next claim. -/
theorem Fenced.next_epoch (hfenced : Fenced s) (hcount : s.claimedOwners.length < u64Max)
    (hstored : s.stored = some item) : item.nextEpoch = s.claimedOwners.length + 1 := by
  unfold WorkItem.nextEpoch
  obtain ⟨_, _, hgeneration, howner⟩ := hfenced.registered item hstored
  have hlast := congrArg List.getLast? hfenced.epochs
  rw [getLast?_map, ← howner, getLast?_range'] at hlast
  cases hitem : item.owner with
  | none =>
    rw [hitem] at hlast
    split at hlast
    next hzero => rw [hgeneration, hzero]
    · cases hlast
  | some current =>
    rw [hitem] at hlast
    split at hlast
    · cases hlast
    next hpos =>
      have hepoch : current.epoch = 1 + s.claimedOwners.length - 1 := by simpa using hlast
      simp only [saturatingSucc, hepoch]
      omega

section Record

variable (s : WorkState) (stored : Option WorkItem) (call : WorkCall) (item : WorkItem)

theorem expectedVersions_record :
    (s.record stored call item).expectedVersions = s.expectedVersions ++ call.expected?.toList := by
  rw [WorkState.expectedVersions, WorkState.record, filterMap_append]
  cases hexpected : call.expected? <;> simp [hexpected, WorkState.expectedVersions]

theorem claimedOwners_record :
    (s.record stored call item).claimedOwners =
      s.claimedOwners ++ (if call.isClaim then item.owner else none).toList := by
  rw [WorkState.claimedOwners, WorkState.record, filterMap_append]
  cases hclaim : call.isClaim <;> cases howner : item.owner <;>
    simp [hclaim, howner, WorkState.claimedOwners]

theorem length_successes_record :
    (s.record stored call item).successes.length = s.successes.length + 1 := by
  simp [WorkState.record]

theorem length_claimedOwners_le : s.claimedOwners.length ≤ s.successes.length :=
  length_filterMap_le _ _

end Record

/-- A registration writes the first version or changes nothing. -/
theorem Fenced.register (hfenced : Fenced s) (hexpected : call.expected? = none)
    (hclaim : call.isClaim = false)
    (hperformed : s.stored = some item ∨ s.stored = none ∧ item.owner = none ∧ item.stateVersion =
      1 ∧ item.generation = 1) : Fenced (s.record (some item) call item) := by
  have hversions : (s.record (some item) call item).expectedVersions = s.expectedVersions := by
    simp [expectedVersions_record, hexpected]
  have howners : (s.record (some item) call item).claimedOwners = s.claimedOwners := by
    simp [claimedOwners_record, hclaim]
  constructor
  case unregistered => exact fun hnone => by cases hnone
  case registered =>
    intro stored hstored
    obtain rfl := some.inj hstored
    rw [hversions, howners]
    rcases hperformed with hsame | ⟨hnone, howner, hversion, hgeneration⟩
    · obtain ⟨hlt, hrest⟩ := hfenced.registered item hsame
      rw [length_successes_record]
      exact ⟨Nat.lt_succ_of_lt hlt, hrest⟩
    · have hempty := hfenced.unregistered hnone
      simp [WorkState.record, WorkState.expectedVersions, WorkState.claimedOwners, hempty, howner,
        hversion, hgeneration]
  case versions => exact hversions ▸ hfenced.versions
  case epochs => exact howners ▸ hfenced.epochs

variable {expected : Nat}

variable {before : WorkItem}

/-- A write at the stored version advances it. -/
theorem Fenced.versions_record (hfenced : Fenced s) {item : WorkItem}
    (hstored : s.stored = some before) (hexpected : call.expected? = some expected)
    (hversion : before.stateVersion = expected) :
    (s.record (some item) call item).expectedVersions =
      List.range' 1 (s.record (some item) call item).expectedVersions.length := by
  obtain ⟨_, hstate, _⟩ := hfenced.registered before hstored
  rw [expectedVersions_record, hexpected, ← hversion, hstate]
  simp only [toList_some, length_append, length_singleton, range'_1_concat]
  rw [← hfenced.versions, Nat.add_comm 1]

/-- A write keeps the invariant when the owner it leaves is the latest claimed one. -/
theorem Fenced.write (hfenced : Fenced s) {item : WorkItem} (hstored : s.stored = some before)
    (hexpected : call.expected? = some expected) (hversion : before.stateVersion = expected)
    (hcount : s.successes.length < u64Max)
    (hitem : item.stateVersion = saturatingSucc before.stateVersion)
    (hgeneration : item.generation = before.generation)
    (howner : item.owner = (s.record (some item) call item).claimedOwners.getLast?)
    (hepochs : (s.record (some item) call item).claimedOwners.map WorkItemOwner.epoch = List.range'
      1 (s.record (some item) call item).claimedOwners.length) :
    Fenced (s.record (some item) call item) := by
  obtain ⟨hlt, hstate, hone, _⟩ := hfenced.registered before hstored
  constructor
  case unregistered => exact fun hnone => by cases hnone
  case registered =>
    intro stored hsame
    obtain rfl := some.inj hsame
    have hlength : (s.record (some item) call item).expectedVersions.length =
        s.expectedVersions.length + 1 := by
      simp [expectedVersions_record, hexpected]
    refine ⟨?_, ?_, by rw [hgeneration, hone], howner⟩
    · rw [hlength, length_successes_record]
      exact Nat.succ_lt_succ hlt
    · have hsmall : s.expectedVersions.length + 1 + 1 ≤ u64Max := by omega
      rw [hitem, hlength, hstate, saturatingSucc, min_eq_left hsmall]
  case versions => exact hfenced.versions_record hstored hexpected hversion
  case epochs => exact hepochs

theorem Fenced.claim (hfenced : Fenced s) {owner : WorkItemOwner} {now : Time}
    (hstored : s.stored = some before) (hversion : before.stateVersion = expected)
    (hcount : s.successes.length < u64Max) :
    Fenced (s.record (some (before.claimedBy owner now)) (.claim owner expected now)
      (before.claimedBy owner now)) := by
  have hepoch := hfenced.next_epoch ((length_claimedOwners_le s).trans_lt hcount) hstored
  refine hfenced.write hstored rfl hversion hcount rfl rfl ?_ ?_
  · simp [claimedOwners_record, WorkCall.isClaim, WorkItem.claimedBy]
  · rw [claimedOwners_record]
    simp only [WorkCall.isClaim, if_true, WorkItem.claimedBy, toList_some, map_append,
      map_singleton, length_append, length_singleton, range'_1_concat]
    rw [hfenced.epochs, hepoch, Nat.add_comm 1]

theorem Fenced.checkpoint (hfenced : Fenced s) {epoch : Nat} {saved : WorkItemCheckpoint}
    {now : Time} (hstored : s.stored = some before) (hversion : before.stateVersion = expected)
    (hcount : s.successes.length < u64Max) :
    Fenced (s.record (some (before.checkpointedWith saved now))
      (.checkpoint epoch saved expected now) (before.checkpointedWith saved now)) := by
  have howners : (s.record (some (before.checkpointedWith saved now))
      (.checkpoint epoch saved expected now) (before.checkpointedWith saved now)).claimedOwners =
      s.claimedOwners := by
    simp [claimedOwners_record, WorkCall.isClaim]
  refine hfenced.write hstored rfl hversion hcount rfl rfl ?_ ?_
  · rw [howners]
    exact (hfenced.registered before hstored).2.2.2
  · rw [howners]
    exact hfenced.epochs

theorem Fenced.step (hfenced : Fenced s) (hexec : s.exec key call = some s')
    (hcount : s'.successes.length < 2 ^ 64) : Fenced s' := by
  rcases exec_cases hexec with ⟨_, rfl⟩ | ⟨item, _, hperformed, rfl⟩
  · exact ⟨hfenced.unregistered, hfenced.registered, hfenced.versions, hfenced.epochs⟩
  · rw [length_successes_record] at hcount
    have hbefore : s.successes.length < u64Max := Nat.lt_sub_of_add_lt hcount
    cases call with
    | register => exact hfenced.register rfl rfl hperformed
    | claim owner expected now =>
      obtain ⟨before, hstored, hfrom, rfl⟩ := hperformed
      exact hfenced.claim hstored hfrom.version hbefore
    | checkpoint epoch saved expected now =>
      obtain ⟨before, hstored, hfrom, rfl⟩ := hperformed
      exact hfenced.checkpoint hstored hfrom.version hbefore

theorem successes_length_le (hexec : s.exec key call = some s') :
    s.successes.length ≤ s'.successes.length := by
  rcases exec_cases hexec with ⟨_, rfl⟩ | ⟨item, _, _, rfl⟩
  · exact le_rfl
  · simp [WorkState.record]

theorem fenced_of_reachable (hreach : (workMachine key).Reachable s)
    (hcount : s.successes.length < 2 ^ 64) : Fenced s := by
  refine hreach.invariant (I := fun s => s.successes.length < 2 ^ 64 → Fenced s) ?_ ?_ hcount
  · rintro s ⟨hstored, hempty⟩ _
    constructor
    case unregistered => exact fun _ => hempty
    case registered =>
      intro item hitem
      rw [hstored] at hitem
      cases hitem
    case versions => simp [WorkState.expectedVersions, hempty]
    case epochs => simp [WorkState.claimedOwners, hempty]
  · intro s call s' hfenced _ hexec hcount
    exact (hfenced ((successes_length_le hexec).trans_lt hcount)).step hexec hcount

theorem exists_before_of_write {stored : Option WorkItem} (hperformed : Performed stored call item)
    (hexpected : call.expected? = some expected) :
    ∃ before, stored = some before ∧ before.stateVersion = expected := by
  cases call with
  | register => cases hexpected
  | claim | checkpoint =>
    obtain ⟨before, hstored, hfrom, _⟩ := hperformed
    obtain rfl := some.inj hexpected
    exact ⟨before, hstored, hfrom.version⟩

/-- What every call of a run keeps. -/
structure CallFenced (key : WorkItemKey) (s : WorkState) (call : WorkCall) (s' : WorkState) :
    Prop where
  failed : ∀ error, (call.perform key s.stored).2 = .error error → s'.stored = s.stored
  advanced : ∀ item expected, (call.perform key s.stored).2 = .ok item →
    call.expected? = some expected → s'.stored = some item ∧ expected < item.stateVersion ∧
      ∃ before, s.stored = some before ∧ before.stateVersion = expected
  checkpointed : ∀ item epoch saved expected now, call = .checkpoint epoch saved expected now →
    (call.perform key s.stored).2 = .ok item →
    ∃ before owner, s.stored = some before ∧ s.claimedOwners.getLast? = some owner ∧
      owner.epoch = epoch ∧ now < owner.expiresAt ∧ saved.generation = before.generation
  claimed : ∀ item owner expected now, call = .claim owner expected now →
    (call.perform key s.stored).2 = .ok item → ∀ before current, s.stored = some before →
    before.owner = some current → current.expiresAt ≤ now

theorem callFenced_of_exec (hfenced : Fenced s) (hexec : s.exec key call = some s')
    (hcount : s'.successes.length < 2 ^ 64) : CallFenced key s call s' := by
  rcases exec_cases hexec with ⟨⟨error, herror⟩, rfl⟩ | ⟨item, hok, hperformed, rfl⟩
  · have hnever : ∀ item, (call.perform key s.stored).2 ≠ .ok item := by simp [herror]
    exact ⟨fun _ _ => rfl, fun item _ hok => absurd hok (hnever item),
      fun item _ _ _ _ _ hok => absurd hok (hnever item),
      fun item _ _ _ _ hok => absurd hok (hnever item)⟩
  · constructor
    case failed =>
      intro error herror
      rw [hok] at herror
      cases herror
    case advanced =>
      intro found expected hfound hexpected
      obtain rfl := Except.ok.inj (hok.symm.trans hfound)
      obtain ⟨before, hstored, hversion⟩ := exists_before_of_write hperformed hexpected
      -- Versions count the writes, before and after this one.
      obtain ⟨_, hold, _⟩ := hfenced.registered before hstored
      obtain ⟨_, hnew, _⟩ := (hfenced.step hexec hcount).registered item rfl
      rw [expectedVersions_record, hexpected, toList_some, length_append,
        length_singleton] at hnew
      exact ⟨rfl, by omega, before, hstored, hversion⟩
    case checkpointed =>
      intro found epoch saved expected now hcall _
      subst hcall
      obtain ⟨before, hstored, hfrom, _⟩ := hperformed
      obtain ⟨owner, howner, hepoch, hlive⟩ := hfrom.owned
      refine ⟨before, owner, hstored, ?_, hepoch, hlive, hfrom.generation⟩
      rw [← howner]
      exact (hfenced.registered before hstored).2.2.2.symm
    case claimed =>
      intro found owner expected now hcall _ before current hstored hcurrent
      subst hcall
      obtain ⟨other, hother, hfrom, _⟩ := hperformed
      obtain rfl := some.inj (hstored.symm.trans hother)
      exact hfrom.expired current hcurrent

end Runs

/-- Over every run of calls on one key with fewer than 2^64 successes: no two
writes expected the same version, epochs grow from claim to claim, and each
further call is fenced. -/
theorem work_item_calls_are_fenced (key : WorkItemKey) (s : WorkState)
    (hreach : (workMachine key).Reachable s) (hcount : s.successes.length < 2 ^ 64) :
    s.expectedVersions.Pairwise (· < ·) ∧
      (s.claimedOwners.map WorkItemOwner.epoch).Pairwise (· < ·) ∧
      ∀ call s', s.exec key call = some s' → s'.successes.length < 2 ^ 64 →
        CallFenced key s call s' := by
  have hfenced := fenced_of_reachable hreach hcount
  refine ⟨?_, ?_, fun call s' hexec hafter => callFenced_of_exec hfenced hexec hafter⟩
  · rw [hfenced.versions]
    exact pairwise_lt_range'
  · rw [hfenced.epochs]
    exact pairwise_lt_range'

section Reclaim

def reclaimKey : WorkItemKey where
  repository := "owner/repo"
  base := "main"
  workKind := "repair"
  externalId := "task"

def reclaimOwner (session : String) (expiresAt : Time) : WorkItemOwner where
  host := "host"
  session
  epoch := 0
  expiresAt
  capabilityVersion := "fleet/v1"

def unregisteredState : WorkState where
  stored := none
  clock := 0
  successes := []

/-- Registered, claimed, and claimed again after the first lease expired. -/
def reclaimCalls : List WorkCall :=
  [.register "work-item/v1" "fleet/v1" "idem" 0, .claim (reclaimOwner "a" 5) 1 1,
    .claim (reclaimOwner "b" 20) 2 6]

def reclaimedState : WorkState :=
  ((workMachine reclaimKey).execAll (fun _ _ => True) unregisteredState reclaimCalls).getD
    unregisteredState

end Reclaim

/-- The owner of the expired lease cannot save a checkpoint any more. -/
theorem reclaimed_item_is_fenced :
    (reclaimedState.claimedOwners.map WorkItemOwner.epoch = [1, 2] ∧
      (reclaimedState.claimedOwners.map WorkItemOwner.epoch).Pairwise (· < ·)) ∧
    ((WorkCall.checkpoint 1 ⟨1, "digest", [], "continue", [], none⟩ 3 7).perform reclaimKey
      reclaimedState.stored).2 = .error "stale or missing work-item owner epoch" := by
  have hrun : (workMachine reclaimKey).execAll (fun _ _ => True) unregisteredState reclaimCalls =
      some reclaimedState := by decide +kernel
  have hreach : (workMachine reclaimKey).Reachable reclaimedState :=
    Machine.ReachableWhen.of_execAll ⟨rfl, rfl⟩ hrun
  refine ⟨⟨by decide +kernel, ?_⟩, by decide +kernel⟩
  exact (work_item_calls_are_fenced reclaimKey reclaimedState hreach (by decide +kernel)).2.1

end Shipyard.Ship
