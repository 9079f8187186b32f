import Shipyard.HostPool.Basic
import Shipyard.Lib.Machine

/-!
# The host-pool lease store

The locked operations of `HostPoolLeaseStore`. Each reads all leases, edits them
and saves them in one replacement of the file; the clock reading and the process
id are arguments. The store numbers the leases in the order of their creation.
The number is not in the file; it tells leases apart whose ids coincide, which
happens when one process acquires two leases at one clock reading.
-/

namespace Shipyard.HostPool

open Lib List

/-- `chrono::Duration::seconds`, in nanoseconds. -/
def seconds (count : Nat) : Time := count * 1000000000

structure HostPoolLeaseRequest where
  poolName : String
  memberId : String
  targetName : String
  backend : String
  host : Option String
  jobId : Option String
  branch : String
  sha : String
  maxConcurrency : Nat
  leaseStaleSeconds : Nat
deriving DecidableEq, Repr

def newLeaseId (pid : Nat) (now : Time) : String := toString pid ++ "-" ++ toString now

def HostPoolLeaseRequest.lease (request : HostPoolLeaseRequest) (pid : Nat) (now : Time) :
    HostPoolLease where
  leaseId := newLeaseId pid now
  poolName := request.poolName
  memberId := request.memberId
  targetName := request.targetName
  backend := request.backend
  host := request.host
  jobId := request.jobId
  branch := request.branch
  sha := request.sha
  ownerPid := pid
  acquiredAt := now
  heartbeatAt := now
  expiresAt := now + seconds request.leaseStaleSeconds

/-- What a heartbeat changes. -/
def HostPoolLease.refresh (now : Time) (leaseStaleSeconds : Nat) (lease : HostPoolLease) :
    HostPoolLease :=
  { lease with heartbeatAt := now, expiresAt := now + seconds leaseStaleSeconds }

structure StoredLease where
  serial : Nat
  lease : HostPoolLease
deriving DecidableEq, Repr

/-- The stored leases; the numbers given so far are below `nextSerial`, each
given once. -/
structure LeaseStore where
  stored : List StoredLease
  nextSerial : Nat
  numbered : ∀ held ∈ stored, held.serial < nextSerial
  distinct : (stored.map (·.serial)).Nodup
deriving DecidableEq

namespace LeaseStore

/-- A store whose file does not exist. -/
def empty : LeaseStore where
  stored := []
  nextSerial := 0
  numbered := by simp
  distinct := by simp

def leases (store : LeaseStore) : List HostPoolLease := store.stored.map (·.lease)

def retain (keep : HostPoolLease → Bool) (store : LeaseStore) : LeaseStore where
  stored := store.stored.filter (keep ·.lease)
  nextSerial := store.nextSerial
  numbered held hheld := store.numbered held (mem_of_mem_filter hheld)
  distinct := (filter_sublist.map _).nodup store.distinct

def push (lease : HostPoolLease) (store : LeaseStore) : LeaseStore where
  stored := store.stored ++ [⟨store.nextSerial, lease⟩]
  nextSerial := store.nextSerial + 1
  numbered held hheld := by
    rcases mem_append.mp hheld with hold | hnew
    · exact (store.numbered held hold).trans (Nat.lt_succ_self _)
    · rw [mem_singleton.mp hnew]
      exact Nat.lt_succ_self _
  distinct := by
    rw [map_append, map_singleton, nodup_append]
    refine ⟨store.distinct, nodup_singleton _, ?_⟩
    intro serial hserial fresh hfresh
    obtain ⟨held, hheld, rfl⟩ := mem_map.mp hserial
    rw [mem_singleton.mp hfresh]
    exact Nat.ne_of_lt (store.numbered held hheld)

/-- Refresh every selected lease. -/
def refreshAll (select : HostPoolLease → Bool) (now : Time) (leaseStaleSeconds : Nat)
    (store : LeaseStore) : LeaseStore where
  stored := store.stored.map fun held =>
    if select held.lease then { held with lease := held.lease.refresh now leaseStaleSeconds }
    else held
  nextSerial := store.nextSerial
  numbered held hheld := by
    obtain ⟨old, hold, rfl⟩ := mem_map.mp hheld
    have hnumber := store.numbered old hold
    split <;> exact hnumber
  distinct := by
    have hserials : (store.stored.map fun held =>
        if select held.lease then { held with lease := held.lease.refresh now leaseStaleSeconds }
        else held).map (·.serial) = store.stored.map (·.serial) := by
      rw [map_map]
      apply map_congr_left
      intro held _
      simp only [Function.comp_apply]
      split <;> rfl
    exact hserials ▸ store.distinct

def refreshFirstIn (select : HostPoolLease → Bool) (now : Time) (leaseStaleSeconds : Nat) :
    List StoredLease → List StoredLease
  | [] => []
  | held :: rest =>
    if select held.lease then
      { held with lease := held.lease.refresh now leaseStaleSeconds } :: rest
    else held :: refreshFirstIn select now leaseStaleSeconds rest

/-- What counting and identifying leases reads of them: number, pool and member. -/
def place (held : StoredLease) : Nat × String × String :=
  (held.serial, held.lease.poolName, held.lease.memberId)

theorem map_place_refreshFirstIn (select : HostPoolLease → Bool) (now : Time)
    (leaseStaleSeconds : Nat) (stored : List StoredLease) :
    (refreshFirstIn select now leaseStaleSeconds stored).map place = stored.map place := by
  induction stored with
  | nil => rfl
  | cons held rest ih =>
    rw [refreshFirstIn]
    split
    · rfl
    · rw [map_cons, map_cons, ih]

/-- Refresh the first selected lease. -/
def refreshFirst (select : HostPoolLease → Bool) (now : Time) (leaseStaleSeconds : Nat)
    (store : LeaseStore) : LeaseStore where
  stored := refreshFirstIn select now leaseStaleSeconds store.stored
  nextSerial := store.nextSerial
  numbered held hheld := by
    have hplace := mem_map_of_mem (f := place) hheld
    rw [map_place_refreshFirstIn] at hplace
    obtain ⟨old, hold, heq⟩ := mem_map.mp hplace
    have hserial : old.serial = held.serial := congrArg Prod.fst heq
    exact hserial ▸ store.numbered old hold
  distinct := by
    have hserials := congrArg (List.map Prod.fst)
      (map_place_refreshFirstIn select now leaseStaleSeconds store.stored)
    rw [map_map, map_map] at hserials
    exact hserials ▸ store.distinct

/-! ## Operations -/

/-- Leases of one member, stale ones included. -/
def heldBy (store : LeaseStore) (poolName memberId : String) : Nat :=
  store.leases.countP fun lease => lease.poolName = poolName && lease.memberId = memberId

/-- The end of both acquire operations, after stale leases were dropped. -/
def acquireSlot (pid : Nat) (now : Time) (request : HostPoolLeaseRequest) (store : LeaseStore) :
    LeaseStore × Option HostPoolLease :=
  if request.maxConcurrency ≤ store.heldBy request.poolName request.memberId then (store, none)
  else (store.push (request.lease pid now), some (request.lease pid now))

def acquire (pid : Nat) (now : Time) (request : HostPoolLeaseRequest) (store : LeaseStore) :
    LeaseStore × Option HostPoolLease :=
  acquireSlot pid now request (store.retain fun lease => !lease.isStale now)

/-- The existing lease of the logical job is for another member or another work. -/
def contradicts (existing : HostPoolLease) (request : HostPoolLeaseRequest) : Bool :=
  existing.memberId ≠ request.memberId || existing.targetName ≠ request.targetName ||
    existing.backend ≠ request.backend || existing.host ≠ request.host ||
    existing.branch ≠ request.branch || existing.sha ≠ request.sha

def contradictionMessage : String := "existing lease contradicts exact logical-job authority"

/-- A failing call saves nothing. -/
def acquireOrHeartbeatExact (pid : Nat) (now : Time) (request : HostPoolLeaseRequest)
    (store : LeaseStore) : Except String (LeaseStore × Option HostPoolLease) :=
  let live := store.retain fun lease => !lease.isStale now
  let ofJob := fun lease : HostPoolLease =>
    lease.jobId = request.jobId && lease.poolName = request.poolName
  match live.leases.find? ofJob with
  | some existing =>
    if contradicts existing request then .error contradictionMessage
    else .ok (live.refreshFirst ofJob now request.leaseStaleSeconds,
      some (existing.refresh now request.leaseStaleSeconds))
  | none => .ok (acquireSlot pid now request live)

def heartbeatExistingJob (now : Time) (poolName memberId jobId : String)
    (leaseStaleSeconds : Nat) (store : LeaseStore) : LeaseStore × Bool :=
  let live := store.retain fun lease => !lease.isStale now
  let ofJob := fun lease : HostPoolLease =>
    lease.poolName = poolName && lease.memberId = memberId && lease.jobId = some jobId
  if live.leases.any ofJob then (live.refreshFirst ofJob now leaseStaleSeconds, true)
  else (live, false)

/-- A heartbeat by id does not look at the expiry. -/
def heartbeat (now : Time) (leaseId : String) (leaseStaleSeconds : Nat) (store : LeaseStore) :
    LeaseStore × Bool :=
  (store.refreshAll (·.leaseId = leaseId) now leaseStaleSeconds,
    store.leases.any (·.leaseId = leaseId))

def release (leaseId : String) (store : LeaseStore) : LeaseStore × Bool :=
  let kept := store.retain (·.leaseId ≠ leaseId)
  (kept, kept.stored.length ≠ store.stored.length)

def releaseForJob (jobId : String) (store : LeaseStore) : LeaseStore × Nat :=
  let kept := store.retain (·.jobId ≠ some jobId)
  (kept, store.stored.length - kept.stored.length)

def pruneStale (now : Time) (store : LeaseStore) : LeaseStore × Nat :=
  let kept := store.retain fun lease => !lease.isStale now
  (kept, store.stored.length - kept.stored.length)

end LeaseStore

inductive LeaseOp where
  | acquire (pid : Nat) (now : Time) (request : HostPoolLeaseRequest)
  | acquireOrHeartbeatExact (pid : Nat) (now : Time) (request : HostPoolLeaseRequest)
  | heartbeatExistingJob (now : Time) (poolName memberId jobId : String)
      (leaseStaleSeconds : Nat)
  | heartbeat (now : Time) (leaseId : String) (leaseStaleSeconds : Nat)
  | release (leaseId : String)
  | releaseForJob (jobId : String)
  | pruneStale (now : Time)
deriving DecidableEq

/-- The store after an operation. -/
def LeaseStore.perform (store : LeaseStore) : LeaseOp → LeaseStore
  | .acquire pid now request => (store.acquire pid now request).1
  | .acquireOrHeartbeatExact pid now request =>
    match store.acquireOrHeartbeatExact pid now request with
    | .ok (next, _) => next
    | .error _ => store
  | .heartbeatExistingJob now poolName memberId jobId leaseStaleSeconds =>
    (store.heartbeatExistingJob now poolName memberId jobId leaseStaleSeconds).1
  | .heartbeat now leaseId leaseStaleSeconds => (store.heartbeat now leaseId leaseStaleSeconds).1
  | .release leaseId => (store.release leaseId).1
  | .releaseForJob jobId => (store.releaseForJob jobId).1
  | .pruneStale now => (store.pruneStale now).1

/-- Any interleaving of operations on one store. -/
def leaseMachine : Machine LeaseStore LeaseOp where
  init store := store = .empty
  exec store op := some (store.perform op)

/-- The slots that an acquiring operation is given are those of its member. -/
def asksForSlots (slots : String → String → Nat) : LeaseOp → Bool
  | .acquire _ _ request | .acquireOrHeartbeatExact _ _ request =>
    request.maxConcurrency = slots request.poolName request.memberId
  | _ => true

abbrev AsksForSlots (slots : String → String → Nat) (_ : LeaseStore) (op : LeaseOp) : Prop :=
  asksForSlots slots op = true

/-! ## What an operation does -/

/-- An operation drops and refreshes leases, and adds at most one, to a member
that holds fewer than its slots. -/
inductive LeaseStore.Edits (slots : String → String → Nat) (store next : LeaseStore) : Prop where
  | kept (hplaces : (next.stored.map place).Sublist (store.stored.map place))
      (hserial : next.nextSerial = store.nextSerial)
  | added (poolName memberId : String) (kept : LeaseStore)
      (hplaces : (kept.stored.map place).Sublist (store.stored.map place))
      (hroom : kept.heldBy poolName memberId < slots poolName memberId)
      (hnext : next.stored.map place =
        kept.stored.map place ++ [(store.nextSerial, poolName, memberId)])
      (hserial : next.nextSerial = store.nextSerial + 1)

namespace LeaseStore

variable {slots : String → String → Nat} {store next : LeaseStore}

theorem places_retain (keep : HostPoolLease → Bool) (store : LeaseStore) :
    ((store.retain keep).stored.map place).Sublist (store.stored.map place) :=
  filter_sublist.map _

variable (select : HostPoolLease → Bool) {serial : Nat}

theorem places_refreshFirst (now : Time) (leaseStaleSeconds : Nat) (store : LeaseStore) :
    (store.refreshFirst select now leaseStaleSeconds).stored.map place = store.stored.map place :=
  map_place_refreshFirstIn select now leaseStaleSeconds store.stored

theorem places_refreshAll (now : Time) (leaseStaleSeconds : Nat) (store : LeaseStore) :
    (store.refreshAll select now leaseStaleSeconds).stored.map place = store.stored.map place := by
  rw [refreshAll, map_map]
  apply map_congr_left
  intro held _
  simp only [Function.comp_apply]
  split <;> rfl

theorem edits_acquireSlot {kept : LeaseStore} {request : HostPoolLeaseRequest} {pid : Nat}
    {now : Time} (hslots : request.maxConcurrency = slots request.poolName request.memberId)
    (hplaces : (kept.stored.map place).Sublist (store.stored.map place))
    (hserial : kept.nextSerial = store.nextSerial) :
    store.Edits slots (kept.acquireSlot pid now request).1 := by
  rw [acquireSlot]
  split
  · exact .kept hplaces hserial
  next hroom =>
    refine .added request.poolName request.memberId kept hplaces ?_ ?_ ?_
    · rw [← hslots]
      exact Nat.lt_of_not_le hroom
    · rw [← hserial]
      exact map_append
    · rw [← hserial]
      rfl

theorem edits_perform {op : LeaseOp} (hslots : asksForSlots slots op = true) :
    store.Edits slots (store.perform op) := by
  cases op with
  | acquire pid now request =>
    exact edits_acquireSlot (by simpa [asksForSlots] using hslots) (places_retain _ store) rfl
  | acquireOrHeartbeatExact pid now request =>
    simp only [perform, acquireOrHeartbeatExact]
    split
    next next _ hcall =>
      split at hcall
      next existing _ =>
        split at hcall
        · cases hcall
        · cases hcall
          refine .kept ?_ rfl
          rw [places_refreshFirst]
          exact places_retain _ store
      · have hnext : (acquireSlot pid now request
            (store.retain fun lease => !lease.isStale now)).1 = next :=
          congrArg Prod.fst (Except.ok.inj hcall)
        rw [← hnext]
        exact edits_acquireSlot (by simpa [asksForSlots] using hslots) (places_retain _ store) rfl
    · exact .kept (List.Sublist.refl _) rfl
  | heartbeatExistingJob now poolName memberId jobId leaseStaleSeconds =>
    simp only [perform, heartbeatExistingJob]
    split
    · refine .kept ?_ rfl
      rw [places_refreshFirst]
      exact places_retain _ store
    · exact .kept (places_retain _ store) rfl
  | heartbeat now leaseId leaseStaleSeconds =>
    refine .kept ?_ rfl
    rw [perform, heartbeat, places_refreshAll]
  | release leaseId => exact .kept (places_retain _ store) rfl
  | releaseForJob jobId => exact .kept (places_retain _ store) rfl
  | pruneStale now => exact .kept (places_retain _ store) rfl

/-! ## Slots -/

theorem heldBy_eq (store : LeaseStore) (poolName memberId : String) :
    store.heldBy poolName memberId =
      (store.stored.map place).countP fun entry =>
        entry.2.1 = poolName && entry.2.2 = memberId := by
  rw [heldBy, leases, countP_map, countP_map]
  rfl

theorem heldBy_le_of_sublist
    (hplaces : (next.stored.map place).Sublist (store.stored.map place))
    (poolName memberId : String) :
    next.heldBy poolName memberId ≤ store.heldBy poolName memberId := by
  rw [heldBy_eq, heldBy_eq]
  exact hplaces.countP_le

/-- No member holds more leases than it has slots. -/
def WithinSlots (slots : String → String → Nat) (store : LeaseStore) : Prop :=
  ∀ poolName memberId, store.heldBy poolName memberId ≤ slots poolName memberId

theorem Edits.withinSlots (hedits : store.Edits slots next) (hwithin : store.WithinSlots slots) :
    next.WithinSlots slots := by
  intro poolName memberId
  cases hedits with
  | kept hplaces =>
    exact (heldBy_le_of_sublist hplaces poolName memberId).trans (hwithin poolName memberId)
  | added newPool newMember kept hplaces hroom hnext =>
    have hkept := (heldBy_le_of_sublist hplaces poolName memberId).trans
      (hwithin poolName memberId)
    rw [heldBy_eq] at hkept hroom
    rw [heldBy_eq, hnext, countP_append, countP_singleton]
    -- The room was checked on the member that gets the lease; the others only lose leases.
    by_cases hsame : newPool = poolName ∧ newMember = memberId
    · obtain ⟨rfl, rfl⟩ := hsame
      simp only [decide_true, Bool.and_self, if_true]
      exact hroom
    · rw [if_neg (by simpa using hsame), Nat.add_zero]
      exact hkept

theorem withinSlots_of_reachable (hreach : leaseMachine.ReachableWhen (AsksForSlots slots) store) :
    store.WithinSlots slots := by
  refine hreach.invariant (I := WithinSlots slots) ?_ ?_
  · intro store hinit poolName memberId
    rw [hinit]
    exact Nat.zero_le _
  · intro store op next hwithin hslots hexec
    cases hexec
    exact (edits_perform hslots).withinSlots hwithin

/-! ## Removed leases -/

/-- A lease with this number was created and is not stored any more. -/
def Gone (serial : Nat) (store : LeaseStore) : Prop :=
  serial < store.nextSerial ∧ ∀ held ∈ store.stored, held.serial ≠ serial

theorem Edits.nextSerial_le (hedits : store.Edits slots next) :
    store.nextSerial ≤ next.nextSerial := by
  cases hedits with
  | kept _ hserial => exact hserial.ge
  | added _ _ _ _ _ _ hserial => exact hserial ▸ Nat.le_succ _

theorem Edits.gone (hedits : store.Edits slots next) (hgone : store.Gone serial) :
    next.Gone serial := by
  obtain ⟨hcreated, habsent⟩ := hgone
  have hkept : ∀ kept : List (Nat × String × String), kept.Sublist (store.stored.map place) →
      ∀ entry ∈ kept, entry.1 ≠ serial := by
    intro kept hsub entry hentry
    obtain ⟨held, hheld, rfl⟩ := mem_map.mp (hsub.subset hentry)
    exact habsent held hheld
  cases hedits with
  | kept hplaces hserial =>
    refine ⟨hserial ▸ hcreated, fun held hheld => ?_⟩
    exact hkept _ hplaces _ (mem_map_of_mem (f := place) hheld)
  | added newPool newMember kept hplaces hroom hnext hserial =>
    refine ⟨hserial ▸ hcreated.trans (Nat.lt_succ_self _), fun held hheld => ?_⟩
    have hentry := mem_map_of_mem (f := place) hheld
    rw [hnext] at hentry
    rcases mem_append.mp hentry with hold | hnew
    · exact hkept _ hplaces _ hold
    · -- The new lease has a number that no lease had before.
      have hfresh : held.serial = store.nextSerial :=
        congrArg Prod.fst (mem_singleton.mp hnew)
      rw [hfresh]
      exact Nat.ne_of_gt hcreated

theorem gone_of_run {later : LeaseStore}
    (hrun : leaseMachine.RunWhen (AsksForSlots slots) store later) (hgone : store.Gone serial) :
    later.Gone serial := by
  refine hrun.preserves (I := Gone serial) ?_ hgone
  intro middle op next hgone hslots hexec
  cases hexec
  exact (edits_perform hslots).gone hgone

/-- An acquire drops every lease that is stale at its clock reading. -/
theorem gone_of_acquire {held : StoredLease} (hheld : held ∈ store.stored) {now : Time}
    (hstale : held.lease.isStale now = true) (pid : Nat) (request : HostPoolLeaseRequest) :
    (store.perform (.acquire pid now request)).Gone held.serial := by
  have hdropped : (store.retain fun lease => !lease.isStale now).Gone held.serial := by
    refine ⟨store.numbered held hheld, fun other hother hsame => ?_⟩
    obtain ⟨hmem, hlive⟩ := mem_filter.mp hother
    rw [inj_on_of_nodup_map store.distinct hmem hheld hsame] at hlive
    simp [hstale] at hlive
  have hedits : (store.retain fun lease => !lease.isStale now).Edits
      (fun _ _ => request.maxConcurrency) (store.perform (.acquire pid now request)) :=
    edits_acquireSlot rfl (List.Sublist.refl _) rfl
  exact hedits.gone hdropped

/-- The leases of a member that are not stale. -/
def liveBy (store : LeaseStore) (now : Time) (poolName memberId : String) : Nat :=
  store.leases.countP fun lease =>
    (lease.poolName = poolName && lease.memberId = memberId) && !lease.isStale now

theorem liveBy_le_heldBy (store : LeaseStore) (now : Time) (poolName memberId : String) :
    store.liveBy now poolName memberId ≤ store.heldBy poolName memberId := by
  apply countP_mono_left
  intro lease _ hlive
  rw [Bool.and_eq_true] at hlive
  exact hlive.1

end LeaseStore

/-- Along every interleaving of the operations: a member holds at most as many
leases as it has slots, stale ones included, so never more live ones; an acquire
drops every stale lease, and a lease that was dropped is never stored again. -/
theorem leases_within_slots_and_never_revived (slots : String → String → Nat) {store : LeaseStore}
    (hreach : leaseMachine.ReachableWhen (AsksForSlots slots) store) :
    (∀ poolName memberId, store.heldBy poolName memberId ≤ slots poolName memberId) ∧
      (∀ now poolName memberId,
        store.liveBy now poolName memberId ≤ slots poolName memberId) ∧
      (∀ held ∈ store.stored, ∀ pid now request, held.lease.isStale now = true →
        ∀ other ∈ (store.perform (.acquire pid now request)).stored,
          other.serial ≠ held.serial) ∧
      ∀ held ∈ store.stored, ∀ op, asksForSlots slots op = true →
        (∀ other ∈ (store.perform op).stored, other.serial ≠ held.serial) →
          ∀ later, leaseMachine.RunWhen (AsksForSlots slots) (store.perform op) later →
            ∀ other ∈ later.stored, other.serial ≠ held.serial := by
  have hwithin := LeaseStore.withinSlots_of_reachable hreach
  refine ⟨hwithin, fun now poolName memberId => ?_, ?_, ?_⟩
  · exact (store.liveBy_le_heldBy now poolName memberId).trans (hwithin poolName memberId)
  · intro held hheld pid now request hstale
    exact (LeaseStore.gone_of_acquire hheld hstale pid request).2
  · intro held hheld op hslots hremoved later hrun
    have hcreated := (store.numbered held hheld).trans_le
      (LeaseStore.edits_perform hslots).nextSerial_le
    exact (LeaseStore.gone_of_run hrun ⟨hcreated, hremoved⟩).2

/-- A request for the one slot of a member, with a window of a minute. -/
def oneSlotRequest : HostPoolLeaseRequest where
  poolName := "mac"
  memberId := "m1"
  targetName := "macos"
  backend := "ssh"
  host := none
  jobId := some "job-1"
  branch := "main"
  sha := "abc"
  maxConcurrency := 1
  leaseStaleSeconds := 60

/-- A lease is acquired and refreshed long after it expired. -/
def revivedStore : LeaseStore :=
  (LeaseStore.empty.perform (.acquire 7 0 oneSlotRequest)).perform
    (.heartbeat (seconds 100) (newLeaseId 7 0) 60)

theorem late_heartbeat_within_slots :
    leaseMachine.ReachableWhen (AsksForSlots fun _ _ => 1) revivedStore ∧
      revivedStore.liveBy (seconds 120) "mac" "m1" = 1 ∧
      revivedStore.liveBy (seconds 120) "mac" "m1" ≤ 1 := by
  have hstart : leaseMachine.ReachableWhen (AsksForSlots fun _ _ => 1) .empty := .start rfl
  have hreach : leaseMachine.ReachableWhen (AsksForSlots fun _ _ => 1) revivedStore :=
    (hstart.step (l := .acquire 7 0 oneSlotRequest) rfl rfl).step
      (l := .heartbeat (seconds 100) (newLeaseId 7 0) 60) rfl rfl
  exact ⟨hreach, by decide +kernel,
    (leases_within_slots_and_never_revived _ hreach).2.1 (seconds 120) "mac" "m1"⟩

end Shipyard.HostPool
