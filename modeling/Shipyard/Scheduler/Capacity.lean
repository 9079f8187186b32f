import Mathlib.Algebra.GroupWithZero.Nat
import Shipyard.Request
import Shipyard.HostPool.Basic
import Mathlib.Data.Finset.Image

/-!
# Capacity checks of the scheduler

The resource checks of `queue_scheduler.rs` that decide whether a job may run
beside others: exclusive claims, host-pool slots and VM slots. Sums of slots
are sums of `u32` values, which wrap around; single additions saturate.
-/

namespace Shipyard.Scheduler

open HostPool List

/-- `Iterator::sum::<u32>`. -/
def sumU32 (values : List Nat) : Nat := values.sum % (u32Max + 1)

/-- `u32::saturating_add`. -/
def saturatingAdd (left right : Nat) : Nat := min (left + right) u32Max

/-! ## Host-pool slots -/

def eligibleMemberIds (pool : HostPoolConfig) (requires : List String) : Finset String :=
  ((pool.members.filter fun member =>
    requires.all fun required => member.capabilities.any (· = required)).map (·.id)).toFinset

def availableSlotsFor (candidate : HostPoolDemand) (pools : List HostPoolConfig)
    (running : List JobResourcePlan) (leases : List HostPoolLease) (now : Time) : Nat :=
  match poolNamed pools candidate.poolName with
  | none => 0
  | some pool =>
    let eligibleMembers := eligibleMemberIds pool candidate.requires
    let total := sumU32
      ((pool.members.filter (·.id ∈ eligibleMembers)).map (·.maxConcurrency))
    let activeLeases := min (leases.countP fun lease =>
      lease.poolName = candidate.poolName && lease.memberId ∈ eligibleMembers
        && !lease.isStale now) u32Max
    let runningReservations := sumU32
      (((running.flatMap (·.hostPools)).filter fun demand =>
        demand.poolName = candidate.poolName
          && ¬Disjoint (eligibleMemberIds pool demand.requires) eligibleMembers).map (·.slots))
    total - activeLeases - runningReservations

/-- Whether two demands are merged into one. -/
def sameGroup (existing demand : HostPoolDemand) : Bool :=
  existing.poolName = demand.poolName && existing.capabilityKey = demand.capabilityKey
    && existing.requires = demand.requires

def addDemand : List HostPoolDemand → HostPoolDemand → List HostPoolDemand
  | [], demand => [demand]
  | existing :: rest, demand =>
    if sameGroup existing demand then
      { existing with slots := saturatingAdd existing.slots demand.slots } :: rest
    else existing :: addDemand rest demand

def combinedDemands (demands : List HostPoolDemand) : List HostPoolDemand :=
  demands.foldl addDemand []

structure HostPoolCapacityDeficit where
  poolName : String
  capabilityKey : String
  requestedSlots : Nat
  availableSlots : Nat
deriving DecidableEq, Repr

def hostPoolCapacityDeficits (candidate : JobResourcePlan) (running : List JobResourcePlan)
    (pools : List HostPoolConfig) (leases : List HostPoolLease) (now : Time) :
    List HostPoolCapacityDeficit :=
  (combinedDemands candidate.hostPools).filterMap fun demand =>
    let capacity := availableSlotsFor demand pools running leases now
    if capacity < demand.slots then
      some ⟨demand.poolName, demand.capabilityKey, demand.slots, capacity⟩
    else none

/-! ## VM slots -/

structure VmSlotCapacity where
  key : String
  slots : Nat
deriving DecidableEq, Repr

structure VmSlotCapacityDeficit where
  key : String
  requestedSlots : Nat
  availableSlots : Nat
deriving DecidableEq, Repr

def addVmDemand : List VmSlotDemand → VmSlotDemand → List VmSlotDemand
  | [], demand => [demand]
  | existing :: rest, demand =>
    if existing.key = demand.key then
      { existing with slots := saturatingAdd existing.slots demand.slots } :: rest
    else existing :: addVmDemand rest demand

def combinedVmDemands (demands : List VmSlotDemand) : List VmSlotDemand :=
  demands.foldl addVmDemand []

def runningVmReservations (running : List JobResourcePlan) (key : String) : Nat :=
  sumU32 (((running.flatMap (·.vmSlots)).filter (·.key = key)).map (·.slots))

/-- An empty capacity snapshot turns the VM-slot check off. -/
def vmSlotCapacityDeficits (candidate : JobResourcePlan) (running : List JobResourcePlan)
    (capacities : List VmSlotCapacity) : List VmSlotCapacityDeficit :=
  if capacities.isEmpty || candidate.vmSlots.isEmpty then []
  else
    (combinedVmDemands candidate.vmSlots).filterMap fun demand =>
      let capacity := (capacities.reverse.find? (·.key = demand.key)).elim 0 (·.slots)
      let available := capacity - runningVmReservations running demand.key
      if available < demand.slots then some ⟨demand.key, demand.slots, available⟩ else none

/-! ## All blockers -/

inductive SchedulerAdmissionBlocker where
  | exclusiveClaim (claim : String)
  | hostPoolCapacity (deficit : HostPoolCapacityDeficit)
  | vmSlotCapacity (deficit : VmSlotCapacityDeficit)
deriving DecidableEq, Repr

/-- Claims that occupied plans hold, each once and in order. -/
def exclusiveClaimBlockers (candidate : JobResourcePlan) (running : List JobResourcePlan) :
    List SchedulerAdmissionBlocker :=
  let occupied := running.flatMap (·.exclusiveClaims)
  (((candidate.exclusiveClaims.filter (· ∈ occupied)).insertionSort (· ≤ ·)).dedup).map
    .exclusiveClaim

def admissionBlockersWithVmSlots (candidate : JobResourcePlan) (running : List JobResourcePlan)
    (pools : List HostPoolConfig) (leases : List HostPoolLease) (vmSlots : List VmSlotCapacity)
    (now : Time) : List SchedulerAdmissionBlocker :=
  exclusiveClaimBlockers candidate running ++
    (hostPoolCapacityDeficits candidate running pools leases now).map .hostPoolCapacity ++
      (vmSlotCapacityDeficits candidate running vmSlots).map .vmSlotCapacity

/-- A candidate without blockers holds no claim of an occupied plan. -/
theorem disjoint_claims_of_blockers {candidate : JobResourcePlan} {running : List JobResourcePlan}
    {pools : List HostPoolConfig} {leases : List HostPoolLease} {vmSlots : List VmSlotCapacity}
    {now : Time}
    (hblockers : admissionBlockersWithVmSlots candidate running pools leases vmSlots now = []) :
    ∀ plan ∈ running, candidate.exclusiveClaims.Disjoint plan.exclusiveClaims := by
  intro plan hplan claim hclaim hheld
  rw [admissionBlockersWithVmSlots, append_eq_nil_iff, append_eq_nil_iff] at hblockers
  have hblocker : SchedulerAdmissionBlocker.exclusiveClaim claim ∈
      exclusiveClaimBlockers candidate running := by
    apply mem_map_of_mem
    rw [mem_dedup, mem_insertionSort, mem_filter, decide_eq_true_eq]
    exact ⟨hclaim, mem_flatMap.mpr ⟨plan, hplan, hheld⟩⟩
  rw [hblockers.1.1] at hblocker
  exact absurd hblocker not_mem_nil

/-! ## One admission pass -/

structure PendingAdmissionRequest where
  jobId : String
  resourcePlan : Option JobResourcePlan
  missingRequestReason : Option String
deriving DecidableEq, Repr

structure DeferredAdmission where
  jobId : String
  blockers : List SchedulerAdmissionBlocker
deriving DecidableEq, Repr

structure OrphanedPendingJob where
  jobId : String
  reason : String
deriving DecidableEq, Repr

structure AdmitPassPlan where
  admitted : List String := []
  deferred : List DeferredAdmission := []
  orphaned : List OrphanedPendingJob := []
deriving DecidableEq, Repr

def orphanedPendingRequestReason : String := "Queued request envelope missing or unreadable"

def orphanReason (detail : Option String) : String :=
  match detail.filter fun text => text.toList.any (!isWhitespace ·) with
  | none => orphanedPendingRequestReason
  | some text =>
    if text = orphanedPendingRequestReason then orphanedPendingRequestReason
    else orphanedPendingRequestReason ++ ": " ++ text

/-- The variables of the admission loop. -/
structure AdmitState where
  plan : AdmitPassPlan
  occupied : List JobResourcePlan
deriving DecidableEq, Repr

section Pass

variable (pools : List HostPoolConfig) (leases : List HostPoolLease)
  (vmSlots : List VmSlotCapacity) (now : Time)

def admitStep (state : AdmitState) (candidate : PendingAdmissionRequest) : AdmitState :=
  match candidate.resourcePlan with
  | none =>
    { state with plan := { state.plan with
        orphaned := state.plan.orphaned ++
          [⟨candidate.jobId, orphanReason candidate.missingRequestReason⟩] } }
  | some resourcePlan =>
    match admissionBlockersWithVmSlots resourcePlan state.occupied pools leases vmSlots now with
    | [] =>
      { plan := { state.plan with admitted := state.plan.admitted ++ [candidate.jobId] }
        occupied := state.occupied ++ [resourcePlan] }
    | blockers =>
      { state with plan := { state.plan with
          deferred := state.plan.deferred ++ [⟨candidate.jobId, blockers⟩] } }

/-- One step of the loop admits its candidate, or leaves what is occupied and
admitted as it was. -/
theorem admitStep_cases (state : AdmitState) (candidate : PendingAdmissionRequest) :
    (∃ resourcePlan, candidate.resourcePlan = some resourcePlan ∧
      admissionBlockersWithVmSlots resourcePlan state.occupied pools leases vmSlots now = [] ∧
        (admitStep pools leases vmSlots now state candidate).occupied =
          state.occupied ++ [resourcePlan] ∧
        (admitStep pools leases vmSlots now state candidate).plan.admitted =
          state.plan.admitted ++ [candidate.jobId]) ∨
      (admitStep pools leases vmSlots now state candidate).occupied = state.occupied ∧
        (admitStep pools leases vmSlots now state candidate).plan.admitted =
          state.plan.admitted := by
  cases hplan : candidate.resourcePlan with
  | none => simp [admitStep, hplan]
  | some resourcePlan =>
    cases hblockers : admissionBlockersWithVmSlots resourcePlan state.occupied pools leases
      vmSlots now with
    | nil =>
      left
      simp [admitStep, hplan, hblockers]
    | cons =>
      right
      simp [admitStep, hplan, hblockers]

/-- The loop over the pending requests, in queue order. -/
def admitLoop (pending : List PendingAdmissionRequest) (running : List JobResourcePlan) :
    AdmitState :=
  pending.foldl (admitStep pools leases vmSlots now) ⟨{}, running⟩

/-- The loop admits some of the pending requests, in order. No admitted plan shares an
exclusive claim with what was occupied or with another admitted plan. -/
theorem admitLoop_spec (pending : List PendingAdmissionRequest) (state : AdmitState) :
    ∃ admitted : List PendingAdmissionRequest, admitted.Sublist pending ∧
      (pending.foldl (admitStep pools leases vmSlots now) state).plan.admitted =
        state.plan.admitted ++ admitted.map (·.jobId) ∧
      (∀ request ∈ admitted, ∃ plan, request.resourcePlan = some plan ∧
        ∀ occupied ∈ state.occupied, plan.exclusiveClaims.Disjoint occupied.exclusiveClaims) ∧
      admitted.Pairwise fun earlier later => ∀ plan plan', earlier.resourcePlan = some plan →
        later.resourcePlan = some plan' → plan'.exclusiveClaims.Disjoint plan.exclusiveClaims := by
  induction pending generalizing state with
  | nil => exact ⟨[], .slnil, by simp, by simp, .nil⟩
  | cons request rest ih =>
    obtain ⟨admitted, hsub, hids, hapart, hpairs⟩ :=
      ih (admitStep pools leases vmSlots now state request)
    rcases admitStep_cases pools leases vmSlots now state request with
      ⟨plan, hplan, hblockers, hoccupied, hadmitted⟩ | ⟨hoccupied, hadmitted⟩
    · rw [hoccupied] at hapart
      rw [hadmitted] at hids
      have hclaims := disjoint_claims_of_blockers hblockers
      refine ⟨request :: admitted, hsub.cons_cons request, ?_, ?_, ?_⟩
      · simp [hids]
      · intro other hother
        rcases mem_cons.mp hother with rfl | hother
        · exact ⟨plan, hplan, hclaims⟩
        · obtain ⟨plan', hplan', hdisjoint⟩ := hapart other hother
          exact ⟨plan', hplan', fun occupied hmem => hdisjoint occupied (by simp [hmem])⟩
      · refine pairwise_cons.mpr ⟨fun other hother first second hfirst hsecond => ?_, hpairs⟩
        obtain ⟨plan', hplan', hdisjoint⟩ := hapart other hother
        obtain rfl := Option.some.inj (hplan.symm.trans hfirst)
        obtain rfl := Option.some.inj (hplan'.symm.trans hsecond)
        exact hdisjoint plan (by simp)
    · rw [hoccupied] at hapart
      rw [hadmitted] at hids
      exact ⟨admitted, hsub.cons request, hids, hapart, hpairs⟩

def planAdmitPassWithVmSlots (pending : List PendingAdmissionRequest)
    (running : List JobResourcePlan) : AdmitPassPlan :=
  (admitLoop pools leases vmSlots now pending running).plan

def planAdmitPass (pending : List PendingAdmissionRequest) (running : List JobResourcePlan) :
    AdmitPassPlan :=
  planAdmitPassWithVmSlots pools leases [] now pending running

/-- The running plans and those of the requests that a pass admitted. -/
def occupiedAfterPass (pending : List PendingAdmissionRequest)
    (running : List JobResourcePlan) : List JobResourcePlan :=
  (admitLoop pools leases [] now pending running).occupied

end Pass

end Shipyard.Scheduler
