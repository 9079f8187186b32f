import Shipyard.Scheduler.Capacity

/-!
# VM slots over an admission pass

A pass splits the pending requests into admitted, deferred and orphaned ones. It keeps
the demand on a VM key within the key's capacity as long as the capacity is below the
largest value of 32 bits: a candidate's own demands on one key are added up with
saturation, so at that capacity a candidate can ask for more than it is checked for.
-/

namespace Shipyard.Scheduler

open HostPool Lib List

/-- The capacity of a key; the last entry of the snapshot counts. -/
def vmCapacity (capacities : List VmSlotCapacity) (key : String) : Nat :=
  (capacities.reverse.find? (·.key = key)).elim 0 (·.slots)

/-- The slots that demands ask for on a key, without a bound. -/
def vmTotal (demands : List VmSlotDemand) (key : String) : Nat :=
  ((demands.filter (·.key = key)).map (·.slots)).sum

/-- The slots that plans ask for on a key, without a bound. -/
def vmDemand (plans : List JobResourcePlan) (key : String) : Nat :=
  vmTotal (plans.flatMap (·.vmSlots)) key

/-- Every demand of a plan fits 32 bits. -/
def DemandsInRange (plan : JobResourcePlan) : Prop := ∀ demand ∈ plan.vmSlots, demand.slots ≤ u32Max

theorem vmTotal_cons (first : VmSlotDemand) (rest : List VmSlotDemand) (key : String) :
    vmTotal (first :: rest) key =
      (if first.key = key then first.slots else 0) + vmTotal rest key := by
  rw [vmTotal, filter_cons]
  split <;> simp_all [vmTotal]

theorem vmDemand_append (plans plans' : List JobResourcePlan) (key : String) :
    vmDemand (plans ++ plans') key = vmDemand plans key + vmDemand plans' key := by
  simp [vmDemand, vmTotal]

/-! ## Merged demands -/

/-- The slots that merged demands ask for on a key. -/
def vmMerged (combined : List VmSlotDemand) (key : String) : Nat :=
  (combined.find? (·.key = key)).elim 0 (·.slots)

theorem vmMerged_addVmDemand (combined : List VmSlotDemand) {demand : VmSlotDemand}
    (hrange : demand.slots ≤ u32Max) (key : String) :
    vmMerged (addVmDemand combined demand) key =
      if demand.key = key then saturatingAdd (vmMerged combined key) demand.slots
      else vmMerged combined key := by
  fun_induction addVmDemand combined demand with
  | case1 => split_ifs with hkey <;> simp [vmMerged, hkey, saturatingAdd, hrange]
  | case2 demand existing rest hmerged => grind [vmMerged]
  | case3 demand existing rest hother ih => grind [vmMerged]

theorem vmMerged_foldl {demands : List VmSlotDemand}
    (hrange : ∀ demand ∈ demands, demand.slots ≤ u32Max) (combined : List VmSlotDemand)
    (key : String) (hcombined : vmMerged combined key ≤ u32Max) :
    vmMerged (demands.foldl addVmDemand combined) key =
      min (vmMerged combined key + vmTotal demands key) u32Max := by
  induction demands generalizing combined with
  | nil => simpa [vmTotal] using hcombined
  | cons first rest ih =>
    have hfirst := hrange first mem_cons_self
    have hstep := vmMerged_addVmDemand combined hfirst key
    have hrest := fun demand hdemand => hrange demand (mem_cons_of_mem first hdemand)
    rw [foldl_cons, vmTotal_cons]
    by_cases hkey : first.key = key
    · rw [if_pos hkey, saturatingAdd] at hstep
      rw [ih hrest _ (by omega), hstep, if_pos hkey]
      omega
    · rw [if_neg hkey] at hstep
      rw [ih hrest _ (by omega), hstep, if_neg hkey]
      omega

/-- A plan's merged demand on a key: the sum of its demands, cut at 32 bits. -/
theorem vmMerged_combinedVmDemands {plan : JobResourcePlan} (hrange : DemandsInRange plan)
    (key : String) :
    vmMerged (combinedVmDemands plan.vmSlots) key = min (vmDemand [plan] key) u32Max := by
  have hfold := vmMerged_foldl hrange [] key (Nat.zero_le _)
  have hnone : vmMerged [] key = 0 := rfl
  have hplan : vmDemand [plan] key = vmTotal plan.vmSlots key := by simp [vmDemand]
  rw [hplan]
  rwa [hnone, Nat.zero_add] at hfold

/-! ## One candidate -/

section Candidate

variable {candidate : JobResourcePlan} {occupied : List JobResourcePlan}
  {capacities : List VmSlotCapacity}

/-- A candidate without deficits asks on each key for no more than what is left. -/
theorem vmMerged_le_available (hcapacities : capacities ≠ [])
    (hdeficits : vmSlotCapacityDeficits candidate occupied capacities = []) (key : String) :
    vmMerged (combinedVmDemands candidate.vmSlots) key ≤
      vmCapacity capacities key - runningVmReservations occupied key := by
  rw [vmMerged]
  cases hfind : (combinedVmDemands candidate.vmSlots).find? (·.key = key) with
  | none => exact Nat.zero_le _
  | some demand =>
    have hmem := mem_of_find?_eq_some hfind
    have hkey := find?_some hfind
    rw [decide_eq_true_eq] at hkey
    have hasks : candidate.vmSlots ≠ [] := by
      intro hnone
      rw [hnone] at hmem
      cases hmem
    rw [vmSlotCapacityDeficits, if_neg (by simp [hcapacities, hasks])] at hdeficits
    have hnone := filterMap_eq_nil_iff.mp hdeficits demand hmem
    rw [hkey] at hnone
    simpa [vmCapacity] using hnone

/-- Admitting a candidate keeps a key within a capacity below the largest one. -/
theorem vmDemand_le_of_no_deficits (hrange : DemandsInRange candidate)
    (hdeficits : vmSlotCapacityDeficits candidate occupied capacities = [])
    (hcapacities : capacities ≠ []) {key : String}
    (hcapacity : vmCapacity capacities key < u32Max)
    (hoccupied : vmDemand occupied key ≤ vmCapacity capacities key) :
    vmDemand (occupied ++ [candidate]) key ≤ vmCapacity capacities key := by
  have havailable := vmMerged_le_available hcapacities hdeficits key
  have hreserved : runningVmReservations occupied key = vmDemand occupied key := by
    refine Nat.mod_eq_of_lt ?_
    exact lt_of_le_of_lt hoccupied (by omega)
  rw [vmMerged_combinedVmDemands hrange, hreserved] at havailable
  rw [vmDemand_append]
  omega

end Candidate

/-! ## A whole pass -/

inductive Verdict where
  | admitted
  | deferred
  | orphaned
deriving DecidableEq, Repr

/-- The requests with one verdict, in their order. -/
def requestsWith (verdict : Verdict) (judged : List (PendingAdmissionRequest × Verdict)) :
    List PendingAdmissionRequest :=
  (judged.filter (·.2 = verdict)).map Prod.fst

theorem requestsWith_append (verdict : Verdict)
    (judged judged' : List (PendingAdmissionRequest × Verdict)) :
    requestsWith verdict (judged ++ judged') =
      requestsWith verdict judged ++ requestsWith verdict judged' := by
  simp [requestsWith]

/-- The plans of the requests that were admitted. -/
def admittedPlans (judged : List (PendingAdmissionRequest × Verdict)) : List JobResourcePlan :=
  (requestsWith .admitted judged).filterMap (·.resourcePlan)

/-- A plan splits the pending requests, each in one class and each class in list order, and
what it admits stays within the capacity of every listed key that the running plans are
within. -/
def PassIsSound (vmSlots : List VmSlotCapacity) (pending : List PendingAdmissionRequest)
    (running : List JobResourcePlan) (plan : AdmitPassPlan) : Prop :=
  ∃ judged, judged.map Prod.fst = pending ∧
    plan.admitted = (requestsWith .admitted judged).map (·.jobId) ∧
    plan.deferred.map (·.jobId) = (requestsWith .deferred judged).map (·.jobId) ∧
    plan.orphaned.map (·.jobId) = (requestsWith .orphaned judged).map (·.jobId) ∧
    ∀ slot ∈ vmSlots, vmDemand running slot.key ≤ vmCapacity vmSlots slot.key →
      vmDemand (running ++ admittedPlans judged) slot.key ≤ vmCapacity vmSlots slot.key

/-- How the loop comes from one state to another by judging requests. -/
structure Judges (vmSlots : List VmSlotCapacity) (state : AdmitState)
    (judged : List (PendingAdmissionRequest × Verdict)) (after : AdmitState) : Prop where
  admitted : after.plan.admitted =
    state.plan.admitted ++ (requestsWith .admitted judged).map (·.jobId)
  deferred : after.plan.deferred.map (·.jobId) =
    state.plan.deferred.map (·.jobId) ++ (requestsWith .deferred judged).map (·.jobId)
  orphaned : after.plan.orphaned.map (·.jobId) =
    state.plan.orphaned.map (·.jobId) ++ (requestsWith .orphaned judged).map (·.jobId)
  occupied : after.occupied = state.occupied ++ admittedPlans judged
  within : ∀ key, vmSlots ≠ [] → vmCapacity vmSlots key < u32Max →
    vmDemand state.occupied key ≤ vmCapacity vmSlots key →
      vmDemand after.occupied key ≤ vmCapacity vmSlots key

theorem Judges.refl (vmSlots : List VmSlotCapacity) (state : AdmitState) :
    Judges vmSlots state [] state where
  admitted := by simp [requestsWith]
  deferred := by simp [requestsWith]
  orphaned := by simp [requestsWith]
  occupied := by simp [admittedPlans, requestsWith]
  within := fun _ _ _ hwithin => hwithin

variable {vmSlots : List VmSlotCapacity}

theorem Judges.trans {state middle after : AdmitState}
    {judged judged' : List (PendingAdmissionRequest × Verdict)}
    (hfirst : Judges vmSlots state judged middle) (hsecond : Judges vmSlots middle judged' after) :
    Judges vmSlots state (judged ++ judged') after where
  admitted := by
    rw [hsecond.admitted, hfirst.admitted, requestsWith_append, map_append, append_assoc]
  deferred := by
    rw [hsecond.deferred, hfirst.deferred, requestsWith_append, map_append, append_assoc]
  orphaned := by
    rw [hsecond.orphaned, hfirst.orphaned, requestsWith_append, map_append, append_assoc]
  occupied := by
    rw [hsecond.occupied, hfirst.occupied, admittedPlans, admittedPlans, admittedPlans,
      requestsWith_append, filterMap_append, append_assoc]
  within := fun key hlisted hcapacity hwithin =>
    hsecond.within key hlisted hcapacity (hfirst.within key hlisted hcapacity hwithin)

section Pass

variable (pools : List HostPoolConfig) (leases : List HostPoolLease)
  (vmSlots : List VmSlotCapacity) (now : Time)

theorem admitStep_judges {request : PendingAdmissionRequest}
    (hrange : ∀ plan ∈ request.resourcePlan, DemandsInRange plan) (state : AdmitState) :
    ∃ verdict, Judges vmSlots state [(request, verdict)]
      (admitStep pools leases vmSlots now state request) := by
  cases hplan : request.resourcePlan with
  | none =>
    refine ⟨.orphaned, ?_⟩
    constructor <;> simp [admitStep, hplan, requestsWith, admittedPlans]
  | some plan =>
    cases hblockers : admissionBlockersWithVmSlots plan state.occupied pools leases vmSlots
      now with
    | cons first others =>
      refine ⟨.deferred, ?_⟩
      constructor <;> simp [admitStep, hplan, hblockers, requestsWith, admittedPlans]
    | nil =>
      refine ⟨.admitted, ?_⟩
      constructor
      case within =>
        intro key hlisted hcapacity hwithin
        have hstep : (admitStep pools leases vmSlots now state request).occupied =
            state.occupied ++ [plan] := by
          simp [admitStep, hplan, hblockers]
        rw [admissionBlockersWithVmSlots, append_eq_nil_iff] at hblockers
        rw [hstep]
        exact vmDemand_le_of_no_deficits (hrange plan hplan)
          (map_eq_nil_iff.mp hblockers.2) hlisted hcapacity hwithin
      all_goals simp [admitStep, hplan, hblockers, requestsWith, admittedPlans]

variable {pending : List PendingAdmissionRequest}

theorem admitLoop_judges
    (hrange : ∀ request ∈ pending, ∀ plan ∈ request.resourcePlan, DemandsInRange plan)
    (state : AdmitState) : ∃ judged, judged.map Prod.fst = pending ∧
      Judges vmSlots state judged (pending.foldl (admitStep pools leases vmSlots now) state) := by
  induction pending generalizing state with
  | nil => exact ⟨[], rfl, .refl vmSlots state⟩
  | cons request rest ih =>
    obtain ⟨verdict, hstep⟩ := admitStep_judges pools leases vmSlots now
      (hrange request mem_cons_self) state
    obtain ⟨judged, hpending, hrest⟩ :=
      ih (fun other hother => hrange other (mem_cons_of_mem _ hother))
        (admitStep pools leases vmSlots now state request)
    refine ⟨(request, verdict) :: judged, ?_, hstep.trans hrest⟩
    rw [map_cons, hpending]

/-- A pass is sound where no listed capacity is the largest one. -/
theorem passIsSound_of_capacity {running : List JobResourcePlan}
    (hrange : ∀ request ∈ pending, ∀ plan ∈ request.resourcePlan, DemandsInRange plan)
    (hcapacity : ∀ slot ∈ vmSlots, vmCapacity vmSlots slot.key < u32Max) :
    PassIsSound vmSlots pending running
      (planAdmitPassWithVmSlots pools leases vmSlots now pending running) := by
  obtain ⟨judged, hpending, hjudges⟩ :=
    admitLoop_judges pools leases vmSlots now hrange ⟨{}, running⟩
  refine ⟨judged, hpending, hjudges.admitted, hjudges.deferred, hjudges.orphaned, ?_⟩
  intro slot hslot hwithin
  rw [← hjudges.occupied]
  exact hjudges.within slot.key (ne_nil_of_mem hslot) (hcapacity slot hslot) hwithin

end Pass

/-! ## The largest capacity -/

/-- A request whose two demands on one key add up to more than 32 bits hold. -/
def greedyRequest (key : String) : PendingAdmissionRequest where
  jobId := "greedy"
  resourcePlan := some { targets := [], vmSlots := [⟨key, u32Max⟩, ⟨key, 1⟩] }
  missingRequestReason := none

theorem vmCapacity_le (hslots : ∀ slot ∈ vmSlots, slot.slots ≤ u32Max) (key : String) :
    vmCapacity vmSlots key ≤ u32Max := by
  rw [vmCapacity]
  cases hfind : vmSlots.reverse.find? (·.key = key) with
  | none => exact Nat.zero_le _
  | some slot => exact hslots slot (mem_reverse.mp (mem_of_find?_eq_some hfind))

/-- The greedy request has no deficit at the largest capacity: its demands are cut to it. -/
theorem vmSlotCapacityDeficits_greedy {key : String} (hcapacity : vmCapacity vmSlots key = u32Max) :
    vmSlotCapacityDeficits { targets := [], vmSlots := [⟨key, u32Max⟩, ⟨key, 1⟩] } [] vmSlots =
      [] := by
  have hcombined : combinedVmDemands [⟨key, u32Max⟩, ⟨key, 1⟩] = [⟨key, u32Max⟩] := by
    simp [combinedVmDemands, addVmDemand, saturatingAdd]
  rw [vmCapacity] at hcapacity
  unfold vmSlotCapacityDeficits
  split
  · rfl
  · simp [hcombined, hcapacity, runningVmReservations, sumU32]

theorem greedyRequest_admitted {key : String} (hcapacity : vmCapacity vmSlots key = u32Max)
    (now : Time) :
    (planAdmitPassWithVmSlots [] [] vmSlots now [greedyRequest key] []).admitted = ["greedy"] := by
  have hdeficits := vmSlotCapacityDeficits_greedy hcapacity
  have hblockers : admissionBlockersWithVmSlots
      { targets := [], vmSlots := [⟨key, u32Max⟩, ⟨key, 1⟩] } [] [] [] vmSlots now = [] := by
    rw [admissionBlockersWithVmSlots, hdeficits]
    rfl
  simp [planAdmitPassWithVmSlots, admitLoop, admitStep, greedyRequest, hblockers]

end Shipyard.Scheduler
