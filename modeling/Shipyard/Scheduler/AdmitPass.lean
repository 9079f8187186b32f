import Shipyard.Scheduler.Placement

/-!
# What an admission pass keeps placeable

The capacity check compares each group of demands of a candidate with the
capacity that running plans leave. Groups of one candidate are not compared with
each other. A pass therefore keeps the occupied plans placeable for exactly
those requests in which no two groups of demands can use a common member.
-/

namespace Shipyard.Scheduler

open HostPool Lib List

/-! ## Merged demands -/

section Combined

@[simp] theorem sameGroup_iff {existing demand : HostPoolDemand} :
    sameGroup existing demand = true ↔ existing.poolName = demand.poolName ∧
      existing.capabilityKey = demand.capabilityKey ∧ existing.requires = demand.requires := by
  simp [sameGroup, and_assoc]

/-- The slots that the merged demands ask for in the group of a demand. -/
def groupSlots (combined : List HostPoolDemand) (demand : HostPoolDemand) : Nat :=
  (combined.find? (sameGroup · demand)).elim 0 (·.slots)

/-- The slots of all demands in the group of a demand. -/
def groupTotal (demands : List HostPoolDemand) (demand : HostPoolDemand) : Nat :=
  ((demands.filter (sameGroup · demand)).map (·.slots)).sum

theorem groupSlots_addDemand (combined : List HostPoolDemand) (added demand : HostPoolDemand) :
    (if sameGroup added demand then saturatingAdd (groupSlots combined demand) added.slots
      else groupSlots combined demand) ≤ groupSlots (addDemand combined added) demand := by
  fun_induction addDemand combined added with
  | case1 => split_ifs with hsame <;> simp [groupSlots, hsame, saturatingAdd]
  | case2 existing rest hmerged => grind [groupSlots, sameGroup]
  | case3 existing rest hother ih => grind [groupSlots, sameGroup]

theorem groupTotal_cons (first : HostPoolDemand) (rest : List HostPoolDemand)
    (demand : HostPoolDemand) : groupTotal (first :: rest) demand =
      (if sameGroup first demand then first.slots else 0) + groupTotal rest demand := by
  rw [groupTotal, filter_cons]
  split <;> simp [groupTotal]

theorem groupTotal_append (demands demands' : List HostPoolDemand) (demand : HostPoolDemand) :
    groupTotal (demands ++ demands') demand =
      groupTotal demands demand + groupTotal demands' demand := by
  simp [groupTotal]

theorem groupSlots_foldl (demands combined : List HostPoolDemand) (demand : HostPoolDemand) :
    min (groupSlots combined demand + groupTotal demands demand) u32Max ≤
      groupSlots (demands.foldl addDemand combined) demand := by
  induction demands generalizing combined with
  | nil => simp [groupTotal]
  | cons first rest ih =>
    rw [foldl_cons, groupTotal_cons]
    refine le_trans ?_ (ih (addDemand combined first))
    have hadded := groupSlots_addDemand combined first demand
    split_ifs at hadded ⊢
    · rw [saturatingAdd] at hadded
      omega
    · omega

/-- Merging loses no slots but those above what a `u32` holds. -/
theorem groupTotal_le_combined (demands : List HostPoolDemand) (demand : HostPoolDemand) :
    min (groupTotal demands demand) u32Max ≤ groupSlots (combinedDemands demands) demand := by
  have hfold := groupSlots_foldl demands [] demand
  have hempty : groupSlots [] demand = 0 := rfl
  rw [hempty, Nat.zero_add] at hfold
  exact hfold

end Combined

/-! ## Requests that a pass handles safely -/

/-- Every group of demands fits on its eligible members when nothing else runs. -/
def FitsIdlePools (pools : List HostPoolConfig) (plan : JobResourcePlan) : Prop :=
  ∀ demand ∈ combinedDemands plan.hostPools,
    demand.slots ≤ ∑ id ∈ eligibleIn pools demand, maxConcurrencyAt pools (demand.poolName, id)

/-- Two demands on one pool that are checked apart and can use a common member. -/
structure Compete (pools : List HostPoolConfig) (demand other : HostPoolDemand) : Prop where
  apart : sameGroup demand other = false
  samePool : demand.poolName = other.poolName
  asks : 0 < demand.slots
  asks' : 0 < other.slots
  shared : ∃ id ∈ eligibleIn pools demand ∩ eligibleIn pools other,
    0 < maxConcurrencyAt pools (demand.poolName, id)

def CompetesWithItself (pools : List HostPoolConfig) (plan : JobResourcePlan) : Prop :=
  ∃ demand ∈ plan.hostPools, ∃ other ∈ plan.hostPools, Compete pools demand other

section Pass

variable {pools : List HostPoolConfig} {leases : List HostPoolLease} {now : Time}
  {running : List JobResourcePlan} {plan : JobResourcePlan}

theorem slotDemands_append (plans plans' : List JobResourcePlan) :
    slotDemands pools (plans ++ plans') = slotDemands pools plans ++ slotDemands pools plans' := by
  simp [slotDemands]

theorem slotDemands_one (plan : JobResourcePlan) :
    slotDemands pools [plan] = plan.hostPools.map (slotDemand pools) := by
  simp [slotDemands]

theorem sum_freeSlots_le (pools : List HostPoolConfig) (leases : List HostPoolLease) (now : Time)
    (demand : HostPoolDemand) :
    ∑ ref ∈ (slotDemand pools demand).accepts, freeSlots pools leases now ref ≤
      ∑ id ∈ eligibleIn pools demand, maxConcurrencyAt pools (demand.poolName, id) := by
  rw [sum_accepts]
  exact Finset.sum_le_sum fun _ _ => Nat.sub_le _ _

theorem sum_eligible_lt (hpools : PoolsWellFormed pools) (demand : HostPoolDemand) :
    ∑ id ∈ eligibleIn pools demand, maxConcurrencyAt pools (demand.poolName, id) < u32Max := by
  cases hpool : poolNamed pools demand.poolName with
  | none => simp [eligibleIn, hpool, u32Max]
  | some pool => exact sum_maxConcurrencyAt_lt hpools hpool _

/-- A candidate without deficits has room for each of its groups. -/
theorem groupTotal_le_available (hpools : PoolsWellFormed pools)
    (hplace : Placeable pools leases now running)
    (hdeficits : hostPoolCapacityDeficits plan running pools leases now = [])
    (demand : HostPoolDemand) :
    groupTotal plan.hostPools demand ≤
      ∑ ref ∈ (slotDemand pools demand).accepts, freeSlots pools leases now ref -
        unitsMeeting (slotDemand pools demand).accepts (slotDemands pools running) := by
  have hbound := (sum_freeSlots_le pools leases now demand).trans_lt (sum_eligible_lt hpools demand)
  have hgroup : groupSlots (combinedDemands plan.hostPools) demand ≤
      availableSlotsFor demand pools running leases now := by
    rw [groupSlots]
    cases hfind : (combinedDemands plan.hostPools).find? (sameGroup · demand) with
    | none => exact Nat.zero_le _
    | some found =>
      have hmem := mem_of_find?_eq_some hfind
      have hsame := find?_some hfind
      rw [sameGroup_iff] at hsame
      have hfits : ¬availableSlotsFor found pools running leases now < found.slots := by
        have hnone := filterMap_eq_nil_iff.mp hdeficits found hmem
        simpa using hnone
      have hsameSlots : availableSlotsFor found pools running leases now =
          availableSlotsFor demand pools running leases now := by
        simp only [availableSlotsFor, hsame.1, hsame.2.2]
      rw [Option.elim_some]
      omega
  rw [availableSlotsFor_eq hpools hplace] at hgroup
  have hcombined := groupTotal_le_combined plan.hostPools demand
  omega

/-- Demands of the candidate that meet the free members of one of its demands
are in the same group. -/
theorem unitsMeeting_le_groupTotal (leases : List HostPoolLease) (now : Time)
    {demand : HostPoolDemand} {demands : List HostPoolDemand}
    (happart : ∀ other ∈ demands, ¬Compete pools demand other) (hpos : 0 < demand.slots) :
    unitsMeeting ((slotDemand pools demand).accepts.filter (0 < freeSlots pools leases now ·))
      (demands.map (slotDemand pools)) ≤ groupTotal demands demand := by
  induction demands with
  | nil => simp [unitsMeeting]
  | cons other rest ih =>
    have hrest := ih fun other hother => happart other (mem_cons_of_mem _ hother)
    rw [groupTotal_cons, map_cons]
    simp only [unitsMeeting, filter_cons] at hrest ⊢
    split
    next hmeets =>
      rw [map_cons, sum_cons]
      refine Nat.add_le_add ?_ hrest
      cases hsame : sameGroup other demand with
      | true => simp [slotDemand]
      | false =>
        -- the two share a free member, so the other one asks for nothing
        by_contra hless
        apply happart other mem_cons_self
        rw [decide_eq_true_eq, Finset.not_disjoint_iff] at hmeets
        obtain ⟨ref, href, href'⟩ := hmeets
        obtain ⟨href', hfree⟩ := Finset.mem_filter.mp href'
        simp only [slotDemand, Finset.mem_image] at href href'
        obtain ⟨id, hid, rfl⟩ := href'
        obtain ⟨id', hid', heq⟩ := href
        obtain ⟨hname, rfl⟩ := Prod.mk.inj heq
        constructor
        case apart =>
          rw [Bool.eq_false_iff] at hsame ⊢
          intro hback
          rw [Ne, sameGroup_iff] at hsame
          rw [sameGroup_iff] at hback
          exact hsame ⟨hback.1.symm, hback.2.1.symm, hback.2.2.symm⟩
        case samePool => exact hname.symm
        case asks => exact hpos
        case asks' =>
          simp only [slotDemand] at hless
          omega
        case shared =>
          exact ⟨_, Finset.mem_inter.mpr ⟨hid, hid'⟩, hfree.trans_le (Nat.sub_le _ _)⟩
    · exact hrest.trans (Nat.le_add_left _ _)

/-- The demands of a candidate are placed one after the other. -/
theorem fits_candidate (hpools : PoolsWellFormed pools)
    (hplace : Placeable pools leases now running)
    (hdeficits : hostPoolCapacityDeficits plan running pools leases now = [])
    (happart : ¬CompetesWithItself pools plan) (placed rest : List HostPoolDemand)
    (hsplit : plan.hostPools = placed ++ rest)
    (hfits : Fits (freeSlots pools leases now)
      (slotDemands pools running ++ placed.map (slotDemand pools))) :
    Fits (freeSlots pools leases now)
      (slotDemands pools running ++ plan.hostPools.map (slotDemand pools)) := by
  induction rest generalizing placed with
  | nil =>
    rw [hsplit, append_nil]
    exact hfits
  | cons demand rest ih =>
    apply ih (placed ++ [demand]) (by rw [hsplit, append_assoc]; rfl)
    rw [map_append, ← append_assoc]
    rcases Nat.eq_zero_or_pos demand.slots with hzero | hpos
    · exact hfits.append_zero hzero
    · have hmember : ∀ other ∈ placed, ¬Compete pools demand other := by
        intro other hother hcompete
        refine happart ⟨demand, ?_, other, ?_, hcompete⟩
        · simp [hsplit]
        · simp [hsplit, hother]
      have hgroup := groupTotal_le_available hpools hplace hdeficits demand
      have hown : groupTotal placed demand + demand.slots ≤
          groupTotal plan.hostPools demand := by
        rw [hsplit, groupTotal_append, groupTotal_cons]
        simp [sameGroup]
      have hmeeting := unitsMeeting_le_groupTotal leases now hmember hpos
      have hothers := unitsMeeting_mono (Finset.filter_subset
        (0 < freeSlots pools leases now ·) (slotDemand pools demand).accepts)
        (slotDemands pools running)
      have hamount : (slotDemand pools demand).amount = demand.slots := rfl
      apply hfits.append_one (Finset.filter_subset (0 < freeSlots pools leases now ·) _)
      rw [Finset.sum_filter_of_ne fun ref _ hne => Nat.pos_of_ne_zero hne, unitsMeeting_append,
        hamount]
      omega

variable {vmSlots : List VmSlotCapacity}

theorem deficits_of_blockers
    (hblockers : admissionBlockersWithVmSlots plan running pools leases vmSlots now = []) :
    hostPoolCapacityDeficits plan running pools leases now = [] := by
  rw [admissionBlockersWithVmSlots, append_eq_nil_iff, append_eq_nil_iff,
    map_eq_nil_iff] at hblockers
  exact hblockers.1.2

variable (hpools : PoolsWellFormed pools)

include hpools

/-- Only requests that fit the idle pools are admitted. -/
theorem fitsIdlePools_of_deficits
    (hplace : Placeable pools leases now running)
    (hdeficits : hostPoolCapacityDeficits plan running pools leases now = []) :
    FitsIdlePools pools plan := by
  intro demand hdemand
  have hfits : ¬availableSlotsFor demand pools running leases now < demand.slots := by
    have hnone := filterMap_eq_nil_iff.mp hdeficits demand hdemand
    simpa using hnone
  rw [availableSlotsFor_eq hpools hplace] at hfits
  have hfree := sum_freeSlots_le pools leases now demand
  omega

/-- Admitting a candidate that does not compete with itself. -/
theorem Placeable.admitted
    (hplace : Placeable pools leases now running)
    (hdeficits : hostPoolCapacityDeficits plan running pools leases now = [])
    (hsafe : FitsIdlePools pools plan → ¬CompetesWithItself pools plan) :
    Placeable pools leases now (running ++ [plan]) where
  leased := hplace.leased
  placed := by
    have hfits : Fits (freeSlots pools leases now)
        (slotDemands pools running ++ List.map (slotDemand pools) []) := by
      simpa using hplace.placed
    rw [slotDemands_append, slotDemands_one]
    exact fits_candidate hpools hplace hdeficits
      (hsafe (fitsIdlePools_of_deficits hpools hplace hdeficits)) [] _ rfl hfits

theorem Placeable.admitStep {state : AdmitState}
    (hplace : Placeable pools leases now state.occupied) {request : PendingAdmissionRequest}
    (hsafe : ∀ plan, request.resourcePlan = some plan → FitsIdlePools pools plan →
      ¬CompetesWithItself pools plan) :
    Placeable pools leases now (admitStep pools leases vmSlots now state request).occupied := by
  rcases admitStep_cases pools leases vmSlots now state request with
    ⟨plan, hplan, hblockers, hoccupied, _⟩ | ⟨hoccupied, _⟩
  · rw [hoccupied]
    exact hplace.admitted hpools (deficits_of_blockers hblockers) (hsafe plan hplan)
  · rw [hoccupied]
    exact hplace

theorem Placeable.admitLoop
    (pending : List PendingAdmissionRequest)
    (hsafe : ∀ request ∈ pending, ∀ plan, request.resourcePlan = some plan → FitsIdlePools pools
      plan → ¬CompetesWithItself pools plan) (hplace : Placeable pools leases now running) :
    Placeable pools leases now (admitLoop pools leases vmSlots now pending running).occupied := by
  unfold Scheduler.admitLoop
  generalize hstate : (⟨{}, running⟩ : AdmitState) = state
  have hplace : Placeable pools leases now state.occupied := hstate ▸ hplace
  clear hstate
  induction pending generalizing state with
  | nil => exact hplace
  | cons request rest ih =>
    rw [foldl_cons]
    refine ih (fun other hother => hsafe other (mem_cons_of_mem _ hother)) _ ?_
    exact hplace.admitStep hpools (hsafe request mem_cons_self)

end Pass

end Shipyard.Scheduler
