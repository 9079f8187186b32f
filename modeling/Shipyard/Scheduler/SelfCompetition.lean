import Shipyard.Scheduler.AdmitPass

/-!
# Requests that compete with themselves

The converse for the admission pass: for a request with two groups of demands
that can use a common member there are leases under which each group fits, so
that the request is admitted, though the groups do not fit together.
-/

namespace Shipyard.Scheduler

open HostPool Lib List

variable {pools : List HostPoolConfig}

/-! ## Merging keeps what fits -/

theorem slotDemand_same {first second : HostPoolDemand} (hsame : sameGroup first second = true) :
    (slotDemand pools first).accepts = (slotDemand pools second).accepts := by
  rw [sameGroup_iff] at hsame
  simp only [slotDemand, eligibleIn, hsame.1, hsame.2.2]

variable {cap : MemberRef → Nat}

variable {demand : HostPoolDemand} {free : MemberRef → Nat}

/-- Merging one more demand keeps what fits. -/
theorem fits_addDemand (combined : List HostPoolDemand) {rest : List (Demand MemberRef)}
    (hfits : Fits cap (slotDemand pools demand :: (combined.map (slotDemand pools) ++ rest))) :
    Fits cap ((addDemand combined demand).map (slotDemand pools) ++ rest) := by
  induction combined generalizing rest with
  | nil => exact hfits
  | cons existing others ih =>
    rw [addDemand]
    split
    next hsame =>
      have hordered := hfits.perm (.swap _ _ _)
      exact hordered.merge (slotDemand_same hsame).symm (min_le_left _ _)
    · -- the first demand stays in front: hand it to the rest
      have hback : Fits cap (slotDemand pools demand ::
          (others.map (slotDemand pools) ++ slotDemand pools existing :: rest)) :=
        hfits.perm (List.Perm.cons _ perm_middle.symm)
      exact (ih hback).perm perm_middle

theorem fits_foldl_addDemand (demands combined : List HostPoolDemand)
    (hfits : Fits cap (combined.map (slotDemand pools) ++ demands.map (slotDemand pools))) :
    Fits cap ((demands.foldl addDemand combined).map (slotDemand pools)) := by
  induction demands generalizing combined with
  | nil => simpa using hfits
  | cons demand rest ih =>
    rw [foldl_cons]
    apply ih
    apply fits_addDemand
    exact hfits.perm perm_middle

theorem exists_combined {demands : List HostPoolDemand} (hdemand : demand ∈ demands)
    (hpos : 0 < demand.slots) :
    ∃ merged ∈ combinedDemands demands, sameGroup merged demand = true ∧ 0 < merged.slots := by
  have htotal : demand.slots ≤ groupTotal demands demand := by
    apply single_le_sum (fun _ _ => Nat.zero_le _)
    apply mem_map_of_mem
    rw [mem_filter]
    exact ⟨hdemand, by simp [sameGroup]⟩
  have hslots := groupTotal_le_combined demands demand
  rw [groupSlots] at hslots
  cases hfind : (combinedDemands demands).find? (sameGroup · demand) with
  | none =>
    rw [hfind, Option.elim_none] at hslots
    simp only [u32Max] at hslots
    omega
  | some merged =>
    rw [hfind, Option.elim_some] at hslots
    simp only [u32Max] at hslots
    have hsame := find?_some hfind
    exact ⟨merged, mem_of_find?_eq_some hfind, hsame, by omega⟩

/-! ## Leases that leave given slots -/

/-- All members that the configuration names. -/
def memberRefs (pools : List HostPoolConfig) : List MemberRef :=
  (pools.flatMap fun pool => pool.members.map fun member => (pool.name, member.id)).dedup

def leaseOn (ref : MemberRef) : HostPoolLease where
  leaseId := ""
  poolName := ref.1
  memberId := ref.2
  targetName := ""
  backend := ""
  host := none
  jobId := none
  branch := ""
  sha := ""
  ownerPid := 0
  acquiredAt := 0
  heartbeatAt := 0
  expiresAt := 1

/-- Leases that leave the given slots free. -/
def leasesLeaving (pools : List HostPoolConfig) (free : MemberRef → Nat) : List HostPoolLease :=
  (memberRefs pools).flatMap fun ref =>
    List.replicate (maxConcurrencyAt pools ref - free ref) (leaseOn ref)

theorem activeLeasesAt_replicate (ref other : MemberRef) (count : Nat) :
    activeLeasesAt (List.replicate count (leaseOn other)) 0 ref =
      if ref = other then count else 0 := by
  rw [activeLeasesAt, countP_replicate]
  by_cases heq : ref = other
  · subst heq
    simp [leaseOn, HostPoolLease.isStale]
  · rw [if_neg heq, if_neg]
    intro hactive
    rw [Bool.and_eq_true, Bool.and_eq_true] at hactive
    exact heq (Prod.ext (of_decide_eq_true hactive.1.1) (of_decide_eq_true hactive.1.2)).symm

theorem mem_memberRefs {ref : MemberRef} (hpos : 0 < maxConcurrencyAt pools ref) :
    ref ∈ memberRefs pools := by
  rw [maxConcurrencyAt] at hpos
  cases hpool : poolNamed pools ref.1 with
  | none => simp [hpool] at hpos
  | some pool =>
    cases hmember : pool.members.find? (·.id = ref.2) with
    | none => simp [hpool, hmember] at hpos
    | some member =>
      obtain ⟨hmem, hname⟩ := poolNamed_mem hpool
      have hid : member.id = ref.2 := by simpa using find?_some hmember
      rw [memberRefs, mem_dedup, mem_flatMap]
      refine ⟨pool, hmem, mem_map.mpr ⟨member, mem_of_find?_eq_some hmember, ?_⟩⟩
      rw [hname, hid]

theorem activeLeasesAt_leasesLeaving (free : MemberRef → Nat) (ref : MemberRef) :
    activeLeasesAt (leasesLeaving pools free) 0 ref = maxConcurrencyAt pools ref - free ref := by
  have hsum : activeLeasesAt (leasesLeaving pools free) 0 ref =
      ∑ other ∈ (memberRefs pools).toFinset,
        if ref = other then maxConcurrencyAt pools other - free other else 0 := by
    have hnodup : (memberRefs pools).Nodup := nodup_dedup _
    rw [sum_toFinset _ hnodup, activeLeasesAt, leasesLeaving, countP_flatMap]
    congr 1
    apply map_congr_left
    intro other _
    exact activeLeasesAt_replicate ref other _
  rw [hsum, Finset.sum_ite_eq]
  by_cases hmem : ref ∈ memberRefs pools
  · rw [if_pos (mem_toFinset.mpr hmem)]
  · have hzero : maxConcurrencyAt pools ref = 0 := by
      by_contra hne
      exact hmem (mem_memberRefs (Nat.pos_of_ne_zero hne))
    rw [if_neg fun h => hmem (mem_toFinset.mp h), hzero, Nat.zero_sub]

theorem freeSlots_leasesLeaving (hle : ∀ ref, free ref ≤ maxConcurrencyAt pools ref) :
    freeSlots pools (leasesLeaving pools free) 0 = free := by
  funext ref
  rw [freeSlots, activeLeasesAt_leasesLeaving]
  exact Nat.sub_sub_self (hle ref)

theorem placeable_leasesLeaving (hpools : PoolsWellFormed pools) (free : MemberRef → Nat) :
    Placeable pools (leasesLeaving pools free) 0 [] where
  leased name pool hpool member hmember := by
    rw [activeLeasesAt_leasesLeaving, maxConcurrencyAt_member hpools hpool hmember]
    exact Nat.sub_le _ _
  placed := fits_nil _

/-! ## A pass over one request -/

variable {plan : JobResourcePlan}

/-- A request each of whose groups fits alone is admitted when nothing runs. -/
theorem occupiedAfterPass_one (hpools : PoolsWellFormed pools) {leases : List HostPoolLease}
    {now : Time} (hplace : Placeable pools leases now [])
    (halone : ∀ demand ∈ combinedDemands plan.hostPools, demand.slots ≤ ∑ ref ∈ (slotDemand pools
      demand).accepts, freeSlots pools leases now ref) :
    occupiedAfterPass pools leases now [⟨"", some plan, none⟩] [] = [plan] := by
  have hdeficits : hostPoolCapacityDeficits plan [] pools leases now = [] := by
    rw [hostPoolCapacityDeficits, filterMap_eq_nil_iff]
    intro demand hdemand
    have havailable := availableSlotsFor_eq hpools hplace demand
    have hempty : unitsMeeting (slotDemand pools demand).accepts (slotDemands pools []) = 0 := rfl
    rw [hempty, Nat.sub_zero] at havailable
    simp only [ite_eq_right_iff, reduceCtorEq, imp_false, not_lt]
    rw [havailable]
    exact halone demand hdemand
  have hblockers : admissionBlockersWithVmSlots plan [] pools leases [] now = [] := by
    simp [admissionBlockersWithVmSlots, exclusiveClaimBlockers, hdeficits, vmSlotCapacityDeficits]
  simp [occupiedAfterPass, admitLoop, admitStep, hblockers]

/-- Whatever capacities each group of a request fits in, a pass admits it there;
when it keeps plans placeable, the groups fit together. -/
theorem fits_of_pass (hpools : PoolsWellFormed pools)
    (hkeeps : ∀ leases now, Placeable pools leases now [] → Placeable pools leases now
      (occupiedAfterPass pools leases now [⟨"", some plan, none⟩] []))
    (hle : ∀ ref, free ref ≤ maxConcurrencyAt pools ref)
    (halone : ∀ demand ∈ combinedDemands plan.hostPools, demand.slots ≤ ∑ ref ∈ (slotDemand pools
      demand).accepts, free ref) :
    Fits free ((combinedDemands plan.hostPools).map (slotDemand pools)) := by
  have hplace := placeable_leasesLeaving hpools free
  have hfree := freeSlots_leasesLeaving hle
  have hafter := hkeeps _ _ hplace
  rw [occupiedAfterPass_one hpools hplace (by rw [hfree]; exact halone)] at hafter
  have hplaced := hafter.placed
  rw [hfree, slotDemands_one] at hplaced
  exact fits_foldl_addDemand _ [] hplaced

/-- Two demands that compete can be given capacities in which each group of the
request fits, but not all of them. -/
theorem not_competes_of_fits
    (hfits : ∀ free : MemberRef → Nat, (∀ ref, free ref ≤ maxConcurrencyAt pools ref) → (∀ demand ∈
      combinedDemands plan.hostPools, demand.slots ≤ ∑ ref ∈ (slotDemand pools demand).accepts,
      free ref) → Fits free ((combinedDemands plan.hostPools).map (slotDemand pools)))
    (hidle : FitsIdlePools pools plan) : ¬CompetesWithItself pools plan := by
  rintro ⟨demand, hdemand, other, hother, hcompete⟩
  have hall := hfits (maxConcurrencyAt pools) (fun _ => le_rfl) (by
    intro merged hmerged
    rw [sum_accepts]
    exact hidle merged hmerged)
  obtain ⟨first, hfirst, hsame, hpos⟩ := exists_combined hdemand hcompete.asks
  obtain ⟨second, hsecond, hsame', hpos'⟩ := exists_combined hother hcompete.asks'
  obtain ⟨id, hid, hslots⟩ := hcompete.shared
  rw [Finset.mem_inter] at hid
  obtain ⟨i, rfl⟩ := mem_iff_get.mp hfirst
  obtain ⟨j, rfl⟩ := mem_iff_get.mp hsecond
  have hne : i ≠ j := by
    rintro rfl
    have happart := hcompete.apart
    grind [sameGroup]
  have hlength : (combinedDemands plan.hostPools).length =
      ((combinedDemands plan.hostPools).map (slotDemand pools)).length := by simp
  have hget : ∀ k, ((combinedDemands plan.hostPools).map (slotDemand pools)).get (k.cast hlength) =
      slotDemand pools ((combinedDemands plan.hostPools).get k) := by
    intro k
    simp
  have hshared : (demand.poolName, id) ∈ (slotDemand pools demand).accepts :=
    Finset.mem_image_of_mem _ hid.1
  have hshared' : (demand.poolName, id) ∈ (slotDemand pools other).accepts := by
    rw [hcompete.samePool]
    exact Finset.mem_image_of_mem _ hid.2
  obtain ⟨tight, hle, halone, hnot⟩ := hall.exists_tight
    (i := i.cast hlength) (j := j.cast hlength) (m := (demand.poolName, id))
    (fun heq => hne (Fin.cast_injective _ heq))
    (by rw [hget]; exact hpos) (by rw [hget]; exact hpos')
    (by rw [hget, slotDemand_same hsame]; exact hshared)
    (by rw [hget, slotDemand_same hsame']; exact hshared') hslots
  refine hnot (hfits tight hle ?_)
  intro merged hmerged
  exact halone (slotDemand pools merged) (mem_map_of_mem hmerged)

/-! ## The pass over all requests -/

/-- A pool whose one member can do both kinds of work, one at a time. -/
def macPool : HostPoolConfig where
  name := "mac"
  members := [⟨"m1", 1, ["macos", "arm64"]⟩]

def macosTarget : HostPoolDemand where
  poolName := "mac"
  requires := ["macos"]
  capabilityKey := "macos"

def arm64Target : HostPoolDemand where
  poolName := "mac"
  requires := ["arm64"]
  capabilityKey := "arm64"

/-- A ship request for the given host-pool targets. -/
def shipOn (demands : List HostPoolDemand) : PendingAdmissionRequest where
  jobId := "job-1"
  resourcePlan := some { targets := demands.map (·.capabilityKey), hostPools := demands }
  missingRequestReason := none

theorem macPool_wellFormed : PoolsWellFormed [macPool] where
  distinct := by decide
  bounded := by decide

theorem placeable_idle : Placeable [macPool] [] 0 [] where
  leased _ _ _ _ _ := Nat.zero_le _
  placed := fits_nil _

end Shipyard.Scheduler
