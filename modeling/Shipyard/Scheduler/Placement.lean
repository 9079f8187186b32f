import Shipyard.Scheduler.Capacity
import Shipyard.Lib.Assignment

/-!
# Placing resource plans on pool members

What the host-pool check is for: all demanded slots and all active leases have
room on the members of the pools at the same time. Members are named by their
pool and their id. On pools with distinct member ids, the capacity that
`availableSlotsFor` computes is what the eligible members hold beyond the leases
and beyond every running demand that could use one of them.
-/

namespace Shipyard.Scheduler

open HostPool Lib List Option

/-- A member of a pool: the pool's name and the member's id. -/
abbrev MemberRef := String × String

def eligibleIn (pools : List HostPoolConfig) (demand : HostPoolDemand) : Finset String :=
  (poolNamed pools demand.poolName).elim ∅ (eligibleMemberIds · demand.requires)

/-- A host-pool demand as a demand for slots of members. -/
def slotDemand (pools : List HostPoolConfig) (demand : HostPoolDemand) : Demand MemberRef where
  accepts := (eligibleIn pools demand).image (Prod.mk demand.poolName)
  amount := demand.slots

def slotDemands (pools : List HostPoolConfig) (plans : List JobResourcePlan) :
    List (Demand MemberRef) :=
  (plans.flatMap (·.hostPools)).map (slotDemand pools)

def maxConcurrencyAt (pools : List HostPoolConfig) (ref : MemberRef) : Nat :=
  (poolNamed pools ref.1).elim 0 fun pool =>
    (pool.members.find? (·.id = ref.2)).elim 0 (·.maxConcurrency)

def activeLeasesAt (leases : List HostPoolLease) (now : Time) (ref : MemberRef) : Nat :=
  leases.countP fun lease =>
    lease.poolName = ref.1 && lease.memberId = ref.2 && !lease.isStale now

def freeSlots (pools : List HostPoolConfig) (leases : List HostPoolLease) (now : Time)
    (ref : MemberRef) : Nat :=
  maxConcurrencyAt pools ref - activeLeasesAt leases now ref

/-- The plans and the active leases have room on the pool members at once, each
demanded slot on a member with all required capabilities. -/
structure Placeable (pools : List HostPoolConfig) (leases : List HostPoolLease) (now : Time)
    (plans : List JobResourcePlan) : Prop where
  leased : ∀ name pool, poolNamed pools name = some pool → ∀ member ∈ pool.members,
    activeLeasesAt leases now (name, member.id) ≤ member.maxConcurrency
  placed : Fits (freeSlots pools leases now) (slotDemands pools plans)

/-- Pools whose member ids name one member each and whose slots `u32` sums can
hold. -/
structure PoolsWellFormed (pools : List HostPoolConfig) : Prop where
  distinct : ∀ pool ∈ pools, (pool.members.map (·.id)).Nodup
  bounded : ∀ pool ∈ pools, (pool.members.map (·.maxConcurrency)).sum < u32Max

/-! ## Sums over members -/

section Members

variable {members : List HostPoolMemberConfig}

theorem find?_member (hnodup : (members.map (·.id)).Nodup) {member : HostPoolMemberConfig}
    (hmember : member ∈ members) : members.find? (·.id = member.id) = some member := by
  induction members with
  | nil => exact absurd hmember not_mem_nil
  | cons first rest ih =>
    rw [map_cons, nodup_cons] at hnodup
    rw [find?_cons]
    rcases mem_cons.mp hmember with rfl | hrest
    · simp
    · have hne : first.id ≠ member.id :=
        fun heq => hnodup.1 (heq ▸ List.mem_map_of_mem hrest)
      simp only [hne, decide_false]
      exact ih hnodup.2 hrest

/-- Adding up the slots of the members with given ids, member by member or id by
id. -/
theorem sum_maxConcurrency (hnodup : (members.map (·.id)).Nodup) (ids : Finset String) :
    ((members.filter (·.id ∈ ids)).map (·.maxConcurrency)).sum =
      ∑ id ∈ ids, (members.find? (·.id = id)).elim 0 (·.maxConcurrency) := by
  induction members with
  | nil => simp
  | cons first rest ih =>
    rw [map_cons, nodup_cons] at hnodup
    have hsplit : ∀ id ∈ ids,
        ((first :: rest).find? (·.id = id)).elim 0 (·.maxConcurrency) =
          (if id = first.id then first.maxConcurrency else 0) +
            (rest.find? (·.id = id)).elim 0 (·.maxConcurrency) := by
      intro id _
      rw [find?_cons]
      by_cases heq : id = first.id
      · -- the first member's id names no member of the rest
        have hnone : rest.find? (·.id = id) = none := by
          rw [find?_eq_none]
          intro member hmember
          have hne : member.id ≠ id :=
            fun hid => hnodup.1 (heq ▸ hid ▸ List.mem_map_of_mem hmember)
          simpa using hne
        rw [hnone]
        simp [heq]
      · simp [heq, Ne.symm heq]
    rw [Finset.sum_congr rfl hsplit, Finset.sum_add_distrib, ← ih hnodup.2,
      Finset.sum_ite_eq' ids first.id, filter_cons]
    by_cases hfirst : first.id ∈ ids <;> simp [hfirst]

end Members

theorem countP_leases (leases : List HostPoolLease) (now : Time) (name : String)
    (ids : Finset String) :
    (leases.countP fun lease =>
      lease.poolName = name && lease.memberId ∈ ids && !lease.isStale now) =
        ∑ id ∈ ids, activeLeasesAt leases now (name, id) := by
  induction leases with
  | nil => simp [activeLeasesAt]
  | cons lease rest ih =>
    have hsplit : ∀ id ∈ ids, activeLeasesAt (lease :: rest) now (name, id) =
        activeLeasesAt rest now (name, id) +
          if id = lease.memberId then
            if lease.poolName = name && !lease.isStale now then 1 else 0 else 0 := by
      intro id _
      by_cases hid : id = lease.memberId
      · simp [activeLeasesAt, countP_cons, hid]
      · simp [activeLeasesAt, hid, Ne.symm hid]
    rw [countP_cons, ih, Finset.sum_congr rfl hsplit, Finset.sum_add_distrib,
      Finset.sum_ite_eq' ids lease.memberId]
    by_cases hmember : lease.memberId ∈ ids <;> simp [hmember]

/-! ## What the capacity check computes -/

section Capacity

variable {pools : List HostPoolConfig} {leases : List HostPoolLease} {now : Time}
  {plans : List JobResourcePlan} {demand : HostPoolDemand}

theorem sum_accepts (pools : List HostPoolConfig) (demand : HostPoolDemand) (f : MemberRef → Nat) :
    ∑ ref ∈ (slotDemand pools demand).accepts, f ref =
      ∑ id ∈ eligibleIn pools demand, f (demand.poolName, id) :=
  Finset.sum_image fun _ _ _ _ heq => (Prod.mk.inj heq).2

variable {pool : HostPoolConfig}

theorem exists_member_of_eligible {requires : List String} {id : String}
    (hid : id ∈ eligibleMemberIds pool requires) : ∃ member ∈ pool.members, member.id = id := by
  simp only [eligibleMemberIds, List.mem_toFinset, List.mem_map, mem_filter] at hid
  obtain ⟨member, ⟨hmember, _⟩, rfl⟩ := hid
  exact ⟨member, hmember, rfl⟩

variable {name : String}

theorem maxConcurrencyAt_member (hpools : PoolsWellFormed pools)
    (hpool : poolNamed pools name = some pool) {member : HostPoolMemberConfig}
    (hmember : member ∈ pool.members) :
    maxConcurrencyAt pools (name, member.id) = member.maxConcurrency := by
  have hfind := find?_member (hpools.distinct pool (poolNamed_mem hpool).1) hmember
  simp [maxConcurrencyAt, hpool, hfind]

/-- No set of members of a pool has more slots than a `u32` can hold. -/
theorem sum_maxConcurrencyAt_lt (hpools : PoolsWellFormed pools)
    (hpool : poolNamed pools name = some pool) (ids : Finset String) :
    ∑ id ∈ ids, maxConcurrencyAt pools (name, id) < u32Max := by
  have hmem := (poolNamed_mem hpool).1
  have hsum := sum_maxConcurrency (hpools.distinct pool hmem) ids
  simp only [maxConcurrencyAt, hpool, elim_some]
  rw [← hsum]
  exact ((filter_sublist.map _).sum_le_sum fun _ _ => Nat.zero_le _).trans_lt
    (hpools.bounded pool hmem)

theorem sumU32_total (hpools : PoolsWellFormed pools) (hpool : poolNamed pools name = some pool)
    (ids : Finset String) :
    sumU32 ((pool.members.filter (·.id ∈ ids)).map (·.maxConcurrency)) =
      ∑ id ∈ ids, maxConcurrencyAt pools (name, id) := by
  have hbound := sum_maxConcurrencyAt_lt hpools hpool ids
  have hsum := sum_maxConcurrency (hpools.distinct pool (poolNamed_mem hpool).1) ids
  simp only [maxConcurrencyAt, hpool, elim_some] at hbound ⊢
  rw [sumU32, hsum]
  exact Nat.mod_eq_of_lt (by omega)

/-- Two demands can use a common member exactly when they are on one pool and
their eligible members meet. -/
theorem not_disjoint_accepts {other : HostPoolDemand}
    (hpool : poolNamed pools demand.poolName = some pool) :
    ¬Disjoint (slotDemand pools other).accepts (slotDemand pools demand).accepts ↔
      other.poolName = demand.poolName ∧
        ¬Disjoint (eligibleMemberIds pool other.requires)
          (eligibleMemberIds pool demand.requires) := by
  by_cases hname : other.poolName = demand.poolName
  · simp only [slotDemand, eligibleIn, hpool, elim_some, hname, true_and]
    rw [Finset.disjoint_image (Prod.mk_right_injective _)]
  · simp only [hname, false_and, iff_false, not_not]
    rw [Finset.disjoint_left]
    intro ref href href'
    simp only [slotDemand, Finset.mem_image] at href href'
    obtain ⟨_, _, rfl⟩ := href
    obtain ⟨_, _, heq⟩ := href'
    exact hname (Prod.mk.inj heq).1.symm

/-- The running reservations are the units of the running demands that accept
one of the candidate's members. -/
theorem reservations_eq (hpool : poolNamed pools demand.poolName = some pool) :
    (((plans.flatMap (·.hostPools)).filter fun other =>
      other.poolName = demand.poolName
        && ¬Disjoint (eligibleMemberIds pool other.requires)
          (eligibleMemberIds pool demand.requires)).map (·.slots)).sum =
      unitsMeeting (slotDemand pools demand).accepts (slotDemands pools plans) := by
  rw [unitsMeeting, slotDemands, List.filter_map, List.map_map]
  congr 2
  apply filter_congr
  intro other _
  simp only [Function.comp_apply, not_disjoint_accepts hpool, Bool.decide_and]

theorem unitsMeeting_lt (hpools : PoolsWellFormed pools) (hplace : Placeable pools leases now plans)
    (hpool : poolNamed pools demand.poolName = some pool) :
    unitsMeeting (slotDemand pools demand).accepts (slotDemands pools plans) < u32Max := by
  let refs : Finset MemberRef :=
    (pool.members.map (·.id)).toFinset.image (Prod.mk demand.poolName)
  have hinside : ∀ other ∈ slotDemands pools plans,
      ¬Disjoint other.accepts (slotDemand pools demand).accepts → other.accepts ⊆ refs := by
    intro other hother hmeets
    obtain ⟨config, _, rfl⟩ := List.mem_map.mp hother
    have hname := ((not_disjoint_accepts hpool).mp hmeets).1
    intro ref href
    simp only [slotDemand, eligibleIn, hname, hpool, elim_some, Finset.mem_image] at href
    obtain ⟨id, hid, rfl⟩ := href
    obtain ⟨member, hmember, rfl⟩ := exists_member_of_eligible hid
    exact Finset.mem_image_of_mem _ (List.mem_toFinset.mpr (List.mem_map_of_mem hmember))
  calc unitsMeeting (slotDemand pools demand).accepts (slotDemands pools plans)
      ≤ ∑ ref ∈ refs, freeSlots pools leases now ref := hplace.placed.unitsMeeting_le hinside
    _ ≤ ∑ ref ∈ refs, maxConcurrencyAt pools ref :=
        Finset.sum_le_sum fun _ _ => Nat.sub_le _ _
    _ = ∑ id ∈ (pool.members.map (·.id)).toFinset,
          maxConcurrencyAt pools (demand.poolName, id) :=
        Finset.sum_image fun _ _ _ _ heq => (Prod.mk.inj heq).2
    _ < u32Max := sum_maxConcurrencyAt_lt hpools hpool _

/-- The computed capacity is what the eligible members hold beyond leases and
beyond all running demands that could use one of them. -/
theorem availableSlotsFor_eq (hpools : PoolsWellFormed pools)
    (hplace : Placeable pools leases now plans) (demand : HostPoolDemand) :
    availableSlotsFor demand pools plans leases now =
      ∑ ref ∈ (slotDemand pools demand).accepts, freeSlots pools leases now ref -
        unitsMeeting (slotDemand pools demand).accepts (slotDemands pools plans) := by
  rw [sum_accepts]
  cases hpool : poolNamed pools demand.poolName with
  | none => simp [availableSlotsFor, hpool, eligibleIn]
  | some pool =>
    have hle : ∀ id ∈ eligibleMemberIds pool demand.requires,
        activeLeasesAt leases now (demand.poolName, id) ≤
          maxConcurrencyAt pools (demand.poolName, id) := by
      intro id hid
      obtain ⟨member, hmember, rfl⟩ := exists_member_of_eligible hid
      rw [maxConcurrencyAt_member hpools hpool hmember]
      exact hplace.leased _ pool hpool member hmember
    have htotal := sum_maxConcurrencyAt_lt hpools hpool (eligibleMemberIds pool demand.requires)
    have hleases := Finset.sum_le_sum hle
    have hreserved := unitsMeeting_lt hpools hplace hpool
    simp only [availableSlotsFor, eligibleIn, hpool, elim_some, freeSlots]
    rw [sumU32_total hpools hpool, countP_leases, Finset.sum_tsub_distrib _ hle]
    rw [sumU32, reservations_eq hpool, Nat.mod_eq_of_lt (by omega), Nat.min_eq_left (by omega)]

end Capacity

end Shipyard.Scheduler
