import Shipyard.Job

/-!
# Host pools and their leases

The configuration and the lease records of `host_pool.rs`. A pool is looked up
by its name and a member by its id; a lease names both.
-/

namespace Shipyard.HostPool

structure HostPoolMemberConfig where
  id : String
  maxConcurrency : Nat
  capabilities : List String
deriving DecidableEq, Repr

structure HostPoolConfig where
  name : String
  members : List HostPoolMemberConfig
deriving DecidableEq, Repr

structure HostPoolLease where
  leaseId : String
  poolName : String
  memberId : String
  targetName : String
  backend : String
  host : Option String
  jobId : Option String
  branch : String
  sha : String
  ownerPid : Nat
  acquiredAt : Time
  heartbeatAt : Time
  expiresAt : Time
deriving DecidableEq, Repr

/-- A lease is stale from its expiry on. -/
def HostPoolLease.isStale (lease : HostPoolLease) (now : Time) : Bool := lease.expiresAt ≤ now

/-- The pool that a map built from the list holds under the name: the last one. -/
def poolNamed (pools : List HostPoolConfig) (name : String) : Option HostPoolConfig :=
  pools.reverse.find? (·.name = name)

theorem poolNamed_mem {pools : List HostPoolConfig} {name : String} {pool : HostPoolConfig}
    (hpool : poolNamed pools name = some pool) : pool ∈ pools ∧ pool.name = name := by
  have hmem := List.mem_of_find?_eq_some hpool
  have hname := List.find?_some hpool
  exact ⟨List.mem_reverse.mp hmem, by simpa using hname⟩

end Shipyard.HostPool
