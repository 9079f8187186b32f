import Shipyard.Scheduler.Capacity
import Shipyard.Queue.Basic
import Mathlib.Data.Prod.Lex

/-!
# Planning an admission pass from queue rows

The planning half of a drain pass in `queue_scheduler.rs`. Ship jobs are grouped
by canonical repository and pull request. In each group a running job with a
live worker blocks all pending ones, a running job whose worker went silent is
set aside to be reaped, and of the pending jobs only the newest stays. What is
left is planned against the resources of the running jobs.
-/

namespace Shipyard.Scheduler

open HostPool Lib List SortedMap

/-- `DEFAULT_RUNNING_JOB_STALE_SECONDS` in nanoseconds. -/
def defaultRunningJobStaleAfter : Time := 180 * 1000000000

def staleRunningCancelReason : String :=
  "Running worker heartbeat stale; cancelled to unblock queued work"

/-! ## Requests of jobs -/

def loadResourcePlan (jobId : String) (store : QueueRequestStore) :
    Except String (Option JobResourcePlan) :=
  match store.load jobId with
  | .error error => .error error
  | .ok none => .ok none
  | .ok (some envelope) =>
    if envelope.jobId ≠ jobId then
      .error ("invalid queue request snapshot: queued execution request for " ++ jobId ++
        " belongs to " ++ envelope.jobId)
    else .ok (some envelope.resourcePlan)

/-- A canonical repository and a pull request, in the order of the source's map. -/
abbrev ShipKey := String ×ₗ Nat

/-- The pull request of a ship job, and whether a foreground process runs it. -/
def loadShipKey (jobId : String) (store : QueueRequestStore) : Option (ShipKey × Bool) :=
  match store.load jobId with
  | .ok (some envelope) =>
    if envelope.jobId ≠ jobId then none
    else
      match envelope.request with
      | .ship request =>
        some (toLex (canonicalRepository request.repo, request.pr),
          envelope.isForegroundOwned)
      | .run _ => none
  | _ => none

def pendingAdmissionRequest (store : QueueRequestStore) (job : Job) : PendingAdmissionRequest :=
  match loadResourcePlan job.id store with
  | .ok (some resourcePlan) => ⟨job.id, some resourcePlan, none⟩
  | .ok none => ⟨job.id, none, some orphanedPendingRequestReason⟩
  | .error error => ⟨job.id, none, some error⟩

/-! ## Ship jobs of one pull request -/

structure SamePrShipPendingCancellation where
  jobId : String
  supersededByJobId : String
  repo : String
  pr : Nat
  reason : String
deriving DecidableEq, Repr

structure SamePrShipStaleRunningCancellation where
  jobId : String
  repo : String
  pr : Nat
  reason : String
deriving DecidableEq, Repr

structure SamePrShipRunningConflict where
  pendingJobId : String
  runningJobId : String
  repo : String
  pr : Nat
  reason : String
deriving DecidableEq, Repr

structure SamePrShipAdmission where
  pendingCancellations : List SamePrShipPendingCancellation := []
  runningConflicts : List SamePrShipRunningConflict := []
  staleRunningCancellations : List SamePrShipStaleRunningCancellation := []
deriving DecidableEq, Repr

structure SamePrShipGroup where
  pending : List Job := []
  running : List Job := []
  staleRunning : List Job := []

def samePrSupersededReason (repo : String) (pr : Nat) (newerJobId : String) : String :=
  "Superseded by newer queued ship for " ++ repo ++ "#" ++ toString pr ++ " (" ++ newerJobId ++ ")"

def samePrRunningReason (repo : String) (pr : Nat) (runningJobId : String) : String :=
  "Same-PR ship already running for " ++ repo ++ "#" ++ toString pr ++ " (" ++ runningJobId ++ ")"

/-- A running job counts as stale only when a foreground process owns it. -/
def SamePrShipGroup.add (now staleAfter : Time) (foregroundOwned : Bool) (job : Job)
    (group : SamePrShipGroup) : SamePrShipGroup :=
  match job.status with
  | .pending => { group with pending := group.pending ++ [job] }
  | .running =>
    if foregroundOwned && job.isStaleRunning now staleAfter then
      { group with staleRunning := group.staleRunning ++ [job] }
    else { group with running := group.running ++ [job] }
  | _ => group

def addToGroups (store : QueueRequestStore) (now staleAfter : Time)
    (groups : SortedMap ShipKey SamePrShipGroup) (job : Job) :
    SortedMap ShipKey SamePrShipGroup :=
  match loadShipKey job.id store with
  | none => groups
  | some (key, foregroundOwned) =>
    groups.insert key (((groups.get? key).getD {}).add now staleAfter foregroundOwned job)

def samePrShipGroups (jobs : List Job) (store : QueueRequestStore) (now staleAfter : Time) :
    SortedMap ShipKey SamePrShipGroup :=
  (jobs.filter fun job => job.status = .pending || job.status = .running).foldl
    (addToGroups store now staleAfter) .empty

/-- Older first, then by id. -/
def oldestFirst (left right : Job) : Prop :=
  left.createdAt < right.createdAt ∨ (left.createdAt = right.createdAt ∧ left.id ≤ right.id)

instance : DecidableRel oldestFirst := fun _ _ => inferInstanceAs (Decidable (_ ∨ _))

/-- The decisions for the ship jobs of one pull request. -/
def SamePrShipGroup.admission (key : ShipKey) (group : SamePrShipGroup) : SamePrShipAdmission :=
  let repo := (ofLex key).1
  let pr := (ofLex key).2
  let pending := group.pending.insertionSort oldestFirst
  let stale := group.staleRunning.map fun job =>
    { jobId := job.id, repo, pr, reason := staleRunningCancelReason }
  match group.running.insertionSort oldestFirst with
  | running :: _ =>
    { runningConflicts := pending.map fun job =>
        { pendingJobId := job.id, runningJobId := running.id, repo, pr
          reason := samePrRunningReason repo pr running.id }
      staleRunningCancellations := stale }
  | [] =>
    match pending.getLast? with
    | none => { staleRunningCancellations := stale }
    | some newest =>
      { pendingCancellations := (pending.reverse.drop 1).map fun job =>
          { jobId := job.id, supersededByJobId := newest.id, repo, pr
            reason := samePrSupersededReason repo pr newest.id }
        staleRunningCancellations := stale }

def samePrShipAdmission (jobs : List Job) (store : QueueRequestStore) (now staleAfter : Time) :
    SamePrShipAdmission :=
  let decisions := (samePrShipGroups jobs store now staleAfter).entries.map fun entry =>
    entry.2.admission entry.1
  { pendingCancellations := decisions.flatMap (·.pendingCancellations)
    runningConflicts := decisions.flatMap (·.runningConflicts)
    staleRunningCancellations := decisions.flatMap (·.staleRunningCancellations) }

variable (admission : SamePrShipAdmission)

/-- Pending jobs that a pass leaves out because of other ship jobs of their PR. -/
def SamePrShipAdmission.excluded : List String :=
  admission.pendingCancellations.map (·.jobId) ++ admission.runningConflicts.map (·.pendingJobId)

/-- Running jobs that a pass expects to reap. -/
def SamePrShipAdmission.staleReaped : List String :=
  admission.staleRunningCancellations.map (·.jobId)

/-! ## The pass -/

structure RequestLoadError where
  jobId : String
  reason : String
deriving DecidableEq, Repr

structure AlreadyMergedCancellation where
  jobId : String
  pr : Nat
  repository : String
  headSha : String
deriving DecidableEq, Repr

structure RequestBackedAdmitPass where
  plan : AdmitPassPlan
  runningRequestErrors : List RequestLoadError
  samePrShipAdmission : SamePrShipAdmission
  alreadyMergedCancellations : List AlreadyMergedCancellation
deriving DecidableEq, Repr

def sortedPendingJobs (jobs : List Job) : List Job :=
  (jobs.filter fun job => job.status = .pending).insertionSort Queue.pendingBefore

/-- The pending jobs that a pass considers. -/
def consideredPending (jobs : List Job) (admission : SamePrShipAdmission) (now : Time) :
    List Job :=
  ((sortedPendingJobs jobs).filter fun job => job.id ∉ admission.excluded).filter fun job =>
    job.schedulerDeferUntil.all (· ≤ now)

/-- The running jobs whose resources a pass counts. -/
def accountedRunning (jobs : List Job) (admission : SamePrShipAdmission) : List Job :=
  jobs.filter fun job => job.status = .running && job.id ∉ admission.staleReaped

/-- The plan of a running job, or why it is not known. -/
def runningPlan (store : QueueRequestStore) (job : Job) : JobResourcePlan ⊕ RequestLoadError :=
  match loadResourcePlan job.id store with
  | .ok (some plan) => .inl plan
  | .ok none => .inr ⟨job.id, orphanedPendingRequestReason⟩
  | .error error => .inr ⟨job.id, orphanedPendingRequestReason ++ ": " ++ error⟩

def planAdmitPassFromJobsWithVmSlots (jobs : List Job) (store : QueueRequestStore)
    (pools : List HostPoolConfig) (leases : List HostPoolLease) (vmSlots : List VmSlotCapacity)
    (now : Time) : RequestBackedAdmitPass :=
  let admission := samePrShipAdmission jobs store now defaultRunningJobStaleAfter
  let pending := (consideredPending jobs admission now).map (pendingAdmissionRequest store)
  let loaded := (accountedRunning jobs admission).map (runningPlan store)
  { plan := planAdmitPassWithVmSlots pools leases vmSlots now pending
      (loaded.filterMap Sum.getLeft?)
    runningRequestErrors := loaded.filterMap Sum.getRight?
    samePrShipAdmission := admission
    alreadyMergedCancellations := [] }

/-! ## What the groups hold -/

section Groups

variable {store : QueueRequestStore} {now staleAfter : Time}

/-- A group that holds every job of another one. -/
structure SamePrShipGroup.Extends (group larger : SamePrShipGroup) : Prop where
  pending : group.pending ⊆ larger.pending
  running : group.running ⊆ larger.running
  staleRunning : group.staleRunning ⊆ larger.staleRunning

theorem SamePrShipGroup.Extends.refl (group : SamePrShipGroup) : group.Extends group :=
  ⟨List.Subset.refl _, List.Subset.refl _, List.Subset.refl _⟩

theorem SamePrShipGroup.Extends.trans {first second third : SamePrShipGroup}
    (hfirst : first.Extends second) (hsecond : second.Extends third) : first.Extends third where
  pending := List.Subset.trans hfirst.pending hsecond.pending
  running := List.Subset.trans hfirst.running hsecond.running
  staleRunning := List.Subset.trans hfirst.staleRunning hsecond.staleRunning

theorem SamePrShipGroup.extends_add (foregroundOwned : Bool) (job : Job)
    (group : SamePrShipGroup) : group.Extends (group.add now staleAfter foregroundOwned job) := by
  unfold add
  split
  · exact ⟨subset_append_left _ _, List.Subset.refl _, List.Subset.refl _⟩
  · split
    · exact ⟨List.Subset.refl _, List.Subset.refl _, subset_append_left _ _⟩
    · exact ⟨List.Subset.refl _, subset_append_left _ _, List.Subset.refl _⟩
  · exact .refl group

variable {key : ShipKey}

variable {group : SamePrShipGroup} {jobs : List Job} {job : Job}

theorem addToGroups_extends (groups : SortedMap ShipKey SamePrShipGroup) (job : Job)
    (hget : groups.get? key = some group) :
    ∃ larger, (addToGroups store now staleAfter groups job).get? key = some larger ∧
      group.Extends larger := by
  unfold addToGroups
  split
  · exact ⟨group, hget, .refl group⟩
  next jobKey foregroundOwned _ =>
    rw [get?_insert]
    split
    next heq =>
      refine ⟨_, rfl, ?_⟩
      rw [← heq, hget, Option.getD_some]
      exact group.extends_add foregroundOwned job
    · exact ⟨group, hget, .refl group⟩

theorem foldl_addToGroups_extends (jobs : List Job) (groups : SortedMap ShipKey SamePrShipGroup)
    (hget : groups.get? key = some group) :
    ∃ larger, (jobs.foldl (addToGroups store now staleAfter) groups).get? key = some larger ∧
      group.Extends larger := by
  induction jobs generalizing groups group with
  | nil => exact ⟨group, hget, .refl group⟩
  | cons job rest ih =>
    obtain ⟨middle, hmiddle, hfirst⟩ := addToGroups_extends groups job hget
    obtain ⟨larger, hlarger, hrest⟩ := ih _ hmiddle
    exact ⟨larger, hlarger, hfirst.trans hrest⟩

variable {foregroundOwned : Bool}

/-- Every live ship job is in the group of its pull request. -/
theorem exists_group (now staleAfter : Time) (hjob : job ∈ jobs)
    (hlive : job.status = .pending ∨ job.status = .running)
    (hkey : loadShipKey job.id store = some (key, foregroundOwned)) :
    ∃ (group : SamePrShipGroup) (before : SamePrShipGroup),
      (samePrShipGroups jobs store now staleAfter).get? key = some group ∧
        (before.add now staleAfter foregroundOwned job).Extends group := by
  have hfiltered : job ∈ jobs.filter fun job => job.status = .pending || job.status = .running := by
    rw [mem_filter]
    exact ⟨hjob, by simpa using hlive⟩
  obtain ⟨earlier, later, hsplit⟩ := append_of_mem hfiltered
  unfold samePrShipGroups
  rw [hsplit, foldl_append, foldl_cons]
  generalize earlier.foldl (addToGroups store now staleAfter) .empty = groups
  have hadded : (addToGroups store now staleAfter groups job).get? key =
      some (((groups.get? key).getD {}).add now staleAfter foregroundOwned job) := by
    rw [addToGroups, hkey]
    exact get?_insert_self _ _ _
  obtain ⟨larger, hlarger, hextends⟩ := foldl_addToGroups_extends later _ hadded
  exact ⟨larger, _, hlarger, hextends⟩

theorem mem_pending_group (now staleAfter : Time) (hjob : job ∈ jobs)
    (hpending : job.status = .pending)
    (hkey : loadShipKey job.id store = some (key, foregroundOwned)) :
    ∃ group, (samePrShipGroups jobs store now staleAfter).get? key = some group ∧
      job ∈ group.pending := by
  obtain ⟨group, before, hget, hextends⟩ := exists_group now staleAfter hjob (.inl hpending) hkey
  refine ⟨group, hget, hextends.pending ?_⟩
  simp [SamePrShipGroup.add, hpending]

theorem mem_running_group (now staleAfter : Time) (hjob : job ∈ jobs)
    (hrunning : job.status = .running)
    (hkey : loadShipKey job.id store = some (key, foregroundOwned)) :
    ∃ group, (samePrShipGroups jobs store now staleAfter).get? key = some group ∧
      (job ∈ group.running ∨ job ∈ group.staleRunning) := by
  obtain ⟨group, before, hget, hextends⟩ := exists_group now staleAfter hjob (.inr hrunning) hkey
  refine ⟨group, hget, ?_⟩
  cases hstale : foregroundOwned && job.isStaleRunning now staleAfter with
  | true =>
    right
    apply hextends.staleRunning
    simp [SamePrShipGroup.add, hrunning, hstale]
  | false =>
    left
    apply hextends.running
    simp [SamePrShipGroup.add, hrunning, hstale]

end Groups

/-! ## Which ship jobs stay -/

section Exclusion

variable {jobs : List Job} {store : QueueRequestStore} {now staleAfter : Time} {key : ShipKey}
  {group : SamePrShipGroup}

theorem mem_excluded_of_group {jobId : String}
    (hget : (samePrShipGroups jobs store now staleAfter).get? key = some group)
    (hexcluded : jobId ∈ (group.admission key).excluded) :
    jobId ∈ (samePrShipAdmission jobs store now staleAfter).excluded := by
  have hentry := mem_entries_of_get? hget
  rw [SamePrShipAdmission.excluded, mem_append, mem_map, mem_map] at hexcluded ⊢
  rcases hexcluded with ⟨decision, hdecision, hid⟩ | ⟨decision, hdecision, hid⟩
  · exact .inl ⟨decision, mem_flatMap.mpr ⟨_, mem_map_of_mem hentry, hdecision⟩, hid⟩
  · exact .inr ⟨decision, mem_flatMap.mpr ⟨_, mem_map_of_mem hentry, hdecision⟩, hid⟩

theorem staleRunningCancellations_group :
    (group.admission key).staleRunningCancellations =
      group.staleRunning.map fun job =>
        { jobId := job.id, repo := (ofLex key).1, pr := (ofLex key).2
          reason := staleRunningCancelReason } := by
  simp only [SamePrShipGroup.admission]
  split
  · rfl
  · split <;> rfl

/-- A stale running job is to be reaped. -/
theorem mem_staleReaped_of_group {job : Job}
    (hget : (samePrShipGroups jobs store now staleAfter).get? key = some group)
    (hjob : job ∈ group.staleRunning) :
    job.id ∈ (samePrShipAdmission jobs store now staleAfter).staleReaped := by
  have hentry := mem_entries_of_get? hget
  have hdecision := mem_map_of_mem (f := fun job : Job =>
    (⟨job.id, (ofLex key).1, (ofLex key).2, staleRunningCancelReason⟩ :
      SamePrShipStaleRunningCancellation)) hjob
  rw [← staleRunningCancellations_group] at hdecision
  exact mem_map.mpr
    ⟨_, mem_flatMap.mpr ⟨_, mem_map_of_mem hentry, hdecision⟩, rfl⟩

/-- A pending job of a group that is not left out: nothing of the group runs and
the job is the newest. -/
theorem newest_of_not_excluded {job : Job} (hjob : job ∈ group.pending)
    (hstays : job.id ∉ (group.admission key).excluded) :
    group.running = [] ∧ (group.pending.insertionSort oldestFirst).getLast? = some job := by
  have hsorted : job ∈ group.pending.insertionSort oldestFirst :=
    (mem_insertionSort oldestFirst).mpr hjob
  simp only [SamePrShipGroup.admission] at hstays
  split at hstays
  next running rest _ =>
    refine absurd ?_ hstays
    simp only [SamePrShipAdmission.excluded, map_nil, nil_append, map_map]
    exact mem_map_of_mem hsorted
  next hrunning =>
    have hnone : group.running = [] := by
      have hlength := length_insertionSort oldestFirst group.running
      rw [hrunning] at hlength
      exact length_eq_zero_iff.mp hlength.symm
    refine ⟨hnone, ?_⟩
    cases hlast : (group.pending.insertionSort oldestFirst).getLast? with
    | none =>
      rw [getLast?_eq_none_iff] at hlast
      rw [hlast] at hsorted
      exact absurd hsorted not_mem_nil
    | some newest =>
      obtain ⟨older, holder⟩ := getLast?_eq_some_iff.mp hlast
      rw [hlast] at hstays
      rw [holder] at hstays hsorted
      rcases mem_append.mp hsorted with hold | hnew
      · -- an older pending job is superseded
        refine absurd ?_ hstays
        have hdropped : job ∈ ((older ++ [newest]).reverse).drop 1 := by simpa using hold
        simp only [SamePrShipAdmission.excluded, map_map, map_nil, append_nil]
        exact mem_map_of_mem hdropped
      · rw [mem_singleton.mp hnew]

/-- Of the pending ship jobs of one pull request at most one stays. -/
theorem pending_ship_unique {job other : Job} (hjob : job ∈ jobs) (hother : other ∈ jobs)
    (hpending : job.status = .pending) (hpending' : other.status = .pending)
    {owned owned' : Bool} (hkey : loadShipKey job.id store = some (key, owned))
    (hkey' : loadShipKey other.id store = some (key, owned'))
    (hstays : job.id ∉ (samePrShipAdmission jobs store now staleAfter).excluded)
    (hstays' : other.id ∉ (samePrShipAdmission jobs store now staleAfter).excluded) :
    job = other := by
  obtain ⟨group, hget, hmem⟩ := mem_pending_group now staleAfter hjob hpending hkey
  obtain ⟨group', hget', hmem'⟩ := mem_pending_group now staleAfter hother hpending' hkey'
  obtain rfl : group = group' := Option.some.inj (hget.symm.trans hget')
  have hlast := (newest_of_not_excluded hmem fun h => hstays (mem_excluded_of_group hget h)).2
  have hlast' := (newest_of_not_excluded hmem' fun h => hstays' (mem_excluded_of_group hget h)).2
  exact Option.some.inj (hlast.symm.trans hlast')

/-- A pending ship job stays only when every running ship job of its pull
request is to be reaped. -/
theorem running_ship_reaped {job running : Job} (hjob : job ∈ jobs) (hmem : running ∈ jobs)
    (hpending : job.status = .pending) (hrunning : running.status = .running)
    {owned owned' : Bool} (hkey : loadShipKey job.id store = some (key, owned))
    (hkey' : loadShipKey running.id store = some (key, owned'))
    (hstays : job.id ∉ (samePrShipAdmission jobs store now staleAfter).excluded) :
    running.id ∈ (samePrShipAdmission jobs store now staleAfter).staleReaped := by
  obtain ⟨group, hget, hgroup⟩ := mem_pending_group now staleAfter hjob hpending hkey
  obtain ⟨group', hget', hgroup'⟩ := mem_running_group now staleAfter hmem hrunning hkey'
  obtain rfl : group = group' := Option.some.inj (hget.symm.trans hget')
  have hnone := (newest_of_not_excluded hgroup fun h => hstays (mem_excluded_of_group hget h)).1
  rcases hgroup' with hlive | hstale
  · rw [hnone] at hlive
    exact absurd hlive not_mem_nil
  · exact mem_staleReaped_of_group hget hstale

end Exclusion

end Shipyard.Scheduler
