import Shipyard.Config.Layers
import Shipyard.Scheduler.SamePr
import Shipyard.Ship.Store

/-!
# Liveness of in-flight ships

`ship_liveness.rs`: the queue's verdict on the job that owns a ship state, and
the evidence it gives for an orphaned state. Among the jobs of one repository and
pull request a live running job wins over a dead one, a dead one over a pending
one, and a pending one over a terminal one.
-/

namespace Shipyard.Ship

open Lib List
open Config (LoadedConfig TomlValue)
open Scheduler (defaultRunningJobStaleAfter)

/-! ## Configuration -/

def defaultOrphanStaleMinutes : Int := 45

def maxOrphanStaleMinutes : Int := 365 * 24 * 60

/-- The fields of the `ship_state` table that are read here. -/
structure ShipStateConfig where
  orphanStaleMinutes : Option Int := none
  autoResume : Bool := false
deriving DecidableEq, Repr

/-- How `serde` reads the `ship_state` table; nothing where the table is malformed. -/
abbrev DecodeConfig := TomlValue → Option ShipStateConfig

def shipStateConfig (decode : DecodeConfig) (config : LoadedConfig) : Option ShipStateConfig :=
  (config.get "ship_state").bind decode

/-- `chrono::Duration::minutes`, in nanoseconds. -/
def minutes (count : Int) : Time := count * 60000000000

/-- `chrono::Duration::num_minutes`. -/
def numMinutes (duration : Time) : Int := duration.tdiv 60000000000

def orphanStaleAfter (decode : DecodeConfig) (config : LoadedConfig) : Time :=
  let configured := (shipStateConfig decode config).bind ShipStateConfig.orphanStaleMinutes
  minutes (max 1 (min (configured.getD defaultOrphanStaleMinutes) maxOrphanStaleMinutes))

def autoResumeEnabled (decode : DecodeConfig) (config : LoadedConfig) : Bool :=
  (shipStateConfig decode config).any ShipStateConfig.autoResume

/-! ## The owning job -/

inductive QueueMatch where
  | unavailable
  | absent
  | pending (job : Job)
  | running (job : Job) (stale : Bool)
  | terminal (job : Job)

def QueueMatch.job? : QueueMatch → Option Job
  | .pending job | .terminal job | .running job _ => some job
  | .unavailable | .absent => none

/-- The first job of each kind. -/
structure OwningJobs where
  liveRunning : Option Job := none
  deadRunning : Option Job := none
  pending : Option Job := none
  terminal : Option Job := none

def shipPrRepo (store : QueueRequestStore) (jobId : String) : Option (Nat × String) :=
  match store.load jobId with
  | .ok (some envelope) =>
    match envelope.request with
    | .ship request => some (request.pr, request.repo)
    | .run _ => none
  | _ => none

/-- The request of a job names this repository and pull request. -/
def ownsShip (prRepoOf : Job → Option (Nat × String)) (repository : String) (pr : Nat)
    (job : Job) : Bool :=
  match prRepoOf job with
  | some (jobPr, jobRepo) =>
    jobPr = pr && canonicalRepository jobRepo = canonicalRepository repository
  | none => false

def OwningJobs.add (now heartbeatStaleAfter : Time) (job : Job) (found : OwningJobs) :
    OwningJobs :=
  match job.status with
  | .running =>
    if job.isStaleRunning now heartbeatStaleAfter then
      { found with deadRunning := found.deadRunning.or (some job) }
    else { found with liveRunning := found.liveRunning.or (some job) }
  | .pending => { found with pending := found.pending.or (some job) }
  | .completed | .cancelled => { found with terminal := found.terminal.or (some job) }

def owningJobs (state : ShipState) (prRepoOf : Job → Option (Nat × String))
    (now heartbeatStaleAfter : Time) (jobs : List Job) : OwningJobs :=
  jobs.foldl (fun found job =>
    if ownsShip prRepoOf state.repo state.pr job then found.add now heartbeatStaleAfter job
    else found) {}

/-- The first of the four kinds that is present. -/
def OwningJobs.verdict (found : OwningJobs) : QueueMatch :=
  match found.liveRunning, found.deadRunning, found.pending, found.terminal with
  | some job, _, _, _ => .running job false
  | none, some job, _, _ => .running job true
  | none, none, some job, _ => .pending job
  | none, none, none, some job => .terminal job
  | none, none, none, none => .absent

def matchShipJob (state : ShipState) (jobs : Option (List Job))
    (prRepoOf : Job → Option (Nat × String)) (now heartbeatStaleAfter : Time) : QueueMatch :=
  match jobs with
  | none => .unavailable
  | some jobs => (owningJobs state prRepoOf now heartbeatStaleAfter jobs).verdict

/-! ## Evidence -/

inductive OrphanEvidence where
  | queueStale
  | queueTerminal
  | queueAbsent
  | timeFallback
deriving DecidableEq, Repr

def OrphanEvidence.asStr : OrphanEvidence → String
  | .queueStale => "queue_stale"
  | .queueTerminal => "queue_terminal"
  | .queueAbsent => "queue_absent"
  | .timeFallback => "time_fallback"

def OrphanEvidence.cause : OrphanEvidence → String
  | .queueStale => "owning worker heartbeat is dead"
  | .queueTerminal => "owning worker ended without finalizing"
  | .queueAbsent => "no owning worker in the queue"
  | .timeFallback => "no update and queue unavailable"

structure OrphanReport where
  evidence : OrphanEvidence
  stalledMinutes : Int
deriving DecidableEq, Repr

/-- The evidence of a verdict; a live or queued worker gives none. -/
def QueueMatch.evidence : QueueMatch → Option OrphanEvidence
  | .running _ true => some .queueStale
  | .running _ false | .pending _ => none
  | .terminal _ => some .queueTerminal
  | .absent => some .queueAbsent
  | .unavailable => some .timeFallback

def classifyOrphan (state : ShipState) (queueMatch : QueueMatch) (now staleAfter : Time) :
    Option OrphanReport :=
  if (shipTerminalVerdict state).isSome then none
  else
    let stalledMinutes := numMinutes (now - state.updatedAt)
    match queueMatch.evidence with
    | none => none
    | some evidence =>
      let timeGated := evidence = .queueAbsent || evidence = .timeFallback
      if timeGated && stalledMinutes < numMinutes staleAfter then none
      else some ⟨evidence, max stalledMinutes 0⟩

/-! ## One queue snapshot -/

/-- The queue file and the request store of a state directory, as they are read. -/
structure QueueFiles where
  queueIsFile : Bool
  jobs : Except String (List Job)
  requestDirExists : Bool
  requests : Except String QueueRequestStore

/-- The rows and the request store, when both can be read. -/
def QueueFiles.snapshot (files : QueueFiles) : Option (List Job × QueueRequestStore) :=
  if files.queueIsFile && files.requestDirExists then
    match files.jobs, files.requests with
    | .ok jobs, .ok requests => some (jobs, requests)
    | _, _ => none
  else none

structure LivenessContext where
  jobs : Option (List Job)
  requestStore : Option QueueRequestStore
  staleAfter : Time
  heartbeatStaleAfter : Time

/-- `with_liveness_context`; without a snapshot only time is evidence. -/
def livenessContext (files : QueueFiles) (staleAfter : Time) : LivenessContext :=
  match files.snapshot with
  | some (jobs, requests) => ⟨some jobs, some requests, staleAfter, defaultRunningJobStaleAfter⟩
  | none => ⟨none, none, staleAfter, defaultRunningJobStaleAfter⟩

def LivenessContext.matchJob (context : LivenessContext) (state : ShipState) (now : Time) :
    QueueMatch :=
  matchShipJob state context.jobs
    (fun job => context.requestStore.bind fun store => shipPrRepo store job.id)
    now context.heartbeatStaleAfter

def LivenessContext.classify (context : LivenessContext) (state : ShipState) (now : Time) :
    Option OrphanReport :=
  classifyOrphan state (context.matchJob state now) now context.staleAfter

/-! ## What the verdict says about the jobs -/

section Verdict

variable (now heartbeatStaleAfter : Time) (prRepoOf : Job → Option (Nat × String))
  (state : ShipState) (jobs : List Job)

/-- A running job of the state, with or without a live worker. -/
def runningShip (stale : Bool) (job : Job) : Bool :=
  ownsShip prRepoOf state.repo state.pr job && job.status = .running &&
    job.isStaleRunning now heartbeatStaleAfter = stale

/-- The fold keeps the first job of each kind. -/
theorem owningJobs_running :
    (owningJobs state prRepoOf now heartbeatStaleAfter jobs).liveRunning =
        jobs.find? (runningShip now heartbeatStaleAfter prRepoOf state false) ∧
      (owningJobs state prRepoOf now heartbeatStaleAfter jobs).deadRunning =
        jobs.find? (runningShip now heartbeatStaleAfter prRepoOf state true) := by
  induction jobs using List.reverseRecOn with
  | nil => exact ⟨rfl, rfl⟩
  | append_singleton jobs job ih =>
    rw [find?_append, find?_append, ← ih.1, ← ih.2, owningJobs, foldl_append,
      find?_singleton, find?_singleton, ← owningJobs]
    cases howns : ownsShip prRepoOf state.repo state.pr job with
    | false => simp [runningShip, howns]
    | true =>
      cases hstatus : job.status <;>
        cases hstale : job.isStaleRunning now heartbeatStaleAfter <;>
        simp [runningShip, howns, OwningJobs.add, hstatus, hstale]

/-- The verdict is a dead worker when a running job is dead and none is live. -/
theorem verdict_stale_iff :
    (owningJobs state prRepoOf now heartbeatStaleAfter jobs).verdict.evidence =
        some .queueStale ↔
      (∃ job ∈ jobs, runningShip now heartbeatStaleAfter prRepoOf state true job = true) ∧
        ∀ job ∈ jobs, runningShip now heartbeatStaleAfter prRepoOf state false job = false := by
  obtain ⟨hlive, hdead⟩ := owningJobs_running now heartbeatStaleAfter prRepoOf state jobs
  have hnone : (owningJobs state prRepoOf now heartbeatStaleAfter jobs).liveRunning = none ↔
      ∀ job ∈ jobs, runningShip now heartbeatStaleAfter prRepoOf state false job = false := by
    rw [hlive, find?_eq_none]
    simp
  have hsome : (owningJobs state prRepoOf now heartbeatStaleAfter jobs).deadRunning.isSome ↔
      ∃ job ∈ jobs, runningShip now heartbeatStaleAfter prRepoOf state true job = true := by
    rw [hdead, find?_isSome]
  rw [← hnone, ← hsome]
  generalize owningJobs state prRepoOf now heartbeatStaleAfter jobs = found
  obtain ⟨liveRunning, deadRunning, pending, terminal⟩ := found
  cases liveRunning <;> cases deadRunning <;> cases pending <;> cases terminal <;>
    simp [OwningJobs.verdict, QueueMatch.evidence]

end Verdict

/-- Strong evidence is a dead running job of a state in flight, with no live one. -/
theorem classify_queueStale_iff (files : QueueFiles) (staleAfter now : Time)
    (state : ShipState) :
    (∃ report, (livenessContext files staleAfter).classify state now = some report ∧
        report.evidence = .queueStale) ↔
      shipTerminalVerdict state = none ∧ ∃ jobs requests, files.snapshot = some (jobs, requests) ∧
        (∃ job ∈ jobs, runningShip now defaultRunningJobStaleAfter
          (fun job => shipPrRepo requests job.id) state true job = true) ∧
        ∀ job ∈ jobs, runningShip now defaultRunningJobStaleAfter
          (fun job => shipPrRepo requests job.id) state false job = false := by
  have hmatch : ((livenessContext files staleAfter).matchJob state now).evidence =
      some .queueStale ↔ ∃ jobs requests, files.snapshot = some (jobs, requests) ∧
        (∃ job ∈ jobs, runningShip now defaultRunningJobStaleAfter
          (fun job => shipPrRepo requests job.id) state true job = true) ∧
        ∀ job ∈ jobs, runningShip now defaultRunningJobStaleAfter
          (fun job => shipPrRepo requests job.id) state false job = false := by
    unfold livenessContext
    cases hsnapshot : files.snapshot with
    | none => simp [LivenessContext.matchJob, matchShipJob, QueueMatch.evidence]
    | some pair =>
      obtain ⟨jobs, requests⟩ := pair
      have hverdict := verdict_stale_iff now defaultRunningJobStaleAfter
        (fun job => shipPrRepo requests job.id) state jobs
      simp only [LivenessContext.matchJob, matchShipJob, Option.bind_some, hverdict,
        Option.some.injEq, Prod.mk.injEq]
      constructor
      · exact fun hfacts => ⟨jobs, requests, ⟨rfl, rfl⟩, hfacts⟩
      · rintro ⟨_, _, ⟨rfl, rfl⟩, hfacts⟩
        exact hfacts
  rw [← hmatch, LivenessContext.classify, classifyOrphan]
  cases hverdict : shipTerminalVerdict state with
  | some verdict => simp
  | none =>
    cases hevidence : ((livenessContext files staleAfter).matchJob state now).evidence with
    | none => simp
    | some evidence =>
      cases evidence <;> simp

end Shipyard.Ship
