import Shipyard.Queue.Perform
import Shipyard.Ship.Current
import Shipyard.Ship.Liveness

/-!
# The sweep that abandons orphaned ships

`ship_resume.rs`: a snapshot chooses candidates, and each candidate is decided
again under its lock, from a fresh reading of the queue. Between two turns other
processes may change the store and the queue in any way. A dead running job wins
over a pending one, so a ship whose next job is queued can be abandoned.
-/

namespace Shipyard.Ship

open Lib Option
open Config (LoadedConfig)
open Scheduler (defaultRunningJobStaleAfter)

/-! ## Candidates -/

namespace ShipStore

def insertNewest (states : SortedMap RecordKey ShipState) (state : ShipState) :
    SortedMap RecordKey ShipState :=
  let key := scopedKey state.repo state.pr
  if (states.get? key).all fun existing => existing.updatedAt < state.updatedAt then
    states.insert key state
  else states

/-- The active states, each the newest of its files; `mirrors` lists the mirror
files of the directory. -/
def listActive (store : ShipStore) (mirrors : List Nat) : List ShipState :=
  let unfenced := (mirrors.filterMap store.readLegacy).filter fun state => !store.collision state.pr
  let records := store.records.values.filterMap StateFile.state?
  let newest := (unfenced ++ records).foldl insertNewest .empty
  newest.values.insertionSort fun left right =>
    left.pr < right.pr ∨ left.pr = right.pr ∧
      canonicalRepository left.repo ≤ canonicalRepository right.repo

def listInFlight (store : ShipStore) (mirrors : List Nat) : List ShipState :=
  (store.listActive mirrors).filter fun state => (shipTerminalVerdict state).isNone

end ShipStore

def collectOrphans (store : ShipStore) (mirrors : List Nat) (liveness : LivenessContext)
    (now : Time) : List (String × Nat × OrphanReport) :=
  (store.listInFlight mirrors).filterMap fun state =>
    (liveness.classify state now).map fun report => (state.repo, state.pr, report)

/-! ## One candidate -/

structure AbandonRecord where
  reason : String
  evidence : String
  stalledMinutes : Int
  jobId : Option String
  abandonedAt : Time
deriving DecidableEq, Repr

/-- The marker is kept as such; what it records is for people to read. -/
def ShipState.markAbandoned (_record : AbandonRecord) (clock : Time) (state : ShipState) :
    ShipState :=
  { state with abandoned := true }.touch clock

structure AbandonedShipState where
  pr : Nat
  repo : String
  evidence : String
  stalledMinutes : Int
deriving DecidableEq, Repr

inductive AbandonOutcome where
  | abandoned (entry : AbandonedShipState)
  | raced
  | skipped
deriving DecidableEq, Repr

/-- `with_pr_state_scoped_locked`: what the operation leaves is saved, or deleted
where it leaves nothing. -/
def ShipStore.withPrStateScopedLocked {α : Type} (store : ShipStore) (repository : String)
    (pr : Nat) (operation : Option ShipState → Option ShipState × α) :
    ShipStore × Except String α :=
  store.underLock repository pr fun locked =>
    match operation (locked.getLockedScoped repository pr) with
    | (some state, output) =>
      let saved := locked.saveScopedLocked state
      (saved.1, saved.2.map fun _ => output)
    | (none, output) =>
      let deleted := locked.deleteScopedLocked repository pr
      (deleted.1, deleted.2.map fun _ => output)

/-- The decision under the lock. -/
def abandonState (liveness : LivenessContext) (now clock : Time) :
    Option ShipState → Option ShipState × AbandonOutcome
  | none => (none, .skipped)
  | some state =>
    if (shipTerminalVerdict state).isSome then (some state, .raced)
    else
      match liveness.classify state now with
      | some orphan =>
        if orphan.evidence = .queueStale then
          let record : AbandonRecord :=
            { reason := "orphaned: " ++ orphan.evidence.cause ++ " (" ++
                toString orphan.stalledMinutes ++ "m idle); re-ship required"
              evidence := orphan.evidence.asStr
              stalledMinutes := orphan.stalledMinutes
              jobId := (liveness.matchJob state now).job?.map Job.id
              abandonedAt := now }
          (some (state.markAbandoned record clock),
            .abandoned ⟨state.pr, state.repo, orphan.evidence.asStr, orphan.stalledMinutes⟩)
        else (some state, .raced)
      | none => (some state, .raced)

/-- A failure of the store counts as skipped. -/
def abandonOne (files : QueueFiles) (staleAfter now clock : Time) (repository : String)
    (pr : Nat) (store : ShipStore) : ShipStore × AbandonOutcome :=
  let result := store.withPrStateScopedLocked repository pr
    (abandonState (livenessContext files staleAfter) now clock)
  (result.1, match result.2 with
    | .ok outcome => outcome
    | .error _ => .skipped)

/-! ### What one turn does to the states -/

section Turn

variable {files : QueueFiles} {staleAfter now clock : Time} {repository : String} {pr : Nat}
  {store : ShipStore}

/-- The queue shows a dead worker of a state in flight, and no live one. -/
def StrongOrphan (files : QueueFiles) (staleAfter now : Time) (state : ShipState) : Prop :=
  ∃ report, (livenessContext files staleAfter).classify state now = some report ∧
    report.evidence = .queueStale

/-- The decision marks a strong orphan and leaves everything else. -/
theorem abandonState_some (files : QueueFiles) (staleAfter now clock : Time) (state : ShipState) :
    (StrongOrphan files staleAfter now state ∧ ∃ record,
      (abandonState (livenessContext files staleAfter) now clock (some state)).1 =
        some (state.markAbandoned record clock)) ∨
    (¬StrongOrphan files staleAfter now state ∧
      (abandonState (livenessContext files staleAfter) now clock (some state)).1 = some state) := by
  unfold abandonState StrongOrphan
  cases hclassify : (livenessContext files staleAfter).classify state now with
  | none =>
    right
    refine ⟨by simp, ?_⟩
    simp only [hclassify]
    split <;> rfl
  | some report =>
    by_cases hevidence : report.evidence = .queueStale
    · left
      have hverdict : shipTerminalVerdict state = none :=
        ((classify_queueStale_iff files staleAfter now state).mp
          ⟨report, hclassify, hevidence⟩).1
      refine ⟨⟨report, rfl, hevidence⟩, ?_⟩
      simp only [hclassify, hverdict, hevidence, isSome_none, Bool.false_eq_true, if_false,
        if_true]
      exact ⟨_, rfl⟩
    · right
      refine ⟨?_, ?_⟩
      · rintro ⟨_, hsame, hstale⟩
        exact hevidence (some.inj hsame ▸ hstale)
      · simp only [hclassify, hevidence, if_false]
        split <;> rfl

/-- One turn: the states of other repositories and numbers stay; the state itself
is marked when it is a strong orphan, and stays otherwise. -/
structure Turned (files : QueueFiles) (staleAfter now : Time) (repository : String) (pr : Nat)
    (store after : ShipStore) : Prop where
  filed : after.Filed
  others : ∀ other number, scopedKey other number ≠ scopedKey repository pr →
    after.current other number = store.current other number
  own : (∃ state, store.current repository pr = some state ∧
      StrongOrphan files staleAfter now state ∧
      (after.readScoped repository pr).any ShipState.abandoned = true) ∨
    ((∀ state, store.current repository pr = some state →
        ¬StrongOrphan files staleAfter now state) ∧
      after.current repository pr = store.current repository pr ∧
      after.readScoped repository pr = store.current repository pr)

/-- The store that an operation under the lock leaves. -/
def ShipStore.written (locked : ShipStore) (repository : String) (pr : Nat) :
    Option ShipState → ShipStore
  | some state => (locked.saveScopedLocked state).1
  | none => (locked.deleteScopedLocked repository pr).1

theorem withPrStateScopedLocked_fst {α : Type} (hfiled : store.Filed) (repository : String)
    (pr : Nat) (operation : Option ShipState → Option ShipState × α) :
    (store.withPrStateScopedLocked repository pr operation).1 =
      (store.lockPrScoped repository pr).1.written repository pr
        (operation (store.current repository pr)).1 := by
  obtain ⟨hok, hlocked⟩ := hfiled.lock repository pr
  have hget := hlocked.filed.getLockedScoped_eq hlocked.ensured repository
  rw [hlocked.kept] at hget
  unfold ShipStore.withPrStateScopedLocked ShipStore.underLock
  generalize store.lockPrScoped repository pr = result at hok hget
  obtain ⟨locked, answer⟩ := result
  cases hok
  simp only at hget ⊢
  rw [hget]
  cases operation (store.current repository pr) with
  | mk written output => cases written <;> rfl

theorem turned_abandonOne (hfiled : store.Filed) :
    Turned files staleAfter now repository pr store
      (abandonOne files staleAfter now clock repository pr store).1 := by
  obtain ⟨-, hlocked⟩ := hfiled.lock repository pr
  have hafter : (abandonOne files staleAfter now clock repository pr store).1 =
      (store.lockPrScoped repository pr).1.written repository pr
        (abandonState (livenessContext files staleAfter) now clock
          (store.current repository pr)).1 :=
    withPrStateScopedLocked_fst hfiled repository pr _
  rw [hafter]
  generalize (store.lockPrScoped repository pr).1 = locked at hlocked
  cases hcurrent : store.current repository pr with
  | none =>
    -- Nothing is there, and nothing is left.
    have hdelete := fun other number =>
      hlocked.filed.current_delete repository other pr number
    refine ⟨((hlocked.filed.removeScoped _ _).removeMatchingLegacy _ _).sync pr,
      fun other number hother => ?_, .inr ⟨?_, ?_, ?_⟩⟩
    · exact ((hdelete other number).trans (if_neg hother)).trans (hlocked.kept other number)
    · intro state hstate
      cases hcurrent.symm.trans hstate
    · exact ((hdelete repository pr).trans (if_pos rfl)).trans hcurrent.symm
    · exact (ShipStore.readScoped_delete locked repository pr).trans hcurrent.symm
  | some state =>
    have hread : locked.readScoped repository pr = some state := by
      rw [← hlocked.filed.current_of_ensure hlocked.ensured, hlocked.kept]
      exact hcurrent
    obtain ⟨hname, hpr⟩ := hlocked.filed.of_readScoped hread
    subst hpr
    have hkey := ShipStore.scopedKey_congr hname state.pr
    have hothers : ∀ next : ShipState, next.repo = state.repo → next.pr = state.pr →
        ∀ other number, scopedKey other number ≠ scopedKey repository state.pr →
          (locked.saveScopedLocked next).1.current other number =
            store.current other number := by
      intro next hrepo hnumber other number hother
      rw [hlocked.filed.save_others next (by rw [hrepo, hnumber, hkey]; exact hother),
        hlocked.kept]
    rcases abandonState_some files staleAfter now clock state with
      ⟨hstrong, record, hmarked⟩ | ⟨hweak, hsame⟩
    · rw [hmarked]
      refine ⟨hlocked.filed.save _, hothers _ rfl rfl, .inl ⟨state, hcurrent, hstrong, ?_⟩⟩
      have hsaved : (locked.saveScopedLocked (state.markAbandoned record clock)).1.readScoped
          state.repo state.pr = some (state.markAbandoned record clock) :=
        ShipStore.readScoped_save hlocked.ensured
      rw [← ShipStore.readScoped_key hkey]
      exact (congrArg (Option.any ShipState.abandoned) hsaved).trans rfl
    · rw [hsame]
      refine ⟨hlocked.filed.save _, hothers _ rfl rfl, .inr ⟨?_, ?_, ?_⟩⟩
      · intro found hfound
        obtain rfl := some.inj (hcurrent.symm.trans hfound)
        exact hweak
      · rw [← ShipStore.current_key hkey, hcurrent]
        refine hlocked.filed.save_same hlocked.ensured ?_
        rw [ShipStore.current_key hkey, hlocked.kept, hcurrent]
      · rw [← ShipStore.readScoped_key hkey, hcurrent]
        exact ShipStore.readScoped_save hlocked.ensured

end Turn

/-! ## The sweep -/

/-- The state directory. -/
structure ShipWorld where
  store : ShipStore
  filed : store.Filed
  mirrors : List Nat
  queue : QueueFiles

/-- What comes before the lock of a candidate is held, and the clock of its write. -/
structure SweepTurn where
  interfere : ShipWorld → ShipWorld
  clock : Time

structure SweepEnv where
  decode : DecodeConfig
  storeOpens : Bool := true
  turn : String → Nat → SweepTurn

/-- One turn of the sweep: what it found under the lock and what it left. -/
structure SweepStep where
  repository : String
  pr : Nat
  found : ShipWorld
  left : ShipWorld
  outcome : AbandonOutcome

def sweepTurn (turn : SweepTurn) (staleAfter now : Time) (repository : String) (pr : Nat)
    (world : ShipWorld) : SweepStep :=
  let found := turn.interfere world
  let result := abandonOne found.queue staleAfter now turn.clock repository pr found.store
  { repository, pr, found
    left := { found with store := result.1, filed := (turned_abandonOne found.filed).filed }
    outcome := result.2 }

def sweepTurns (turn : String → Nat → SweepTurn) (staleAfter now : Time) :
    List (String × Nat) → ShipWorld → List SweepStep
  | [], _ => []
  | (repository, pr) :: rest, world =>
    let step := sweepTurn (turn repository pr) staleAfter now repository pr world
    step :: sweepTurns turn staleAfter now rest step.left

def sweepOrphanedShipStates (env : SweepEnv) (config : LoadedConfig) (now : Time)
    (world : ShipWorld) : List SweepStep :=
  if !autoResumeEnabled env.decode config then []
  else if !env.storeOpens then []
  else
    let staleAfter := orphanStaleAfter env.decode config
    let orphans := collectOrphans world.store world.mirrors
      (livenessContext world.queue staleAfter) now
    let strong := (orphans.filter fun orphan => orphan.2.2.evidence = .queueStale).map
      fun orphan => (orphan.1, orphan.2.1)
    sweepTurns env.turn staleAfter now strong world

structure AbandonReport where
  abandoned : List AbandonedShipState
  raced : Nat
deriving DecidableEq, Repr

def abandonReport (steps : List SweepStep) : AbandonReport where
  abandoned := steps.filterMap fun step =>
    match step.outcome with
    | .abandoned entry => some entry
    | _ => none
  raced := steps.countP fun step => step.outcome = .raced

/-! ### What a turn may do -/

/-- A ship job for a repository and pull request. -/
def shipJobFor (requests : QueueRequestStore) (repository : String) (pr : Nat) (job : Job) : Bool :=
  ownsShip (fun job => shipPrRepo requests job.id) repository pr job

/-- The snapshot has a stale running ship job and no other running one. -/
structure DeadWorker (now : Time) (repository : String) (pr : Nat) (jobs : List Job)
    (requests : QueueRequestStore) : Prop where
  stale : ∃ job ∈ jobs, shipJobFor requests repository pr job = true ∧
    job.isStaleRunning now defaultRunningJobStaleAfter = true
  noneLive : ∀ job ∈ jobs, shipJobFor requests repository pr job = true →
    job.status = .running → job.isStaleRunning now defaultRunningJobStaleAfter = true

/-- The turn marked the state, which was not abandoned. -/
def SweepStep.Marks (step : SweepStep) : Prop :=
  (step.left.store.readScoped step.repository step.pr).any ShipState.abandoned = true ∧
    ∀ state, step.found.store.current step.repository step.pr = some state →
      state.abandoned = false

/-- What a turn of the sweep may do. -/
structure SafeTurn (env : SweepEnv) (config : LoadedConfig) (now : Time) (step : SweepStep) :
    Prop where
  marked : step.Marks → autoResumeEnabled env.decode config = true ∧
    ∃ state, step.found.store.current step.repository step.pr = some state ∧
      shipTerminalVerdict state = none ∧
      ∃ jobs requests, step.found.queue.snapshot = some (jobs, requests) ∧
        DeadWorker now step.repository step.pr jobs requests ∧
        ∀ job ∈ jobs, shipJobFor requests step.repository step.pr job = true →
          job.status ≠ .pending
  others : ∀ repository pr, scopedKey repository pr ≠ scopedKey step.repository step.pr →
    step.left.store.current repository pr = step.found.store.current repository pr
  abandonedKept : ∀ repository pr state,
    step.found.store.current repository pr = some state → state.abandoned = true →
      step.left.store.current repository pr = some state

/-- A dead worker of a state in flight hides a pending job. -/
def HidesPending (now : Time) (step : SweepStep) : Prop :=
  ∃ state, step.found.store.current step.repository step.pr = some state ∧
    shipTerminalVerdict state = none ∧
    ∃ jobs requests, step.found.queue.snapshot = some (jobs, requests) ∧
      DeadWorker now step.repository step.pr jobs requests ∧
      ∃ job ∈ jobs, shipJobFor requests step.repository step.pr job = true ∧ job.status = .pending

variable {state : ShipState}

/-- The evidence of the queue, in terms of its jobs. -/
theorem strongOrphan_iff {files : QueueFiles} {staleAfter now : Time} :
    StrongOrphan files staleAfter now state ↔
      shipTerminalVerdict state = none ∧ ∃ jobs requests, files.snapshot = some (jobs, requests) ∧
        DeadWorker now state.repo state.pr jobs requests := by
  rw [StrongOrphan, classify_queueStale_iff]
  refine and_congr_right fun _ => exists₂_congr fun jobs requests => and_congr_right fun _ => ?_
  have hships (stale : Bool) (job : Job) : runningShip now defaultRunningJobStaleAfter
      (fun job => shipPrRepo requests job.id) state stale job = true ↔
        shipJobFor requests state.repo state.pr job = true ∧ job.status = .running ∧
          job.isStaleRunning now defaultRunningJobStaleAfter = stale := by
    simp [runningShip, shipJobFor, and_assoc]
  simp only [← Bool.not_eq_true, hships]
  constructor
  · rintro ⟨⟨job, hjob, hfor, -, hstale⟩, hlive⟩
    refine ⟨⟨job, hjob, hfor, hstale⟩, fun other hother hother_for hrunning => ?_⟩
    by_contra hfresh
    exact hlive other hother ⟨hother_for, hrunning, by simpa using hfresh⟩
  · rintro ⟨⟨job, hjob, hfor, hstale⟩, hnone⟩
    refine ⟨⟨job, hjob, hfor, Queue.isStaleRunning_running hstale, hstale⟩, ?_⟩
    rintro other hother ⟨hother_for, hrunning, hfresh⟩
    exact hfresh (hnone other hother hother_for hrunning)

theorem shipJobFor_congr {repository : String} {pr : Nat}
    (hname : sameRepository state.repo repository = true) (hpr : state.pr = pr)
    (requests : QueueRequestStore) :
    shipJobFor requests state.repo state.pr = shipJobFor requests repository pr := by
  have hcanonical : canonicalRepository state.repo = canonicalRepository repository := by
    simpa [sameRepository] using hname
  funext job
  simp only [shipJobFor, ownsShip, hcanonical, hpr]

section Safe

variable {env : SweepEnv} {config : LoadedConfig} {staleAfter now : Time} {step : SweepStep}

theorem strongOrphan_iff_of_current {state : ShipState}
    (hcurrent : step.found.store.current step.repository step.pr = some state) :
    StrongOrphan step.found.queue staleAfter now state ↔
      shipTerminalVerdict state = none ∧
        ∃ jobs requests, step.found.queue.snapshot = some (jobs, requests) ∧
          DeadWorker now step.repository step.pr jobs requests := by
  obtain ⟨hname, hpr⟩ := step.found.filed.of_current hcurrent
  rw [strongOrphan_iff]
  refine and_congr_right fun _ => exists₂_congr fun jobs requests => and_congr_right fun _ => ?_
  have hfor := shipJobFor_congr hname hpr requests
  constructor
  · rintro ⟨hstale, hnone⟩
    rw [hfor] at hstale hnone
    exact ⟨hstale, hnone⟩
  · rintro ⟨hstale, hnone⟩
    rw [← hfor] at hstale hnone
    exact ⟨hstale, hnone⟩

theorem abandoned_of_inFlight {state : ShipState} (hverdict : shipTerminalVerdict state = none) :
    state.abandoned = false := by
  by_contra habandoned
  rw [shipTerminalVerdict, if_pos (by simpa using habandoned)] at hverdict
  cases hverdict

/-- A turn is safe exactly when no dead worker hides a pending job from it. -/
theorem safeTurn_iff (henabled : autoResumeEnabled env.decode config = true)
    (hturned : Turned step.found.queue staleAfter now step.repository step.pr step.found.store
      step.left.store) :
    SafeTurn env config now step ↔ ¬HidesPending now step := by
  constructor
  · rintro hsafe ⟨state, hcurrent, hverdict, jobs, requests, hsnapshot, hdead, job, hjob, hfor,
      hpending⟩
    have hstrong : StrongOrphan step.found.queue staleAfter now state :=
      (strongOrphan_iff_of_current hcurrent).mpr ⟨hverdict, jobs, requests, hsnapshot, hdead⟩
    have hmarks : step.Marks := by
      rcases hturned.own with ⟨_, -, -, hmarked⟩ | ⟨hweak, -⟩
      · refine ⟨hmarked, fun found hfound => ?_⟩
        obtain rfl := some.inj (hcurrent.symm.trans hfound)
        exact abandoned_of_inFlight hverdict
      · exact absurd hstrong (hweak state hcurrent)
    obtain ⟨-, _, -, -, others, store, hsame, -, hnone⟩ := hsafe.marked hmarks
    obtain ⟨rfl, rfl⟩ := Prod.mk.inj (some.inj (hsnapshot.symm.trans hsame))
    exact hnone job hjob hfor hpending
  · intro hclear
    refine ⟨?_, hturned.others, ?_⟩
    · rintro ⟨hmarked, hfresh⟩
      rcases hturned.own with ⟨state, hcurrent, hstrong, -⟩ | ⟨-, -, hread⟩
      · obtain ⟨hverdict, jobs, requests, hsnapshot, hdead⟩ :=
          (strongOrphan_iff_of_current hcurrent).mp hstrong
        refine ⟨henabled, state, hcurrent, hverdict, jobs, requests, hsnapshot, hdead, ?_⟩
        exact fun job hjob hfor hpending => hclear ⟨state, hcurrent, hverdict, jobs, requests,
          hsnapshot, hdead, job, hjob, hfor, hpending⟩
      · rw [hread] at hmarked
        obtain ⟨state, hcurrent, habandoned⟩ := (any_eq_true _ _).mp hmarked
        rw [hfresh state hcurrent] at habandoned
        cases habandoned
    · intro repository pr state hcurrent habandoned
      by_cases hkey : scopedKey repository pr = scopedKey step.repository step.pr
      · rw [ShipStore.current_key hkey] at hcurrent ⊢
        rcases hturned.own with ⟨found, hfound, hstrong, -⟩ | ⟨-, hsame, -⟩
        · obtain rfl := some.inj (hcurrent.symm.trans hfound)
          rw [abandoned_of_inFlight ((classify_queueStale_iff _ _ _ _).mp hstrong).1] at habandoned
          cases habandoned
        · exact hsame.trans hcurrent
      · exact (hturned.others repository pr hkey).trans hcurrent

theorem turned_of_mem_sweepTurns {turn : String → Nat → SweepTurn}
    {candidates : List (String × Nat)} {world : ShipWorld}
    (hstep : step ∈ sweepTurns turn staleAfter now candidates world) :
    Turned step.found.queue staleAfter now step.repository step.pr step.found.store
      step.left.store := by
  induction candidates generalizing world with
  | nil => cases hstep
  | cons candidate rest ih =>
    obtain ⟨repository, pr⟩ := candidate
    rcases List.mem_cons.mp hstep with rfl | hrest
    · exact turned_abandonOne ((turn repository pr).interfere world).filed
    · exact ih hrest

end Safe

def shipEnvelope (jobId : String) : QueuedExecutionEnvelope where
  jobId := jobId
  kind := .ship
  cwd := "/work"
  resourcePlan := { targets := ["mac"] }
  request := .ship
    { pr := 7, repo := "owner/repo", branch := "topic", sha := "abc", mode := .full
      targets := ["mac"] }

def shipRequests : QueueRequestStore where
  load jobId := .ok (some (shipEnvelope jobId))
  canonicalize := id

/-- A worker that started at time zero and was not heard of since. -/
def deadJob : Job :=
  { Job.create "sy-1" "abc" "topic" ["mac"] .full .normal 0 with
    status := .running, startedAt := some 0 }

/-- The job of the next attempt waits in the queue. -/
def queuedJob : Job := .create "sy-2" "def" "topic" ["mac"] .full .normal 1

theorem filed_empty : ShipStore.empty.Filed where
  records _ _ hget := by cases hget
  mirrors _ _ hread := by cases hread

def inFlightShip : ShipState := ShipStore.recordAt 0

def queuedWorld : ShipWorld where
  store := ShipStore.empty.persistScoped "owner/repo" 7 inFlightShip
  filed := filed_empty.persistScoped (ShipStore.sameRepository_refl _) rfl
  mirrors := []
  queue :=
    { queueIsFile := true, jobs := .ok [deadJob, queuedJob]
      requestDirExists := true, requests := .ok shipRequests }

/-- Nothing happens between the snapshot and the lock. -/
def quietSweep : SweepEnv where
  decode _ := some { autoResume := true }
  turn _ _ := ⟨id, defaultRunningJobStaleAfter⟩

def resumeConfig : LoadedConfig where
  data := { entries := [("ship_state", .table [("auto_resume", .leaf (.boolean true))])]
            ordered := rfl }
  globalDir := "/etc/shipyard"

end Shipyard.Ship
