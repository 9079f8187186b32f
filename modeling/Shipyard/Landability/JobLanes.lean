import Shipyard.Landability.Assess
import Shipyard.Lib.Checks

/-!
# The lanes of one job

What the `runs-on` of a job gives: a lane, unless it is computed at run time from
variables of which none is set. The verdict of a lane depends on its routing value
alone, and keeping the best candidate hides no measurement.
-/

namespace Shipyard.Landability

open Lib List Option

/-- What a job's `runs-on` resolves to. -/
def resolution (job : WorkflowJob) : Option RunsOnResolution :=
  job.runsOnExpr.bind resolveRunsOnExpr

/-- The candidates of a `runs-on` that is computed at run time. -/
def candidatesOf (input : AssessInput) (job : WorkflowJob) : List String :=
  match resolution job with
  | some (.dynamic _ fromJobs) => dynamicCandidates input.jobs (dynamicSources job fromJobs)
  | _ => []

/-- The `runs-on` goes through a routing variable, directly or as a candidate. -/
def ThroughVariable (input : AssessInput) (job : WorkflowJob) : Prop :=
  (∃ name fallback, resolution job = some (.fromVariable name fallback)) ∨
    candidatesOf input job ≠ []

/-- The verdict of a routing value after waivers. It is the same for every lane. -/
def measuredVerdict (input : AssessInput) (now : Time) (raw : String) : Option Schedulability :=
  (assessLane input.fleet "" "" .producer "" raw input.censusBoundary now).map fun lane =>
    (waive input lane).verdict

/-! ## Verdicts -/

section Verdicts

variable {input : AssessInput} {now : Time} {context : String} {lane : LaneAssessment}

/-- A waiver leaves a verdict other than unserved. -/
theorem waive_verdict (hserved : lane.verdict ≠ .unserved) :
    (waive input lane).verdict = lane.verdict := by
  unfold waive
  rw [if_neg fun hwaived => hserved hwaived.1]

theorem unknownLane_isSome (hfresh : (input.fleet.attestations.freshHosts now).isSome = true)
    (jobId detail : String) (role : LaneRole) (boundary : Boundary) :
    ∃ lane, unknownLane input context now jobId role detail boundary = some lane := by
  obtain ⟨lane, hlane⟩ := assessLane_isSome hfresh context jobId role "unresolved" ""
    (some boundary)
  exact ⟨_, map_eq_some_iff.mpr ⟨lane, hlane, rfl⟩⟩

/-- A lane's service verdict and labels come from the routing value alone. -/
theorem assessLaneService_source (parseJson : String → Option Json) (source source' raw : String)
    (census : List RegisteredRunner) (boundary : Option Boundary) :
    (assessLaneService parseJson source raw census boundary).verdict =
        (assessLaneService parseJson source' raw census boundary).verdict ∧
      (assessLaneService parseJson source raw census boundary).declaration =
        (assessLaneService parseJson source' raw census boundary).declaration := by
  unfold assessLaneService
  dsimp only
  split
  · exact ⟨rfl, rfl⟩
  · exact ⟨rfl, rfl⟩
  · exact ⟨rfl, rfl⟩
  · cases boundary with
    | some boundary => exact ⟨rfl, rfl⟩
    | none =>
      unfold classifyServedLane
      dsimp only
      split <;> exact ⟨rfl, rfl⟩

variable {role : LaneRole} {lanes : List LaneAssessment}

theorem assessLane_spec {fleet : Fleet} {jobId source raw : String} {boundary : Option Boundary}
    (hlane : assessLane fleet context jobId role source raw boundary now = some lane) :
    (∃ attested, foldAttestation (assessLaneService fleet.parseJson source raw fleet.census
        boundary) fleet.attestations now = some (lane.verdict, attested)) ∧
      lane.report.declaration =
        (assessLaneService fleet.parseJson source raw fleet.census boundary).declaration := by
  unfold assessLane at hlane
  obtain ⟨⟨verdict, attested⟩, hfold, rfl⟩ := map_eq_some_iff.mp hlane
  refine ⟨⟨attested, hfold⟩, ?_⟩
  dsimp only
  split <;> rfl

theorem waive_congr {lane lane' : LaneAssessment} (hverdict : lane.verdict = lane'.verdict)
    (hdeclaration : lane.report.declaration = lane'.report.declaration) :
    (waive input lane).verdict = (waive input lane').verdict := by
  unfold waive
  rw [hverdict, hdeclaration]
  split
  · rfl
  · exact hverdict

/-- The verdict of a lane depends on its routing value alone. -/
theorem measuredVerdict_eq (hfresh : (input.fleet.attestations.freshHosts now).isSome = true)
    {jobId source raw : String}
    (hlane : assessLane input.fleet context jobId role source raw input.censusBoundary now = some
      lane) : measuredVerdict input now raw = some (waive input lane).verdict := by
  obtain ⟨other, hother⟩ :=
    assessLane_isSome hfresh "" "" .producer "" raw input.censusBoundary
  obtain ⟨⟨attested, hfold⟩, hdeclaration⟩ := assessLane_spec hlane
  obtain ⟨⟨attested', hfold'⟩, hdeclaration'⟩ := assessLane_spec hother
  obtain ⟨hservice, hlabels⟩ := assessLaneService_source input.fleet.parseJson source "" raw
    input.fleet.census input.censusBoundary
  rw [foldAttestation, hservice, hlabels, ← foldAttestation, hfold'] at hfold
  rw [measuredVerdict, hother, map_some]
  exact congrArg some (waive_congr (congrArg Prod.fst (some.inj hfold))
    (hdeclaration'.trans (hlabels.symm.trans hdeclaration.symm)))

/-! ## Candidates -/

theorem keepBest_eq_nil : keepBest lanes = [] ↔ lanes = [] := by
  unfold keepBest
  split
  · rw [take_eq_nil_iff, or_iff_right Nat.one_ne_zero, ← length_eq_zero_iff,
      length_insertionSort, length_eq_zero_iff]
  · exact Iff.rfl

/-- Keeping the best lane hides no measurement: where all that is kept is unknown, all
is. -/
theorem keepBest_unknown : (∀ lane ∈ keepBest lanes, (waive input lane).verdict = .unknown) ↔
      ∀ lane ∈ lanes, (waive input lane).verdict = .unknown := by
  unfold keepBest
  split
  next hserved =>
    -- Some lane can be scheduled, so the best one can: neither side holds.
    obtain ⟨lane, hlane, hverdict⟩ := List.any_eq_true.mp hserved
    rw [Bool.and_eq_true, Bool.not_eq_true', decide_eq_true_iff] at hverdict
    have hrank : lane.verdict.rank < 3 := by
      revert hverdict
      cases lane.verdict <;> simp [Schedulability.blocks, Schedulability.rank]
    have hsorted := pairwise_insertionSort
      (fun first second : LaneAssessment => first.verdict.rank ≤ second.verdict.rank) lanes
    have hmem := (mem_insertionSort
      (fun first second : LaneAssessment => first.verdict.rank ≤ second.verdict.rank)).mpr hlane
    have hnot {best : LaneAssessment} (hbest : best.verdict.rank < 3) :
        (waive input best).verdict ≠ .unknown := by
      rw [waive_verdict]
      · rintro hunknown
        rw [hunknown] at hbest
        exact absurd hbest (by decide)
      · rintro hunserved
        rw [hunserved] at hbest
        exact absurd hbest (by decide)
    refine iff_of_false (fun hall => ?_) fun hall => hnot hrank (hall lane hlane)
    cases hlist : lanes.insertionSort
        (fun first second : LaneAssessment => first.verdict.rank ≤ second.verdict.rank) with
    | nil =>
      rw [hlist] at hmem
      cases hmem
    | cons best rest =>
      rw [hlist] at hmem hsorted hall
      refine hnot ?_ (hall best mem_cons_self)
      rcases mem_cons.mp hmem with rfl | hmem
      · exact hrank
      · exact lt_of_le_of_lt (rel_of_pairwise_cons hsorted hmem) hrank
  · exact Iff.rfl

theorem mem_setCandidates {candidates : List String} {name raw : String} :
    (name, raw) ∈ setCandidates input candidates ↔
      name ∈ candidates ∧ lookupVariable input name = some raw := by
  rw [setCandidates, mem_filterMap]
  constructor
  · rintro ⟨found, hfound, hentry⟩
    obtain ⟨value, hvalue, heq⟩ := map_eq_some_iff.mp hentry
    cases heq
    exact ⟨hfound, hvalue⟩
  · rintro ⟨hname, hraw⟩
    exact ⟨name, hname, by rw [hraw]; rfl⟩

end Verdicts

/-! ## One job -/

section Job

variable {input : AssessInput} {now : Time} {context : String} {job : WorkflowJob}
  {role : LaneRole}

/-- A job whose only lane is unknown. -/
theorem lanes_of_unknown (job : WorkflowJob) {detail : String} {boundary : Boundary}
    (hfresh : (input.fleet.attestations.freshHosts now).isSome = true) :
    ∃ lanes, (do return [← unknownLane input context now job.id role detail boundary] :
        Option (List LaneAssessment)) = some lanes ∧ lanes ≠ [] ∧
      ∀ lane ∈ lanes, (waive input lane).verdict = .unknown := by
  obtain ⟨lane, hlane⟩ := unknownLane_isSome hfresh job.id detail role boundary
  refine ⟨[lane], by rw [hlane]; rfl, cons_ne_nil _ _, fun other hother => ?_⟩
  cases mem_singleton.mp hother
  obtain ⟨measured, -, rfl⟩ := map_eq_some_iff.mp hlane
  unfold waive
  split <;> rfl

/-- A job whose only lane is measured. -/
theorem lanes_of_measured {source raw : String}
    (hfresh : (input.fleet.attestations.freshHosts now).isSome = true) :
    ∃ lanes, (do return [← assessLane input.fleet context job.id role source raw
        input.censusBoundary now] : Option (List LaneAssessment)) = some lanes ∧ lanes ≠ [] := by
  obtain ⟨lane, hlane⟩ :=
    assessLane_isSome hfresh context job.id role source raw input.censusBoundary
  exact ⟨[lane], by rw [hlane]; rfl, cons_ne_nil _ _⟩

/-- A dynamic job has a lane for its candidates that are set, or one unknown lane where
none is visible. -/
theorem assessDynamicLane_spec {origin : String} {fromJobs : List String}
    (hfresh : (input.fleet.attestations.freshHosts now).isSome = true)
    (hdynamic : resolution job = some (.dynamic origin fromJobs)) :
    ∃ lanes, assessDynamicLane input context now job role origin fromJobs = some lanes ∧
      (lanes ≠ [] ↔ (candidatesOf input job ≠ [] →
        ∃ name ∈ candidatesOf input job, (lookupVariable input name).isSome = true)) ∧
      ((∀ lane ∈ lanes, (waive input lane).verdict = .unknown) ↔
        ∀ name ∈ candidatesOf input job, ∀ raw, lookupVariable input name = some raw →
          measuredVerdict input now raw = some .unknown) := by
  rw [candidatesOf, hdynamic]
  unfold assessDynamicLane
  dsimp only
  split
  next hempty =>
    rw [List.isEmpty_iff] at hempty
    obtain ⟨lanes, hlanes, hsome, hunknown⟩ := lanes_of_unknown job hfresh
    refine ⟨lanes, hlanes, iff_of_true hsome fun hnot => absurd hempty hnot,
      iff_of_true hunknown ?_⟩
    rw [hempty]
    exact nofun
  next hvisible =>
    rw [List.isEmpty_iff] at hvisible
    have hmap : ((setCandidates input (dynamicCandidates input.jobs
        (dynamicSources job fromJobs))).mapM (candidateLane input context now job role origin
          (",".intercalate (dynamicCandidates input.jobs
            (dynamicSources job fromJobs))))).isSome = true := by
      rw [Option.mapM_isSome_iff]
      intro entry _
      exact isSome_iff_exists.mpr
        (assessLane_isSome hfresh context job.id role _ entry.2 input.censusBoundary)
    obtain ⟨lanes, hlanes⟩ := isSome_iff_exists.mp hmap
    have hmem (lane : LaneAssessment) := Option.mem_of_mapM hlanes (b := lane)
    rw [hlanes]
    refine ⟨keepBest lanes, rfl, ?_, keepBest_unknown.trans ?_⟩
    · rw [ne_eq, keepBest_eq_nil, ← ne_eq, forall_prop_of_true hvisible]
      constructor
      · intro hsome
        obtain ⟨lane, hlane⟩ := exists_mem_of_ne_nil lanes hsome
        obtain ⟨⟨name, raw⟩, hentry, -⟩ := (hmem lane).mp hlane
        obtain ⟨hname, hraw⟩ := mem_setCandidates.mp hentry
        exact ⟨name, hname, by rw [hraw]; rfl⟩
      · rintro ⟨name, hname, hset⟩
        obtain ⟨raw, hraw⟩ := isSome_iff_exists.mp hset
        obtain ⟨lane, hlane⟩ := isSome_iff_exists.mp
          (Option.mapM_isSome_iff.mp hmap (name, raw) (mem_setCandidates.mpr ⟨hname, hraw⟩))
        exact ne_nil_of_mem
          ((hmem lane).mpr ⟨(name, raw), mem_setCandidates.mpr ⟨hname, hraw⟩, hlane⟩)
    · constructor
      · intro hunknown name hname raw hraw
        have hentry := mem_setCandidates.mpr ⟨hname, hraw⟩
        obtain ⟨lane, hlane⟩ := isSome_iff_exists.mp
          (Option.mapM_isSome_iff.mp hmap (name, raw) hentry)
        rw [measuredVerdict_eq hfresh hlane, hunknown lane ((hmem lane).mpr ⟨_, hentry, hlane⟩)]
      · intro hmeasured lane hlane
        obtain ⟨⟨name, raw⟩, hentry, hfound⟩ := (hmem lane).mp hlane
        obtain ⟨hname, hraw⟩ := mem_setCandidates.mp hentry
        exact some.inj
          ((measuredVerdict_eq hfresh hfound).symm.trans (hmeasured _ hname _ hraw))

/-- What a job gives: a lane, unless it is dynamic and no candidate is set; and where
the variables could not be read, nothing measured through one, unless the value of a
candidate is. -/
structure JobLanes (input : AssessInput) (now : Time) (job : WorkflowJob)
    (lanes : List LaneAssessment) : Prop where
  some_lane : lanes ≠ [] ↔ (candidatesOf input job ≠ [] →
    ∃ name ∈ candidatesOf input job, (lookupVariable input name).isSome = true)
  unread : input.variablesBoundary ≠ none → ThroughVariable input job →
    ((∀ lane ∈ lanes, (waive input lane).verdict = .unknown) ↔
      ∀ name ∈ candidatesOf input job, ∀ raw, lookupVariable input name = some raw →
        measuredVerdict input now raw = some .unknown)

variable {lanes : List LaneAssessment}

/-- A job that has no candidates and gives a lane, which is unknown where it goes
through a variable that was not read. -/
theorem JobLanes.of_static (hcandidates : candidatesOf input job = []) (hlanes : lanes ≠ [])
    (hunread : input.variablesBoundary ≠ none → ThroughVariable input job →
      ∀ lane ∈ lanes, (waive input lane).verdict = .unknown) : JobLanes input now job lanes where
  some_lane := iff_of_true hlanes fun hnot => absurd hcandidates hnot
  unread := fun hboundary hthrough => by
    rw [hcandidates]
    exact iff_of_true (hunread hboundary hthrough) nofun

theorem assessJob_spec (context : String) (role : LaneRole)
    (hfresh : (input.fleet.attestations.freshHosts now).isSome = true)
    (hreadable : ∀ expr, job.runsOnExpr = some expr → (resolveRunsOnExpr expr).isSome = true) :
    ∃ lanes, assessJob input context now job role = some lanes ∧
      JobLanes input now job lanes := by
  unfold assessJob
  cases hexpr : job.runsOnExpr with
  | none =>
    obtain ⟨lanes, hlanes, hsome, hunknown⟩ := lanes_of_unknown job hfresh
    refine ⟨lanes, hlanes, .of_static ?_ hsome fun _ _ => hunknown⟩
    rw [candidatesOf, resolution, hexpr]
    rfl
  | some expr =>
    obtain ⟨resolved, hresolved⟩ := isSome_iff_exists.mp (hreadable expr hexpr)
    have hresolution : resolution job = some resolved := by
      rw [resolution, hexpr, bind_some, hresolved]
    dsimp only
    rw [hresolved, bind_eq_bind, bind_some]
    cases resolved with
    | literal value =>
      obtain ⟨lanes, hlanes, hsome⟩ := lanes_of_measured hfresh
      refine ⟨lanes, hlanes, .of_static ?_ hsome fun _ hthrough => ?_⟩
      · rw [candidatesOf, hresolution]
      · rcases hthrough with ⟨name, fallback, hvariable⟩ | hcandidates
        · cases hresolution.symm.trans hvariable
        · rw [candidatesOf, hresolution] at hcandidates
          exact absurd rfl hcandidates
    | fromVariable name fallback =>
      have hcandidates : candidatesOf input job = [] := by rw [candidatesOf, hresolution]
      dsimp only
      split
      · obtain ⟨lanes, hlanes, hsome, hunknown⟩ := lanes_of_unknown job hfresh
        exact ⟨lanes, hlanes, .of_static hcandidates hsome fun _ _ => hunknown⟩
      next hread =>
        split
        · obtain ⟨lanes, hlanes, hsome⟩ := lanes_of_measured hfresh
          exact ⟨lanes, hlanes, .of_static hcandidates hsome fun hnot => absurd hread hnot⟩
        · obtain ⟨lanes, hlanes, hsome, hunknown⟩ := lanes_of_unknown job hfresh
          exact ⟨lanes, hlanes, .of_static hcandidates hsome fun _ _ => hunknown⟩
    | dynamic origin fromJobs =>
      obtain ⟨lanes, hlanes, hsome, hunread⟩ := assessDynamicLane_spec hfresh hresolution
      exact ⟨lanes, hlanes, hsome, fun _ _ => hunread⟩
    | unparsable raw =>
      obtain ⟨lanes, hlanes, hsome, hunknown⟩ := lanes_of_unknown job hfresh
      refine ⟨lanes, hlanes, .of_static ?_ hsome fun _ _ => hunknown⟩
      rw [candidatesOf, hresolution]

/-- A job that gives lanes could be read. -/
theorem readable_of_assessJob (hlanes : assessJob input context now job role = some lanes)
    {expr : String} (hexpr : job.runsOnExpr = some expr) :
    (resolveRunsOnExpr expr).isSome = true := by
  unfold assessJob at hlanes
  rw [hexpr] at hlanes
  obtain ⟨resolved, hresolved, -⟩ := bind_eq_some_iff.mp hlanes
  rw [hresolved]
  rfl

end Job

end Shipyard.Landability
