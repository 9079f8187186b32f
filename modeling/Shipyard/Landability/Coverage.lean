import Shipyard.Landability.JobLanes

/-!
# Whether every lane is measured

A required context is covered when each job that may produce it, and each job these
need, has a lane in the report made from its own `runs-on`. Jobs are looked up by id,
variables that are not set give no lane, and an expression may not be read at all: the
theorem says exactly when the report covers its contexts.
-/

namespace Shipyard.Landability

open Lib List Option

/-- The jobs a context rests on: those that may produce it, and any job one of them
needs. -/
inductive Covered (jobs : List WorkflowJob) (context : String) : WorkflowJob → Prop
  | producer {job : WorkflowJob} : job ∈ jobs → job.produces context = true →
      Covered jobs context job
  | need {job other : WorkflowJob} : Covered jobs context job → other ∈ jobs →
      other.id ∈ job.needs → Covered jobs context other

/-- Two jobs of one id that ask for the same runners: what a lane is made from. -/
structure SameRouting (job other : WorkflowJob) : Prop where
  id : other.id = job.id
  runsOn : other.runsOnExpr = job.runsOnExpr
  needs : other.needs = job.needs

theorem SameRouting.refl (job : WorkflowJob) : SameRouting job job := ⟨rfl, rfl, rfl⟩

/-- A lane made from a job's own `runs-on`. -/
def MadeFrom (input : AssessInput) (now : Time) (context : String) (job : WorkflowJob)
    (lane : LaneAssessment) : Prop :=
  ∃ other role lanes raw, (context, other, role) ∈ assessed input ∧ SameRouting job other ∧
    assessJob input context now other role = some lanes ∧ raw ∈ lanes ∧ waive input raw = lane

/-- The report covers its contexts: each job has a lane of its own, and no lane that
goes through a variable nobody could read is taken for measured. -/
structure Covers (input : AssessInput) (now : Time) (report : LandabilityReport) : Prop where
  measured : ∀ context ∈ input.contexts, ∀ job, Covered input.jobs context job →
    ∃ lane ∈ report.lanes, MadeFrom input now context job lane
  unread : input.variablesBoundary ≠ none → ∀ context job lane, lane ∈ report.lanes →
    MadeFrom input now context job lane → ThroughVariable input job → lane.verdict = .unknown

/-- Nothing keeps a job from being measured: the first job with its id asks for the same
runners, its expression can be read, and of its candidates one is set. Where the
variables could not be read, the candidates' values are no measurement. -/
structure Measurable (input : AssessInput) (now : Time) (job : WorkflowJob) : Prop where
  first : ∃ other, jobNamed input.jobs job.id = some other ∧ SameRouting job other
  readable : ∀ expr, job.runsOnExpr = some expr → (resolveRunsOnExpr expr).isSome = true
  candidate : candidatesOf input job ≠ [] →
    ∃ name ∈ candidatesOf input job, (lookupVariable input name).isSome = true
  unread : input.variablesBoundary ≠ none → ∀ name ∈ candidatesOf input job, ∀ raw,
    lookupVariable input name = some raw → measuredVerdict input now raw = some .unknown

/-! ## Routing -/

section Routing

variable {input : AssessInput} {now : Time} {job other : WorkflowJob}

theorem SameRouting.resolution_eq (hsame : SameRouting job other) :
    resolution other = resolution job := by
  rw [resolution, resolution, hsame.runsOn]

theorem SameRouting.candidatesOf_eq (hsame : SameRouting job other) :
    candidatesOf input other = candidatesOf input job := by
  unfold candidatesOf dynamicSources
  rw [hsame.resolution_eq, hsame.needs]

theorem SameRouting.throughVariable_iff (hsame : SameRouting job other) :
    ThroughVariable input other ↔ ThroughVariable input job := by
  rw [ThroughVariable, ThroughVariable, hsame.resolution_eq, hsame.candidatesOf_eq]

end Routing

/-! ## The closure -/

section Closure

variable {jobs : List WorkflowJob} {context : String}

variable {id : String} {input : AssessInput}

theorem mem_producersOf :
    id ∈ producersOf jobs context ↔ ∃ job ∈ jobs, job.produces context = true ∧ job.id = id := by
  rw [producersOf, List.mem_map]
  simp only [mem_filter, and_assoc]

/-- An id reached from the producers through the jobs that are found by id. -/
def Reached (jobs : List WorkflowJob) (context id : String) : Prop :=
  ∃ root ∈ producersOf jobs context, Relation.ReflTransGen (Leads jobs) root id

variable {job : WorkflowJob}

theorem mem_assessed {role : LaneRole} (hmem : (context, job, role) ∈ assessed input) :
    context ∈ input.contexts ∧ Reached input.jobs context job.id ∧
      jobNamed input.jobs job.id = some job := by
  obtain ⟨found, hcontext, hmem⟩ := mem_flatMap.mp hmem
  obtain ⟨entry, hentry, heq⟩ := List.mem_map.mp hmem
  cases heq
  obtain ⟨id, hid, hentry⟩ := mem_filterMap.mp hentry
  obtain ⟨named, hnamed, heq⟩ := map_eq_some_iff.mp hentry
  cases heq
  cases jobNamed_id hnamed
  exact ⟨hcontext, mem_transitiveNeeds.mp hid, hnamed⟩

theorem exists_assessed (hcontext : context ∈ input.contexts)
    (hreached : Reached input.jobs context id) (hnamed : jobNamed input.jobs id = some job) :
    ∃ role, (context, job, role) ∈ assessed input := by
  have hclosure : (job, if id ∈ producersOf input.jobs context then .producer else .prerequisite) ∈
      closureJobs input.jobs context :=
    mem_filterMap.mpr ⟨id, mem_transitiveNeeds.mpr hreached, by rw [hnamed]; rfl⟩
  exact ⟨_, mem_flatMap.mpr ⟨context, hcontext, List.mem_map_of_mem hclosure⟩⟩

/-- Every covered job asks for the same runners as the first job with its id. -/
def FirstSame (jobs : List WorkflowJob) (context : String) : Prop :=
  ∀ job, Covered jobs context job →
    ∃ other, jobNamed jobs job.id = some other ∧ SameRouting job other

theorem Covered.reached (hfirst : FirstSame jobs context) (hcovered : Covered jobs context job) :
    Reached jobs context job.id := by
  induction hcovered with
  | @producer job hjob hproduces =>
    exact ⟨job.id, mem_producersOf.mpr ⟨job, hjob, hproduces, rfl⟩, .refl⟩
  | @need job other hcovered _ hneed ih =>
    obtain ⟨root, hroot, hreach⟩ := ih
    obtain ⟨first, hnamed, hsame⟩ := hfirst job hcovered
    exact ⟨root, hroot, hreach.tail ⟨first, hnamed, hsame.needs ▸ hneed⟩⟩

theorem Reached.covered (hfirst : FirstSame jobs context) (hreached : Reached jobs context id)
    {other : WorkflowJob} (hnamed : jobNamed jobs id = some other) :
    ∃ job, Covered jobs context job ∧ SameRouting job other := by
  obtain ⟨root, hroot, hreach⟩ := hreached
  induction hreach generalizing other with
  | refl =>
    obtain ⟨job, hjob, hproduces, rfl⟩ := mem_producersOf.mp hroot
    obtain ⟨first, hfound, hsame⟩ := hfirst job (.producer hjob hproduces)
    cases hnamed.symm.trans hfound
    exact ⟨job, .producer hjob hproduces, hsame⟩
  | @tail middle last _ hleads ih =>
    obtain ⟨found, hfound, hneed⟩ := hleads
    obtain ⟨job, hcovered, hsame⟩ := ih hfound
    refine ⟨other, hcovered.need (jobNamed_mem hnamed) ?_, .refl other⟩
    rw [jobNamed_id hnamed, ← hsame.needs]
    exact hneed

end Closure

/-! ## The report -/

section Report

variable {input : AssessInput} {now : Time} {report : LandabilityReport}

theorem assess_ok (hassess : assess input now = some report) :
    (input.fleet.attestations.freshHosts now).isSome = true ∧
      (∀ context job role, (context, job, role) ∈ assessed input →
        (assessJob input context now job role).isSome = true) ∧
      ∀ lane, lane ∈ report.lanes ↔ ∃ context job role lanes raw,
        (context, job, role) ∈ assessed input ∧
          assessJob input context now job role = some lanes ∧ raw ∈ lanes ∧
          waive input raw = lane := by
  obtain ⟨fresh, hfresh, hassess⟩ := bind_eq_some_iff.mp hassess
  obtain ⟨lists, hlists, hassess⟩ := bind_eq_some_iff.mp hassess
  cases hassess
  refine ⟨by rw [hfresh]; rfl, fun context job role hmem => ?_, fun lane => ?_⟩
  · have hall := Option.mapM_isSome_iff.mp (by rw [hlists]; rfl)
    exact hall (context, job, role) hmem
  · simp only [List.mem_map, mem_flatten, Option.mem_of_mapM hlists]
    constructor
    · rintro ⟨raw, ⟨lanes, ⟨⟨context, job, role⟩, hmem, hlanes⟩, hraw⟩, hlane⟩
      exact ⟨context, job, role, lanes, raw, hmem, hlanes, hraw, hlane⟩
    · rintro ⟨context, job, role, lanes, raw, hmem, hlanes, hraw, hlane⟩
      exact ⟨raw, ⟨lanes, ⟨⟨context, job, role⟩, hmem, hlanes⟩, hraw⟩, hlane⟩

theorem exists_report (hfresh : (input.fleet.attestations.freshHosts now).isSome = true)
    (hjobs : ∀ context job role, (context, job, role) ∈ assessed input →
      (assessJob input context now job role).isSome = true) :
    ∃ report, assess input now = some report := by
  obtain ⟨fresh, hfresh⟩ := isSome_iff_exists.mp hfresh
  have hmap : ((assessed input).mapM fun (context, job, role) =>
      assessJob input context now job role).isSome = true :=
    Option.mapM_isSome_iff.mpr fun ⟨context, job, role⟩ hmem => hjobs context job role hmem
  obtain ⟨lists, hlists⟩ := isSome_iff_exists.mp hmap
  unfold assess
  rw [hfresh, bind_eq_bind, bind_some, hlists]
  exact ⟨_, rfl⟩

/-- A report that covers its contexts leaves every job measurable. -/
theorem measurable_of_covers (hassess : assess input now = some report)
    (hcovers : Covers input now report) {context : String} (hcontext : context ∈ input.contexts)
    {job : WorkflowJob} (hcovered : Covered input.jobs context job) :
    Measurable input now job := by
  obtain ⟨hfresh, hjobs, hlanes⟩ := assess_ok hassess
  obtain ⟨lane, hlane, other, role, lanes, raw, hmem, hsame, hlanesOf, hraw, rfl⟩ :=
    hcovers.measured context hcontext job hcovered
  obtain ⟨-, -, hnamed⟩ := mem_assessed hmem
  have hreadable (expr : String) (hexpr : other.runsOnExpr = some expr) :
      (resolveRunsOnExpr expr).isSome = true := readable_of_assessJob hlanesOf hexpr
  obtain ⟨lanes', hlanes', hspec⟩ := assessJob_spec context role hfresh hreadable
  cases hlanesOf.symm.trans hlanes'
  constructor
  · exact ⟨other, hsame.id ▸ hnamed, hsame⟩
  · intro expr hexpr
    exact hreadable expr (hsame.runsOn.trans hexpr)
  · rw [← hsame.candidatesOf_eq]
    exact hspec.some_lane.mp (ne_nil_of_mem hraw)
  · intro hboundary name hname value hvalue
    have hthrough : ThroughVariable input other := by
      rw [hsame.throughVariable_iff]
      exact .inr (ne_nil_of_mem hname)
    rw [← hsame.candidatesOf_eq] at hname
    refine (hspec.unread hboundary hthrough).mp (fun found hfound => ?_) name hname value hvalue
    have hmade : MadeFrom input now context other (waive input found) :=
      ⟨other, role, lanes, found, hmem, .refl other, hlanesOf, hfound, rfl⟩
    refine hcovers.unread hboundary context other _ ?_ hmade hthrough
    exact (hlanes _).mpr ⟨context, other, role, lanes, found, hmem, hlanesOf, hfound, rfl⟩

/-- Where the attestations can be read and every job is measurable, the report covers
its contexts. -/
theorem covers_of_measurable (hfresh : (input.fleet.attestations.freshHosts now).isSome = true)
    (hmeasurable : ∀ context ∈ input.contexts, ∀ job, Covered input.jobs context job →
      Measurable input now job) :
    ∃ report, assess input now = some report ∧ Covers input now report := by
  have hfirst {context : String} (hcontext : context ∈ input.contexts) :
      FirstSame input.jobs context :=
    fun job hcovered => (hmeasurable context hcontext job hcovered).first
  -- An assessed job asks for the same runners as a covered one.
  have hassessed {context : String} {other : WorkflowJob} {role : LaneRole}
      (hmem : (context, other, role) ∈ assessed input) :
      ∃ job, SameRouting job other ∧ Measurable input now job := by
    obtain ⟨hcontext, hreached, hnamed⟩ := mem_assessed hmem
    obtain ⟨job, hcovered, hsame⟩ := hreached.covered (hfirst hcontext) hnamed
    exact ⟨job, hsame, hmeasurable context hcontext job hcovered⟩
  have hspec {context : String} {other : WorkflowJob} {role : LaneRole}
      (hmem : (context, other, role) ∈ assessed input) :
      ∃ lanes, assessJob input context now other role = some lanes ∧
        JobLanes input now other lanes := by
    obtain ⟨job, hsame, hjob⟩ := hassessed hmem
    exact assessJob_spec context role hfresh fun expr hexpr =>
      hjob.readable expr (hsame.runsOn.symm.trans hexpr)
  obtain ⟨report, hreport⟩ := exists_report hfresh fun context job role hmem => by
    obtain ⟨lanes, hlanes, -⟩ := hspec hmem
    rw [hlanes]
    rfl
  obtain ⟨-, -, hlanes⟩ := assess_ok hreport
  refine ⟨report, hreport, fun context hcontext job hcovered => ?_,
    fun hboundary context job lane _ hmade hthrough => ?_⟩
  · obtain ⟨other, hnamed, hsame⟩ := hfirst hcontext job hcovered
    obtain ⟨role, hmem⟩ := exists_assessed hcontext (hcovered.reached (hfirst hcontext)) hnamed
    obtain ⟨lanesOf, hlanesOf, hjob⟩ := hspec hmem
    have hsome : lanesOf ≠ [] := by
      rw [hjob.some_lane, hsame.candidatesOf_eq]
      exact (hmeasurable context hcontext job hcovered).candidate
    obtain ⟨raw, hraw⟩ := exists_mem_of_ne_nil lanesOf hsome
    exact ⟨waive input raw,
      (hlanes _).mpr ⟨context, other, role, lanesOf, raw, hmem, hlanesOf, hraw, rfl⟩,
      other, role, lanesOf, raw, hmem, hsame, hlanesOf, hraw, rfl⟩
  · obtain ⟨other, role, lanesOf, raw, hmem, hsame, hlanesOf, hraw, rfl⟩ := hmade
    obtain ⟨lanes', hlanes', hjob⟩ := hspec hmem
    cases hlanesOf.symm.trans hlanes'
    obtain ⟨covered, hsame', hmeasured⟩ := hassessed hmem
    refine (hjob.unread hboundary (hsame.throughVariable_iff.mpr hthrough)).mpr ?_ raw hraw
    rw [hsame'.candidatesOf_eq]
    exact hmeasured.unread hboundary

/-- The report covers its contexts exactly where nothing keeps a job it rests on from
being measured. -/
theorem report_covers_iff (input : AssessInput) (now : Time) :
    (∃ report, assess input now = some report ∧ Covers input now report) ↔
      (input.fleet.attestations.freshHosts now).isSome = true ∧
        ∀ context ∈ input.contexts, ∀ job, Covered input.jobs context job →
          Measurable input now job := by
  constructor
  · rintro ⟨report, hassess, hcovers⟩
    exact ⟨(assess_ok hassess).1, fun context hcontext job hcovered =>
      measurable_of_covers hassess hcovers hcontext hcovered⟩
  · rintro ⟨hfresh, hmeasurable⟩
    exact covers_of_measurable hfresh hmeasurable

end Report

/-- An input for the context `macos`, without runners, attestations or variables. -/
def bareInput (jobs : List WorkflowJob) (variablesBoundary : Option Boundary) : AssessInput where
  contexts := ["macos"]
  contextsSource := "branch_protection"
  jobs := jobs
  vars := []
  fleet := ⟨fun _ => none, [], ⟨[], []⟩⟩
  censusBoundary := none
  variablesBoundary := variablesBoundary
  allowUnserved := []

def hostedJob (id runsOn : String) : WorkflowJob := ⟨id, none, [], some runsOn, []⟩

/-- A job that runs where another one picks, from a variable that could not be read. -/
def unreadInput : AssessInput :=
  bareInput
    [{ hostedJob "pick" "ubuntu-latest" with varRefs := ["MACOS_RUNS_ON_JSON"] },
      { hostedJob "macos" "$\x7b\x7b fromJSON(needs.pick.outputs.runner) \x7d\x7d" with
        needs := ["pick"] }]
    (some .transport)

/-- A job whose id a job of another file has. -/
def sharedIdInput : AssessInput :=
  bareInput
    [hostedJob "build" "ubuntu-latest",
      { hostedJob "build" "macos-15" with nameExpr := some "macos" }] none

/-- A job whose expression has a character of two bytes. -/
def accentInput : AssessInput :=
  bareInput
    [hostedJob "macos" "$\x7b\x7b fromJSON(vars.R\u00c9SEAU || 'ubuntu-latest') \x7d\x7d"] none

theorem lanes_are_left_out :
    (¬ ∃ report, assess unreadInput 0 = some report ∧ Covers unreadInput 0 report) ∧
      (¬ ∃ report, assess sharedIdInput 0 = some report ∧ Covers sharedIdInput 0 report) ∧
      assess accentInput 0 = none := by
  refine ⟨?_, ?_, ?_⟩
  · rintro ⟨report, hassess, hcovers⟩
    have hmeasurable := measurable_of_covers hassess hcovers mem_cons_self
      (.producer (mem_cons_of_mem _ mem_cons_self) (by decide +kernel))
    obtain ⟨name, hname, hset⟩ := hmeasurable.candidate (by decide +kernel)
    cases hset
  · rintro ⟨report, hassess, hcovers⟩
    have hmeasurable := measurable_of_covers hassess hcovers mem_cons_self
      (.producer (mem_cons_of_mem _ mem_cons_self) (by decide +kernel))
    obtain ⟨other, hnamed, hsame⟩ := hmeasurable.first
    cases hnamed
    exact absurd hsame.runsOn (by decide +kernel)
  · cases hassess : assess accentInput 0 with
    | none => rfl
    | some report =>
      obtain ⟨-, hjobs, -⟩ := assess_ok hassess
      have hreached : Reached accentInput.jobs "macos" "macos" :=
        ⟨"macos", by decide +kernel, .refl⟩
      obtain ⟨role, hmem⟩ := exists_assessed mem_cons_self hreached rfl
      obtain ⟨lanes, hlanes⟩ := isSome_iff_exists.mp (hjobs _ _ role hmem)
      exact absurd (readable_of_assessJob hlanes rfl) (by decide +kernel)

end Shipyard.Landability
