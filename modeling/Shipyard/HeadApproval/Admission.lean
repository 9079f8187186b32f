import Shipyard.HeadApproval.Finality

/-!
# What decides where a check admits

Under a policy whose source is a check run, every evaluation gives the gate of the
newest counting run and of the queue's removals. Comments, reviews, the author, the
host, runs of other Apps and the order of the runs do not reach it.
-/

namespace Shipyard.HeadApproval

open Lib List Option
open MergeSteward (trim isFullSha)
open PrQueue (eqIgnoreAsciiCase toAsciiLowercase)

/-! ## The newest run -/

theorem newestRun_append (runs : List Json) (run : Json) :
    newestRun (runs ++ [run]) =
      match newestRun runs with
      | none => some run
      | some best => if runId best ≤ runId run then some run else some best := by
  rw [newestRun, foldl_append, foldl_cons, foldl_nil]
  rfl

/-- No run of the list has a higher id. -/
def Newest (runs : List Json) (run : Json) : Prop :=
  run ∈ runs ∧ ∀ other ∈ runs, runId other ≤ runId run

theorem newestRun_spec (runs : List Json) :
    match newestRun runs with
    | none => runs = []
    | some run => Newest runs run := by
  induction runs using List.reverseRecOn with
  | nil => rfl
  | append_singleton runs last ih =>
    rw [newestRun_append]
    cases hbest : newestRun runs with
    | none =>
      rw [hbest] at ih
      subst ih
      exact ⟨mem_singleton_self last, fun other hother => by
        rw [mem_singleton.mp hother]⟩
    | some best =>
      rw [hbest] at ih
      obtain ⟨hmem, hbound⟩ := ih
      by_cases hle : runId best ≤ runId last
      · simp only [if_pos hle]
        refine ⟨mem_append_right _ (mem_singleton_self last), fun other hother => ?_⟩
        rcases mem_append.mp hother with hother | hother
        · exact (hbound other hother).trans hle
        · rw [mem_singleton.mp hother]
      · simp only [if_neg hle]
        refine ⟨mem_append_left _ hmem, fun other hother => ?_⟩
        rcases mem_append.mp hother with hother | hother
        · exact hbound other hother
        · rw [mem_singleton.mp hother]
          exact (Nat.lt_of_not_le hle).le

variable {run : Json} {head check : String}

/-- With distinct ids the newest run is the one that no id exceeds. -/
theorem newestRun_eq_some_iff {runs : List Json} (hids : (runs.map runId).Nodup) :
    newestRun runs = some run ↔ Newest runs run := by
  have hspec := newestRun_spec runs
  constructor
  · intro hnewest
    rwa [hnewest] at hspec
  · rintro ⟨hmem, hbound⟩
    cases hbest : newestRun runs with
    | none =>
      rw [hbest] at hspec
      subst hspec
      cases hmem
    | some best =>
      rw [hbest] at hspec
      have hsame : runId best = runId run :=
        Nat.le_antisymm (hbound best hspec.1) (hspec.2 run hmem)
      rw [inj_on_of_nodup_map hids hspec.1 hmem hsame]

variable {runs others : List Json}

/-- The order of the runs does not matter. -/
theorem newestRun_perm (hperm : runs.Perm others) (hids : (runs.map runId).Nodup) :
    newestRun runs = newestRun others := by
  have hothers : (others.map runId).Nodup := (hperm.map runId).nodup_iff.mp hids
  refine Option.ext fun run => ?_
  simp only [newestRun_eq_some_iff hids, newestRun_eq_some_iff hothers, Newest, hperm.mem_iff]

/-! ## What a run binds -/

/-- The `external_id` of a run binds the head, with a full policy sha and a
classification. -/
def BindsHead (parseJson : String → Except String Json) (run : Json) (head : String) : Prop :=
  ∃ raw record headSha policySha classification,
    run.textAt ["external_id"] = some raw ∧ trim raw ≠ "" ∧ parseJson raw = .ok record ∧
    record.textAt ["head_sha"] = some headSha ∧ eqIgnoreAsciiCase (trim headSha) head = true ∧
    record.textAt ["policy_sha"] = some policySha ∧ isFullSha (trim policySha) = true ∧
    record.textAt ["classification"] = some classification ∧ trim classification ≠ ""

variable {parseJson : String → Except String Json}

theorem boundRecord_ok {bound : String × String}
    (hbound : boundRecord parseJson run head = .ok bound) : BindsHead parseJson run head := by
  unfold boundRecord at hbound
  split at hbound
  · cases hbound
  next raw hraw =>
  split at hbound
  · cases hbound
  next record hrecord =>
  dsimp only at hbound
  split at hbound
  · cases hbound
  next hhead =>
  split at hbound
  · cases hbound
  next policySha hpolicy =>
  split at hbound
  · cases hbound
  next classification hclassification =>
  rw [filter_eq_some_iff] at hraw hpolicy hclassification
  rw [Bool.not_eq_true, Bool.not_eq_false', Option.any_eq_true] at hhead
  obtain ⟨headSha, hheadSha, hsame⟩ := hhead
  obtain ⟨headText, hheadText, rfl⟩ := map_eq_some_iff.mp hheadSha
  obtain ⟨policyText, hpolicyText, rfl⟩ := map_eq_some_iff.mp hpolicy.1
  obtain ⟨classText, hclassText, rfl⟩ := map_eq_some_iff.mp hclassification.1
  exact ⟨raw, record, headText, policyText, classText, hraw.1, of_decide_eq_true hraw.2, hrecord,
    hheadText, hsame, hpolicyText, hpolicy.2, hclassText, of_decide_eq_true hclassification.2⟩

theorem boundRecord_of_bindsHead (hbinds : BindsHead parseJson run head) :
    ∃ policySha classification,
      boundRecord parseJson run head = .ok (policySha, classification) := by
  obtain ⟨raw, record, headSha, policySha, classification, hraw, hblank, hparse, hhead, hsame,
    hpolicy, hfull, hclass, hnonempty⟩ := hbinds
  refine ⟨toAsciiLowercase (trim policySha), trim classification, ?_⟩
  simp [boundRecord, filter_some, hraw, hblank, hparse, hhead, hsame, hpolicy, hfull, hclass,
    hnonempty]

/-! ## Admission -/

/-- The highest-id counting run is completed with success and binds the head. -/
def Admitted (parseJson : String → Except String Json) (runs : List Json) (head check : String)
    (appId : Nat) : Prop :=
  ∃ run, Newest (runs.filter (countingRun head check appId)) run ∧
    (∃ status, run.textAt ["status"] = some status ∧
      eqIgnoreAsciiCase status "completed" = true) ∧
    (∃ conclusion, run.textAt ["conclusion"] = some conclusion ∧
      toAsciiLowercase conclusion = "success") ∧
    BindsHead parseJson run head

variable {appId : Nat}

theorem judge_admitted_iff {runs : List Json}
    (hids : ((runs.filter (countingRun head check appId)).map runId).Nodup) :
    (∃ checkRunId policySha classification, judge parseJson runs head check appId =
        .admitted checkRunId policySha classification) ↔
      Admitted parseJson runs head check appId := by
  constructor
  · rintro ⟨checkRunId, policySha, classification, hjudge⟩
    unfold judge at hjudge
    split at hjudge
    · cases hjudge
    next run hnewest =>
    dsimp only at hjudge
    split at hjudge
    · cases hjudge
    next hstatus =>
    split at hjudge
    · cases hjudge
    next hconclusion =>
    split at hjudge
    next bound hbound =>
      rw [Bool.not_eq_true, Bool.not_eq_false', Option.any_eq_true] at hstatus
      refine ⟨run, (newestRun_eq_some_iff hids).mp hnewest, hstatus, ?_, boundRecord_ok hbound⟩
      rw [ne_eq, not_not] at hconclusion
      cases hgiven : run.textAt ["conclusion"] with
      | none =>
        rw [hgiven] at hconclusion
        exact absurd hconclusion (by decide +kernel)
      | some conclusion =>
        rw [hgiven] at hconclusion
        exact ⟨conclusion, rfl, hconclusion⟩
    · cases hjudge
  · rintro ⟨run, hnewest, ⟨status, hstatus, hcompleted⟩, ⟨conclusion, hconclusion, hsuccess⟩,
      hbinds⟩
    obtain ⟨policySha, classification, hbound⟩ := boundRecord_of_bindsHead hbinds
    refine ⟨runId run, policySha, classification, ?_⟩
    rw [judge, (newestRun_eq_some_iff hids).mpr hnewest]
    simp [hstatus, hcompleted, hconclusion, hsuccess, hbound]

/-- An admitted head below the cap is approved, and nothing else is. -/
theorem admissionGate_approved_iff {queue : Json} {interrupted : Bool} {judgement : Judgement} :
    (∃ approval, admissionGate check appId head queue interrupted judgement =
        .approved approval) ↔
      (∃ checkRunId policySha classification,
        judgement = .admitted checkRunId policySha classification) ∧
      (chargedEjections queue head interrupted).length < ejectionCap := by
  cases judgement with
  | waiting detail => simp [admissionGate]
  | refused checkRunId conclusion => simp [admissionGate]
  | admitted checkRunId policySha classification =>
    simp only [admissionGate, capped]
    by_cases hcap : ejectionCap ≤ (chargedEjections queue head interrupted).length
    · simp [hcap]
    · simp [if_neg hcap, Nat.lt_of_not_le hcap]

/-! ## Every evaluation -/

/-- The ways a head is evaluated: for the auto-arm and the native arm, where an
interruption may excuse the latest removal, for the steward with a known author, and
as a rollup's member. -/
inductive EntryPoint where
  | excusing (latestWasInterruption : Bool)
  | events (known : Option String) (rollups : Bool)
  | member

variable (entry : EntryPoint)

def EntryPoint.evaluate (host : Host) (world : World) (pr : Nat) (head : String)
    (policy : ApprovalPolicy) (queue : Json) : Except String HeadGate :=
  match entry with
  | .excusing interrupted => evaluateExcusingWithPolicy host world pr head policy queue interrupted
  | .events known rollups => evaluateEvents host world pr head policy queue known rollups
  | .member => evaluateMember host world policy pr head

/-- The queue whose removals count: none is read for a member. -/
def EntryPoint.queue : EntryPoint → Json → Json
  | .member, _ => .null
  | _, queue => queue

def EntryPoint.excuses : EntryPoint → Bool
  | .excusing interrupted => interrupted
  | _ => false

theorem EntryPoint.evaluate_of_guard {policy : ApprovalPolicy} {world : World} {runs : List Json}
    (host : Host) (hsource : policy.source = .guard check appId)
    (hruns : world.checkRuns head check = .ok runs) (pr : Nat) (queue : Json) :
    entry.evaluate host world pr head policy queue =
      .ok (admissionGate check appId head (entry.queue queue) entry.excuses
        (judge world.parseJson runs head check appId)) := by
  cases entry with
  | excusing interrupted =>
    rw [evaluate, evaluateExcusingWithPolicy, hsource, guardEvaluate, hruns]
    rfl
  | events known rollups =>
    rw [evaluate, evaluateEvents, evaluateRecords, hsource, guardEvaluate, hruns]
    rfl
  | member =>
    rw [evaluate, evaluateMember, evaluateRecords, hsource, guardEvaluate, hruns]
    rfl

/-- Two worlds answer with the same counting runs of a check, up to their order. -/
structure SameRuns (first second : World) (head check : String) (appId : Nat)
    (runs others : List Json) : Prop where
  parse : first.parseJson = second.parseJson
  firstRuns : first.checkRuns head check = .ok runs
  secondRuns : second.checkRuns head check = .ok others
  perm : (runs.filter (countingRun head check appId)).Perm
    (others.filter (countingRun head check appId))
  ids : ((runs.filter (countingRun head check appId)).map runId).Nodup

/-- Only the counting runs and the queue decide: every evaluation gives the same gate
in both worlds, and it approves exactly an admitted head below the cap. -/
theorem admission_ignores_the_rest {policy : ApprovalPolicy} {check : String} {appId : Nat}
    (hsource : policy.source = .guard check appId) {first second : World} {head : String}
    {runs others : List Json} (hsame : SameRuns first second head check appId runs others)
    (firstHost secondHost : Host) (pr : Nat) (queue : Json) (entry : EntryPoint) :
    ∃ gate, entry.evaluate firstHost first pr head policy queue = .ok gate ∧
      entry.evaluate secondHost second pr head policy queue = .ok gate ∧
      ((∃ approval, gate = .approved approval) ↔
        Admitted first.parseJson runs head check appId ∧
          (chargedEjections (entry.queue queue) head entry.excuses).length < ejectionCap) := by
  have hjudge : judge second.parseJson others head check appId =
      judge first.parseJson runs head check appId := by
    rw [← hsame.parse, judge, judge, newestRun_perm hsame.perm hsame.ids]
  refine ⟨_, entry.evaluate_of_guard firstHost hsource hsame.firstRuns pr queue, ?_, ?_⟩
  · rw [entry.evaluate_of_guard secondHost hsource hsame.secondRuns, hjudge]
  · rw [admissionGate_approved_iff, judge_admitted_iff hsame.ids]

/-- A completed run of the check `fleet-guard`. -/
def sampleRun (id appId : Int) (slug : String) : Json :=
  .obj [("id", .number id), ("name", .str "fleet-guard"), ("head_sha", .str sampleHead),
    ("status", .str "completed"), ("conclusion", .str "success"), ("external_id", .str "record"),
    ("app", .obj [("id", .number appId), ("slug", .str slug)])]

def guardedPolicy : ApprovalPolicy := { required := true, source := .guard "fleet-guard" 7 }

/-- A world with some runs of the check, and some comments. -/
def guardedWorld (runs comments : List Json) : World :=
  { acceptingWorld [] comments 0 with
    checkRuns := fun _ _ => .ok runs
    parseJson := fun _ => .ok (.obj [("head_sha", .str sampleHead),
      ("policy_sha", .str sampleHead), ("classification", .str "routine")]) }

/-- Neither a forged run nor a HOLD comment reaches the gate. -/
theorem admission_ignores_forged_runs :
    ∃ gate, evaluateEvents sampleHost (guardedWorld [sampleRun 3 7 "fleet"] []) 5 sampleHead
          guardedPolicy .null none true = .ok gate ∧
      evaluateEvents sampleHost (guardedWorld [sampleRun 9 7 "github-actions",
          sampleRun 3 7 "fleet", sampleRun 8 6 "fleet"]
          [verdictComment 1 "HOLD" "2026-09-24T12:00:00Z"]) 5 sampleHead
          guardedPolicy .null none true = .ok gate ∧
      ((∃ approval, gate = .approved approval) ↔
        Admitted (guardedWorld [] []).parseJson [sampleRun 3 7 "fleet"] sampleHead
          "fleet-guard" 7 ∧
          (chargedEjections .null sampleHead false).length < ejectionCap) := by
  have hsource : guardedPolicy.source = .guard "fleet-guard" 7 := rfl
  have hsame : SameRuns (guardedWorld [sampleRun 3 7 "fleet"] [])
      (guardedWorld [sampleRun 9 7 "github-actions", sampleRun 3 7 "fleet", sampleRun 8 6 "fleet"]
        [verdictComment 1 "HOLD" "2026-09-24T12:00:00Z"]) sampleHead "fleet-guard" 7
      [sampleRun 3 7 "fleet"]
      [sampleRun 9 7 "github-actions", sampleRun 3 7 "fleet", sampleRun 8 6 "fleet"] :=
    ⟨rfl, rfl, rfl, List.Perm.refl [sampleRun 3 7 "fleet"], nodup_singleton 3⟩
  exact admission_ignores_the_rest hsource hsame sampleHost sampleHost 5 .null (.events none true)

end Shipyard.HeadApproval
