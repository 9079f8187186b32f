import Shipyard.HeadApproval.MergeSoundness

/-!
# The carry across a rebase

`rebase_carry` carries the approval of an earlier head to a head on a newer base: the
same patch, the same files, none of them touched by the base, each with its approved
content and mode, and every required check run in full. The new head is then the
approved change applied to the new merge base.
-/

namespace Shipyard.HeadApproval

open Lib Lib.Except List Option
open MergeSteward (trim)

/-- The calls of the rebase carry: those of any carry, a comparison as a diff, its
patch id, and the answers about the required checks. -/
structure RebaseGh extends RunGh where
  compareDiff : String → String → Except String String
  patchId : String → Except String (Option String)
  branchRules : String → Except String Json
  classicChecks : String → Except String Json
  checkRuns : String → Except String Json
  annotations : Nat → Except String Json
  parseJson : String → Option Json

structure CarryRecord where
  oldBase : String
  newBase : String
  patchId : String
  files : Nat
deriving DecidableEq, Repr

/-! ## Required checks -/

/-- The contexts a ruleset requires. -/
def ruleContexts (rule : Json) : List String :=
  if rule.textAt ["type"] ≠ some "required_status_checks" then []
  else ((rule.itemsAt ["parameters", "required_status_checks"]).getD []).filterMap
    fun check => check.textAt ["context"]

variable (run : RebaseGh)

/-- The base branch's required contexts, from its rulesets and its classic protection:
an unprotected branch has none of the latter. -/
def requiredContexts (base : String) : Except String (List String) := do
  let rules ← run.branchRules base
  let contexts := SortedMap.empty.insertAll (fun _ => ())
    ((rules.asArr?.getD []).flatMap ruleContexts)
  match run.classicChecks base with
  | .ok classic =>
    let listed := ((classic.itemsAt ["contexts"]).getD []).filterMap Json.asStr?
    return (contexts.insertAll (fun _ => ()) listed).keys
  | .error error =>
    if "404".toList <:+: error.toList then return contexts.keys else .error error

def notRunInFull : List String := ["skipped", "neutral"]

def receiptDecisionTitle : String := "shipyard-receipt-decision"

/-- The reason of the first decision to reuse a receipt. -/
def firstReuse (run : RebaseGh) (id : Nat) : List Json → Except String (Option String)
  | [] => .ok none
  | note :: rest =>
    if note.textAt ["title"] ≠ some receiptDecisionTitle then firstReuse run id rest
    else
      match run.parseJson ((note.textAt ["message"]).getD "") with
      | none => .error s!"check run {id} has an unparseable receipt decision"
      | some decision =>
        if decision.textAt ["verdict"] = some "reuse" then
          .ok (some ((decision.textAt ["reason"]).getD "no reason given"))
        else firstReuse run id rest

def reusedReceipt (check : Json) : Except String (Option String) :=
  match (check.get? "id").bind Json.asU64?,
      (check.pointer ["output", "annotations_count"]).bind Json.asU64? with
  | some id, some count =>
    if count = 0 then .ok none
    else do
      match (← run.annotations id).asArr? with
      | none => .error s!"the annotations of check run {id} are unreadable"
      | some annotations => firstReuse run id annotations
  | _, _ => .ok none

/-- Why the latest run of a required check did not run in full. -/
def contextNotRun (head : String) (listed : List Json) (context : String) :
    Except String (Option String) :=
  let named := listed.filter fun check => check.textAt ["name"] = some context
  match maxByKey (fun check => ((check.get? "id").bind Json.asU64?).getD 0) named with
  | none => .ok none
  | some latest =>
    let shown := short head
    let conclusion := latest.textAt ["conclusion"]
    if latest.textAt ["status"] = some "completed" ∧
        conclusion.any (· ∈ notRunInFull) = true then
      let text := conclusion.getD ""
      .ok (some s!"required check `{context}` on {shown} concluded `{text}`")
    else do
      return (← reusedReceipt run latest).map fun reason =>
        s!"required check `{context}` on {shown} reused a receipt ({reason})"

/-- The first answer that is a reason. -/
def firstReason {α : Type} (reason : α → Except String (Option String)) :
    List α → Except String (Option String)
  | [] => .ok none
  | item :: rest => do
    match ← reason item with
    | some why => return some why
    | none => firstReason reason rest

def requiredNotRunInFull (base head : String) : Except String (Option String) := do
  let required ← requiredContexts run base
  if required.isEmpty then return none
  let runs ← run.checkRuns head
  match (runs.itemsAt ["check_runs"]).filter fun listed =>
      (runs.get? "total_count").bind Json.asU64? = some listed.length with
  | none =>
    let shown := short head
    .error s!"the check runs of {shown} are unreadable or partial"
  | some listed => firstReason (contextNotRun run head listed) required

/-! ## The conditions -/

/-- The first file whose status differs, with both. -/
def statusMoved (before after : SortedMap String FileChange) : Option (String × String × String) :=
  before.entries.findSome? fun entry => (after.get? entry.1).bind fun other =>
    if other.status ≠ entry.2.status then some (entry.1, other.status, entry.2.status) else none

/-- The same files, with the same status and rename sources. -/
def sameFiles (before after : PrFiles) (head : String) : Option String :=
  match fileSetMoved before.files after.files with
  | some name => some s!"the set of files the pull request changes moved ({name})"
  | none =>
    let shown := short head
    match statusMoved before.files after.files with
    | some (name, now, status) => some s!"{name} is {now} at {shown}, {status} when approved"
    | none => (renameSourceMoved before.sources after.sources).map fun name =>
      let now := (after.sources.get? name).getD "nothing"
      let then_ := (before.sources.get? name).getD "nothing"
      s!"{name} is renamed from {now} at {shown}, from {then_} when approved"

/-- The first file that is not removed and whose content differs. -/
def keptBlobMoved (before after : SortedMap String FileChange) : Option String :=
  (before.entries.find? fun entry => entry.2.status ≠ "removed" &&
    (after.get? entry.1).any fun other => other.sha ≠ entry.2.sha).map Prod.fst

/-- The files that are not removed and that both comparisons list. -/
def keptFiles (before after : SortedMap String FileChange) : List String :=
  (before.entries.filter fun entry =>
    entry.2.status ≠ "removed" && (after.get? entry.1).isSome).map Prod.fst

/-- No binary change, none of the files touched by the base, and each with its approved
content and mode. -/
def reappliesExactly (run : RunGh) (approved head : String)
    (before after : SortedMap String FileChange) (baseTouched renameSources : List String) :
    Except String (Option String) := do
  match ← firstBinary run before.entries with
  | some name => return some s!"the pull request changes a binary file ({name})"
  | none =>
    match ((before.keys ++ after.keys ++ renameSources).filter (· ∈ baseTouched)).min? with
    | some name =>
      return some (s!"{name} was changed, renamed or deleted by the base " ++
        "between the merge bases")
    | none =>
      let shown := short head
      let earlier := short approved
      match keptBlobMoved before after with
      | some name => return some s!"{name} at {shown} is not the blob approved at {earlier}"
      | none =>
        return (← modeMoved run approved head (keptFiles before after)).map fun name =>
          s!"{name} at {shown} does not keep the mode approved at {earlier}"

/-- The patch ids differ, or there is no patch. -/
def patchMoved (oldId newId : Option String) : Option String :=
  if oldId = none ∨ oldId ≠ newId then
    let earlier := short (oldId.getD "none")
    let now := short (newId.getD "none")
    some s!"the diff's patch-id changed ({earlier} -> {now})"
  else none

def unreadable (error : String) : String := s!"the rebase carry cannot be checked ({error})"

/-- The paths the base touched between the merge bases. -/
def baseTouched (run : RunGh) (oldBase newBase status : String) : Except String (List String) :=
  if status = "ahead" then do
    let moved ← compareFiles run oldBase newBase
    return moved.files.keys ++ moved.sources.values
  else .ok []

def rebaseCarry (pr : Nat) (approved head : String) (excluded : List String) :
    Except String CarryRecord := do
  let base := trim (← (run.baseRef pr).mapError unreadable)
  refuse (if base = "" then some "the pull request has no base branch" else none)
  let before ← (compareFiles run.toRunGh base approved).mapError unreadable
  let after ← (compareFiles run.toRunGh base head).mapError unreadable
  refuse (carryExcluded (before.files.keys ++ after.files.keys ++ before.sources.values ++
    after.sources.values) excluded)
  let status := trim (← (run.compareStatus before.mergeBase after.mergeBase).mapError unreadable)
  let shown := short after.mergeBase
  let earlier := short before.mergeBase
  refuse (if status ∉ ["ahead", "identical"] then
    some s!"the new merge base {shown} does not descend from {earlier}" else none)
  let touched ←
    (baseTouched run.toRunGh before.mergeBase after.mergeBase status).mapError unreadable
  let oldDiff ← (run.compareDiff before.mergeBase approved).mapError unreadable
  let newDiff ← (run.compareDiff after.mergeBase head).mapError unreadable
  let oldId ← (run.patchId oldDiff).mapError unreadable
  let newId ← (run.patchId newDiff).mapError unreadable
  let reapplies ← (reappliesExactly run.toRunGh approved head before.files after.files touched
    (before.sources.values ++ after.sources.values)).mapError unreadable
  let notRun ← (requiredNotRunInFull run base head).mapError unreadable
  let reasons := (patchMoved oldId newId).toList ++ (sameFiles before after head).toList ++
    reapplies.toList ++ notRun.toList
  refuse (if reasons.isEmpty then none else some ("; ".intercalate reasons))
  return {
    oldBase := before.mergeBase
    newBase := after.mergeBase
    patchId := oldId.getD ""
    files := before.files.entries.length }

/-! ## What the conditions establish -/

section Conditions

variable {before after : PrFiles} {head : String}

theorem sameFiles_none (hnone : sameFiles before after head = none) :
    fileSetMoved before.files after.files = none ∧
      statusMoved before.files after.files = none ∧
      renameSourceMoved before.sources after.sources = none := by
  unfold sameFiles at hnone
  split at hnone
  · cases hnone
  next hset =>
  dsimp only at hnone
  split at hnone
  · cases hnone
  next hstatus => exact ⟨hset, hstatus, map_eq_none_iff.mp hnone⟩

/-- The same files with the same status, and the same content where they stay: the
comparisons say the same of every path. -/
theorem sameChange_of_none (hset : fileSetMoved before.files after.files = none)
    (hstatus : statusMoved before.files after.files = none)
    (hblob : keptBlobMoved before.files after.files = none) (path : String) :
    SameChange "removed" (before.listed path) (after.listed path) := by
  have hlisted := fileSetMoved_none hset path
  unfold PrFiles.listed
  cases hbefore : before.files.get? path with
  | none =>
    rw [hbefore] at hlisted
    rw [isNone_iff_eq_none.mp (isSome_eq_false_iff.mp hlisted)]
    exact .of_eq rfl
  | some change =>
    rw [hbefore] at hlisted
    obtain ⟨other, hother⟩ := isSome_iff_exists.mp hlisted
    have hentry := SortedMap.mem_entries_of_get? hbefore
    have hsame : other.status = change.status := by
      by_contra hdiffers
      simpa [hother, hdiffers] using findSome?_eq_none_iff.mp hstatus _ hentry
    rw [hother]
    refine ⟨congrArg some hsame, fun status blob heq hkept => ?_⟩
    cases heq
    have hsha : other.sha = change.sha := by
      simpa [hother, hkept] using find?_eq_none.mp (map_eq_none_iff.mp hblob) _ hentry
    rw [map_some, hsame, hsha]

theorem mem_keptFiles (hset : fileSetMoved before.files after.files = none) {path : String}
    {change : FileChange} (hchange : before.files.get? path = some change)
    (hstatus : change.status ≠ "removed") : path ∈ keptFiles before.files after.files := by
  have hlisted := fileSetMoved_none hset path
  rw [hchange] at hlisted
  refine List.mem_map.mpr ⟨(path, change), mem_filter.mpr
    ⟨SortedMap.mem_entries_of_get? hchange, ?_⟩, rfl⟩
  simpa [hstatus] using hlisted

theorem reappliesExactly_none {run : RunGh} {approved : String}
    {before after : SortedMap String FileChange} {touched renameSources : List String}
    (hreapplies : reappliesExactly run approved head before after touched renameSources =
      .ok none) :
    (∀ name ∈ before.keys ++ after.keys ++ renameSources, name ∉ touched) ∧
      keptBlobMoved before after = none ∧
      modeMoved run approved head (keptFiles before after) = .ok none := by
  obtain ⟨binary, -, hreapplies⟩ := bind_eq_ok.mp hreapplies
  split at hreapplies
  · cases hreapplies
  split at hreapplies
  · cases hreapplies
  next htouched =>
  dsimp only at hreapplies
  split at hreapplies
  · cases hreapplies
  next hblob =>
  obtain ⟨mode, hmode, hreapplies⟩ := bind_eq_ok.mp hreapplies
  cases map_eq_none_iff.mp (Except.ok.inj hreapplies)
  refine ⟨fun name hname hmem => ?_, hblob, hmode⟩
  have hfilter := filter_eq_nil_iff.mp (min?_eq_none_iff.mp htouched) name hname
  exact hfilter (decide_eq_true hmem)

end Conditions

/-- What a rebase carry read and found. -/
structure RebaseChecks (run : RebaseGh) (base approved head : String) (excluded : List String)
    (before after : PrFiles) (status : String) (touched : List String) : Prop where
  readBefore : compareFiles run.toRunGh base approved = .ok before
  readAfter : compareFiles run.toRunGh base head = .ok after
  admitted : carryExcluded (before.files.keys ++ after.files.keys ++ before.sources.values ++
    after.sources.values) excluded = none
  readStatus : run.compareStatus before.mergeBase after.mergeBase = .ok status
  descends : trim status ∈ ["ahead", "identical"]
  readTouched : baseTouched run.toRunGh before.mergeBase after.mergeBase (trim status) =
    .ok touched
  files : sameFiles before after head = none
  reapplies : reappliesExactly run.toRunGh approved head before.files after.files touched
    (before.sources.values ++ after.sources.values) = .ok none

theorem rebaseCarry_ok {run : RebaseGh} {pr : Nat} {approved head : String}
    {excluded : List String} {record : CarryRecord}
    (hcarry : rebaseCarry run pr approved head excluded = .ok record) :
    ∃ answer before after status touched, run.baseRef pr = .ok answer ∧
      RebaseChecks run (trim answer) approved head excluded before after status touched := by
  obtain ⟨answer, hanswer, hcarry⟩ := bind_eq_ok.mp hcarry
  obtain ⟨_, -, hcarry⟩ := bind_eq_ok.mp hcarry
  obtain ⟨before, hbefore, hcarry⟩ := bind_eq_ok.mp hcarry
  obtain ⟨after, hafter, hcarry⟩ := bind_eq_ok.mp hcarry
  obtain ⟨_, hexcluded, hcarry⟩ := bind_eq_ok.mp hcarry
  obtain ⟨status, hstatus, hcarry⟩ := bind_eq_ok.mp hcarry
  obtain ⟨_, hdescends, hcarry⟩ := bind_eq_ok.mp hcarry
  obtain ⟨touched, htouched, hcarry⟩ := bind_eq_ok.mp hcarry
  obtain ⟨oldDiff, -, hcarry⟩ := bind_eq_ok.mp hcarry
  obtain ⟨newDiff, -, hcarry⟩ := bind_eq_ok.mp hcarry
  obtain ⟨oldId, -, hcarry⟩ := bind_eq_ok.mp hcarry
  obtain ⟨newId, -, hcarry⟩ := bind_eq_ok.mp hcarry
  obtain ⟨reapplies, hreapplies, hcarry⟩ := bind_eq_ok.mp hcarry
  obtain ⟨notRun, -, hcarry⟩ := bind_eq_ok.mp hcarry
  obtain ⟨_, hreasons, -⟩ := bind_eq_ok.mp hcarry
  rw [mapError_eq_ok] at hanswer hbefore hafter hstatus htouched hreapplies
  rw [refuse_eq_ok] at hexcluded hdescends hreasons
  have hdescends : trim status ∈ ["ahead", "identical"] := by
    by_contra hnot
    rw [if_pos hnot] at hdescends
    cases hdescends
  have hreasons : sameFiles before after head = none ∧ reapplies = none := by
    split at hreasons
    next hempty =>
      simp only [List.isEmpty_iff, append_eq_nil_iff, toList_eq_nil_iff] at hempty
      exact ⟨hempty.1.1.2, hempty.1.2⟩
    · cases hreasons
  obtain ⟨hfiles, rfl⟩ := hreasons
  exact ⟨answer, before, after, status, touched, hanswer, hbefore, hafter, hexcluded, hstatus,
    hdescends, htouched, hfiles, hreapplies⟩

section Soundness

variable {Commit : Type} {run : RebaseGh} {repo : Repository Commit}

/-- Where the base touched none of the names of a path, the merge bases agree on it. -/
theorem bases_agree (hserves : Serves run.toRunGh repo) {oldBase newBase : Commit}
    {status : String} {touched : List String}
    (hstatus : run.compareStatus (repo.sha oldBase) (repo.sha newBase) = .ok status)
    (hdescends : trim status ∈ ["ahead", "identical"])
    (htouched : baseTouched run.toRunGh (repo.sha oldBase) (repo.sha newBase) (trim status) =
      .ok touched) :
    repo.Descends newBase oldBase ∧
      ∀ path, path ∉ touched → repo.tree newBase path = repo.tree oldBase path := by
  obtain ⟨l, r, hl, hr, hidentical, hahead⟩ := hserves.status _ _ _ hstatus
  cases (repo.resolve_sha _ oldBase (repo.sha_lower oldBase)).symm.trans hl
  cases (repo.resolve_sha _ newBase (repo.sha_lower newBase)).symm.trans hr
  unfold baseTouched at htouched
  split at htouched
  next hstep =>
    obtain ⟨moved, hmoved, htouched⟩ := bind_eq_ok.mp htouched
    cases htouched
    refine ⟨hahead hstep, fun path hpath => ?_⟩
    rw [mem_append, not_or] at hpath
    exact tree_eq_of_unlisted hserves hmoved (hahead hstep) hpath
  next hstep =>
    have hsame : trim status = "identical" := by simpa [hstep] using hdescends
    cases hidentical hsame
    exact ⟨.refl, fun _ _ => rfl⟩

/-- The new head is the approved change applied to the new merge base, which descends
from the old one without touching a changed path. -/
theorem rebase_carry_is_sound (hserves : Serves run.toRunGh repo) {pr : Nat}
    {approved head : String} {f t : Commit} (hf : repo.resolve approved = some f)
    (ht : repo.resolve head = some t) {excluded : List String} {record : CarryRecord}
    (hcarry : rebaseCarry run pr approved head excluded = .ok record) :
    ∃ answer base oldBase newBase, run.baseRef pr = .ok answer ∧
      repo.resolve (trim answer) = some base ∧ repo.IsMergeBase base f oldBase ∧
      repo.IsMergeBase base t newBase ∧
      CarriesTree repo oldBase newBase f t excluded ∧ repo.Descends newBase oldBase ∧
      ∀ path, repo.tree oldBase path ≠ repo.tree f path →
        repo.tree newBase path = repo.tree oldBase path := by
  obtain ⟨answer, before, after, status, touched, hanswer, hchecks⟩ := rebaseCarry_ok hcarry
  obtain ⟨base, f', oldBase, hbase, hf', hbefore⟩ := compareFiles_ok hserves hchecks.readBefore
  obtain ⟨base', t', newBase, hbase', ht', hafter⟩ := compareFiles_ok hserves hchecks.readAfter
  cases hbase.symm.trans hbase'
  cases hf.symm.trans hf'
  cases ht.symm.trans ht'
  obtain ⟨hset, hstatuses, hrenames⟩ := sameFiles_none hchecks.files
  obtain ⟨huntouched, hblobs, hmodes⟩ := reappliesExactly_none hchecks.reapplies
  have hstatus := hchecks.readStatus
  have htouched := hchecks.readTouched
  rw [hbefore.mergeBase, hafter.mergeBase] at hstatus htouched
  obtain ⟨hdescends, hbases⟩ := bases_agree hserves hstatus hchecks.descends htouched
  have hcarries := carriesTree_of_same hserves hf ht hbefore hafter
    (sameChange_of_none hset hstatuses hblobs) hrenames hmodes
    (fun path change => mem_keptFiles hset) hchecks.admitted
  refine ⟨answer, base, oldBase, newBase, hanswer, hbase, hbefore.isMergeBase,
    hafter.isMergeBase, hcarries, hdescends, fun path hchanged => ?_⟩
  refine hbases path (huntouched path ?_)
  simp only [mem_append]
  rcases mem_names_of_changed hbefore hchanged with hmem | hmem
  · exact .inl (.inl hmem)
  · exact .inr (.inl hmem)

end Soundness

/-- The answers of the sample repository, with one required check that ran. -/
def sampleRebaseGh : RebaseGh where
  toRunGh := sampleGh
  compareDiff _ _ := .ok "diff"
  patchId _ := .ok (some "patch")
  branchRules _ := .ok (.arr [])
  classicChecks _ := .ok (.obj [("contexts", .arr [.str "gate"])])
  checkRuns _ := .ok (.obj [("total_count", .number 1), ("check_runs", .arr [.obj
    [("id", .number 1), ("name", .str "gate"), ("status", .str "completed"),
      ("conclusion", .str "success")]])])
  annotations _ := .error "not read"
  parseJson _ := none

theorem rebase_carry_is_sound_onto_the_tip :
    ∃ answer base oldBase newBase, sampleRebaseGh.baseRef 1 = .ok answer ∧
      sampleRepository.resolve (trim answer) = some base ∧
      sampleRepository.IsMergeBase base .approved oldBase ∧
      sampleRepository.IsMergeBase base .rebased newBase ∧
      CarriesTree sampleRepository oldBase newBase .approved .rebased [] ∧
      sampleRepository.Descends newBase oldBase ∧
      ∀ path, sampleRepository.tree oldBase path ≠ sampleRepository.tree .approved path →
        sampleRepository.tree newBase path = sampleRepository.tree oldBase path := by
  have hcarry : rebaseCarry sampleRebaseGh 1 (SampleCommit.sha .approved)
      (SampleCommit.sha .rebased) [] =
        .ok ⟨SampleCommit.sha .root, SampleCommit.sha .tip, "patch", 1⟩ := by
    decide +kernel
  exact rebase_carry_is_sound serves_sampleGh
    (sampleRepository.resolve_sha _ .approved (sampleRepository.sha_lower .approved))
    (sampleRepository.resolve_sha _ .rebased (sampleRepository.sha_lower .rebased)) hcarry

end Shipyard.HeadApproval
