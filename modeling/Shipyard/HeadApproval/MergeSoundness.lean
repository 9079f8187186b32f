import Shipyard.HeadApproval.MergeCarry

/-!
# What a carry across base merges carries

Where the merge-only carry succeeds, every path the approved head changed is at the
new head as it was approved, and every other path is as at the new merge base. This
rests on the answers being those of a repository.
-/

namespace Shipyard.HeadApproval

open Lib Lib.Except Option
open MergeSteward (trim)
open PrQueue (toAsciiLowercase)

section Soundness

variable {Commit : Type} {run : RunGh} {repo : Repository Commit}

/-- What a merge-only carry read and found. -/
structure CarryChecks (run : RunGh) (base approved head : String) (excluded : List String)
    (record : MergeCarry) (before after : PrFiles) : Prop where
  merges : firstParentMerges run base approved head = .ok record.merges
  readBefore : compareFiles run base approved = .ok before
  readAfter : compareFiles run base head = .ok after
  admitted : carryExcluded (before.files.keys ++ after.files.keys ++ before.sources.values ++
    after.sources.values) excluded = none
  fileSet : fileSetMoved before.files after.files = none
  blobs : blobMoved before.files after.files = none
  renames : renameSourceMoved before.sources after.sources = none
  modes : modeMoved run approved head (presentFiles before.files) = .ok none

variable {excluded : List String} {path : String}

theorem mergeOnlyCarryRecord_ok {pr : Nat} {approved head : String} {record : MergeCarry}
    (hcarry : mergeOnlyCarryRecord run pr approved head excluded = .ok record) :
    ∃ answer before after, run.baseRef pr = .ok answer ∧
      CarryChecks run (trim answer) approved head excluded record before after := by
  obtain ⟨answer, hanswer, hcarry⟩ := bind_eq_ok.mp hcarry
  obtain ⟨_, -, hcarry⟩ := bind_eq_ok.mp hcarry
  obtain ⟨merges, hmerges, hcarry⟩ := bind_eq_ok.mp hcarry
  obtain ⟨before, hbefore, hcarry⟩ := bind_eq_ok.mp hcarry
  obtain ⟨after, hafter, hcarry⟩ := bind_eq_ok.mp hcarry
  obtain ⟨_, hexcluded, hcarry⟩ := bind_eq_ok.mp hcarry
  obtain ⟨binary, -, hcarry⟩ := bind_eq_ok.mp hcarry
  obtain ⟨_, -, hcarry⟩ := bind_eq_ok.mp hcarry
  obtain ⟨_, hset, hcarry⟩ := bind_eq_ok.mp hcarry
  obtain ⟨_, hblobs, hcarry⟩ := bind_eq_ok.mp hcarry
  obtain ⟨_, hrenames, hcarry⟩ := bind_eq_ok.mp hcarry
  obtain ⟨mode, hmode, hcarry⟩ := bind_eq_ok.mp hcarry
  obtain ⟨_, hmodes, hrest⟩ := bind_eq_ok.mp hcarry
  rw [refuse_eq_ok] at hexcluded
  rw [refuse_eq_ok, map_eq_none_iff] at hset hblobs hrenames hmodes
  subst hmodes
  have hrecord : record.merges = merges := by
    split at hrest
    · obtain ⟨moved, _, hfree⟩ := bind_eq_ok.mp hrest
      obtain ⟨_, _, hdone⟩ := bind_eq_ok.mp hfree
      cases hdone
      rfl
    · cases hrest
      rfl
  exact ⟨answer, before, after, hanswer, hrecord ▸ hmerges, hbefore, hafter, hexcluded, hset,
    hblobs, hrenames, hmode⟩

/-- A path that a comparison lists or renames from is among its names. -/
theorem mem_names_of_changed {left right base : Commit} {changes : PrFiles}
    (hcompares : Compares repo left right base changes)
    (hchanged : repo.tree base path ≠ repo.tree right path) :
    path ∈ changes.files.keys ∨ path ∈ changes.sources.values := by
  refine ((hcompares.lists.exactly path).mp hchanged).imp (fun hlisted => ?_) ?_
  · rw [PrFiles.listed, isSome_map] at hlisted
    obtain ⟨change, hchange⟩ := isSome_iff_exists.mp hlisted
    exact SortedMap.mem_keys_of_get? hchange
  · rintro ⟨name, hname⟩
    exact SortedMap.mem_values_of_get? hname

/-- A comparison of a commit with a descendant lists all that changed between them. -/
theorem tree_eq_of_unlisted (hserves : Serves run repo) {old new : Commit} {moved : PrFiles}
    (hmoved : compareFiles run (repo.sha old) (repo.sha new) = .ok moved)
    (hdescends : repo.Descends new old)
    (hpath : path ∉ moved.files.keys ∧ path ∉ moved.sources.values) :
    repo.tree new path = repo.tree old path := by
  obtain ⟨l, r, base, hl, hr, hcompares⟩ := compareFiles_ok hserves hmoved
  cases (repo.resolve_sha _ old (repo.sha_lower old)).symm.trans hl
  cases (repo.resolve_sha _ new (repo.sha_lower new)).symm.trans hr
  -- The older commit is an ancestor, so the comparison starts from it.
  cases hcompares.isMergeBase.best _ .refl hdescends hcompares.isMergeBase.ofLeft
  by_contra hdiffers
  exact not_or.mpr hpath (mem_names_of_changed hcompares (Ne.symm hdiffers))

/-- What the approval of a commit means at another one: the changed paths are as
approved, all others as on the base, and no changed path is excluded. -/
structure CarriesTree (repo : Repository Commit) (oldBase newBase approved head : Commit)
    (excluded : List String) : Prop where
  changed : ∀ path, repo.tree oldBase path ≠ repo.tree approved path →
    repo.tree head path = repo.tree approved path
  others : ∀ path, repo.tree oldBase path = repo.tree approved path →
    repo.tree head path = repo.tree newBase path
  admitted : ∀ path, repo.tree oldBase path ≠ repo.tree approved path → ¬ Excluded excluded path

/-- Two comparisons with the base that list the same changes, where none is excluded
and the files keep their modes, carry the approved tree. -/
theorem carriesTree_of_same (hserves : Serves run repo) {approved head : String}
    {base f t oldBase newBase : Commit} (hf : repo.resolve approved = some f)
    (ht : repo.resolve head = some t) {before after : PrFiles}
    (hbefore : Compares repo base f oldBase before) (hafter : Compares repo base t newBase after)
    (hsame : ∀ path, SameChange "removed" (before.listed path) (after.listed path))
    (hrenames : renameSourceMoved before.sources after.sources = none) {present : List String}
    (hmodes : modeMoved run approved head present = .ok none)
    (hpresent : ∀ path change, before.files.get? path = some change →
      change.status ≠ "removed" → path ∈ present)
    (hadmitted : carryExcluded (before.files.keys ++ after.files.keys ++ before.sources.values ++
      after.sources.values) excluded = none) : CarriesTree repo oldBase newBase f t excluded := by
  have hagree := hbefore.lists.agree hafter.lists hsame (renameSourceMoved_none hrenames)
    fun path status blob hlisted hstatus => by
      obtain ⟨change, hchange, heq⟩ := map_eq_some_iff.mp hlisted
      cases heq
      exact modeMoved_none hserves hf ht hmodes (hpresent path change hchange hstatus)
  refine ⟨fun path => (hagree path).1, fun path => (hagree path).2, fun path hchanged => ?_⟩
  refine not_excluded_of_carryExcluded hadmitted ?_
  simp only [List.mem_append]
  rcases mem_names_of_changed hbefore hchanged with hmem | hmem
  · exact .inl (.inl (.inl hmem))
  · exact .inl (.inr hmem)

/-- The approved content carries across base merges, and nothing else does. -/
theorem merge_only_carry_is_sound (hserves : Serves run repo) {pr : Nat}
    {approved head : String} {f t : Commit} (hf : toAsciiLowercase approved = repo.sha f)
    (ht : toAsciiLowercase head = repo.sha t) {excluded : List String} {record : MergeCarry}
    (hcarry : mergeOnlyCarryRecord run pr approved head excluded = .ok record) :
    ∃ answer base oldBase newBase, run.baseRef pr = .ok answer ∧
      repo.resolve (trim answer) = some base ∧ repo.IsMergeBase base f oldBase ∧
      repo.IsMergeBase base t newBase ∧
      CarriesTree repo oldBase newBase f t excluded ∧
      record.merges ≤ maxCarryMerges ∧ CrossesMerges repo base record.merges t f := by
  obtain ⟨answer, before, after, hanswer, hchecks⟩ := mergeOnlyCarryRecord_ok hcarry
  obtain ⟨base, f', oldBase, hbase, hf', hbefore⟩ := compareFiles_ok hserves hchecks.readBefore
  obtain ⟨base', t', newBase, hbase', ht', hafter⟩ := compareFiles_ok hserves hchecks.readAfter
  have hresolveF := repo.resolve_sha approved f hf
  have hresolveT := repo.resolve_sha head t ht
  cases hbase.symm.trans hbase'
  cases hresolveF.symm.trans hf'
  cases hresolveT.symm.trans ht'
  have hcarries := carriesTree_of_same hserves hresolveF hresolveT hbefore hafter
    (fun path => .of_eq (listed_eq hchecks.fileSet hchecks.blobs path)) hchecks.renames
    hchecks.modes (fun path change => mem_presentFiles) hchecks.admitted
  exact ⟨answer, base, oldBase, newBase, hanswer, hbase, hbefore.isMergeBase,
    hafter.isMergeBase, hcarries, firstParentMerges_ok hserves hbase hf ht hchecks.merges⟩

end Soundness

/-! ## A repository with one merge -/

/-- A base with two commits, a change of one file on the first, and that change with
the base merged into it, rebased, and merged into the base. -/
inductive SampleCommit where
  | root
  | approved
  | tip
  | merged
  | rebased
  | rollup
deriving DecidableEq

namespace SampleCommit

def parents : SampleCommit → List SampleCommit
  | root => []
  | approved => [root]
  | tip => [root]
  | merged => [approved, tip]
  | rebased => [tip]
  | rollup => [tip, approved]

/-- The blob of the changed file. -/
def changedBlob : SampleCommit → String
  | root | tip => "old"
  | _ => "new"

/-- Whether the base's second commit is in the history. -/
def hasTip : SampleCommit → Bool
  | root | approved => false
  | _ => true

def tree (commit : SampleCommit) (path : String) : Option (String × Nat) :=
  if path = "changed" then some (commit.changedBlob, 33188)
  else if path = "added" && commit.hasTip then some ("added", 33188)
  else none

def sha : SampleCommit → String
  | root => "0000000000000000000000000000000000000000"
  | approved => "aaaaaaaaaaaaaaaaaaaaaaaaaaaaaaaaaaaaaaaa"
  | tip => "bbbbbbbbbbbbbbbbbbbbbbbbbbbbbbbbbbbbbbbb"
  | merged => "cccccccccccccccccccccccccccccccccccccccc"
  | rebased => "dddddddddddddddddddddddddddddddddddddddd"
  | rollup => "eeeeeeeeeeeeeeeeeeeeeeeeeeeeeeeeeeeeeeee"

def all : List SampleCommit := [root, approved, tip, merged, rebased, rollup]

def resolve (name : String) : Option SampleCommit :=
  if name = "main" then some tip else all.find? fun commit => toAsciiLowercase name = commit.sha

end SampleCommit

def sampleRepository : Repository SampleCommit where
  parents := SampleCommit.parents
  tree := SampleCommit.tree
  sha := SampleCommit.sha
  resolve := SampleCommit.resolve
  sha_lower := fun commit => by cases commit <;> decide +kernel
  resolve_sha := by
    intro name commit hname
    have hmain : name ≠ "main" := by
      rintro rfl
      revert hname
      cases commit <;> decide +kernel
    rw [SampleCommit.resolve, if_neg hmain, hname]
    cases commit <;> decide +kernel

namespace SampleCommit

def ancestors : SampleCommit → List SampleCommit
  | root => [root]
  | approved => [approved, root]
  | tip => [tip, root]
  | merged => [merged, approved, tip, root]
  | rebased => [rebased, tip, root]
  | rollup => [rollup, tip, approved, root]

theorem mem_ancestors {commit other : SampleCommit}
    (hdescends : sampleRepository.Descends commit other) : other ∈ commit.ancestors := by
  have hparents : ∀ child, child ∈ commit.ancestors → ∀ parent ∈ sampleRepository.parents child,
      parent ∈ commit.ancestors := by
    cases commit <;> decide
  refine hdescends.closed hparents ?_
  cases commit <;> decide

theorem descends {commit other : SampleCommit} (hother : other = commit ∨ other ∈ commit.parents) :
    sampleRepository.Descends commit other := by
  rcases hother with rfl | hparent
  · exact .refl
  · exact .single hparent

def changedEntry : FileEntry := { filename := "changed", status := "modified", sha := "new" }

def addedEntry : FileEntry := { filename := "added", status := "added", sha := "added" }

/-- The merge base and the files of the comparisons that are read. -/
def comparison : SampleCommit → SampleCommit → Option (SampleCommit × List FileEntry)
  | tip, approved => some (root, [changedEntry])
  | tip, merged => some (tip, [changedEntry])
  | tip, rebased => some (tip, [changedEntry])
  | tip, rollup => some (tip, [changedEntry])
  | root, tip => some (root, [addedEntry])
  | _, _ => none

variable {entries : List FileEntry}

theorem isMergeBase_comparison {left right base : SampleCommit}
    (hfound : comparison left right = some (base, entries)) :
    sampleRepository.IsMergeBase left right base := by
  have hbest (other : SampleCommit) (hleft : other ∈ left.ancestors)
      (hright : other ∈ right.ancestors) (hbase : base ∈ other.ancestors) : other = base := by
    revert hfound hleft hright hbase
    cases left <;> cases right <;> cases other <;> simp [comparison, ancestors] <;> rintro rfl - <;>
      decide
  refine ⟨descends ?_, descends ?_, fun other hleft hright hother => hbest other
    (mem_ancestors hleft) (mem_ancestors hright) (mem_ancestors hother)⟩
  · revert hfound
    cases left <;> cases right <;> simp [comparison, parents] <;> rintro rfl - <;> decide
  · revert hfound
    cases left <;> cases right <;> simp [comparison, parents] <;> rintro rfl - <;> decide

/-- One changed file, listed with its new content. -/
theorem lists_single {base right : SampleCommit} {entry : FileEntry}
    (hstatus : entry.status ≠ "removed") (hprevious : entry.previousFilename = none)
    (hafter : right.tree entry.filename = some (entry.sha, 33188))
    (hdiffers : ∀ path, base.tree path ≠ right.tree path ↔ path = entry.filename) :
    Lists "removed" base.tree right.tree
      (fun path => (findEntry [entry] path).map fun entry => (entry.status, entry.sha))
      fun path => (findEntry [entry] path).bind FileEntry.previousFilename := by
  have hfind (path : String) :
      findEntry [entry] path = if entry.filename = path then some entry else none :=
    findEntry_cons entry [] path
  have hsource (name path : String) :
      (findEntry [entry] name).bind FileEntry.previousFilename ≠ some path := by
    rw [hfind]
    split <;> simp [hprevious]
  have hlisted {path : String} {value : String × String}
      (hvalue : (findEntry [entry] path).map (fun entry => (entry.status, entry.sha)) =
        some value) : entry.filename = path ∧ (entry.status, entry.sha) = value := by
    rw [hfind] at hvalue
    split at hvalue
    next hname => exact ⟨hname, some.inj hvalue⟩
    · cases hvalue
  constructor
  · intro path blob hvalue
    exact absurd (congrArg Prod.fst (hlisted hvalue).2) hstatus
  · intro path status blob hvalue _
    obtain ⟨rfl, hpair⟩ := hlisted hvalue
    cases hpair
    exact ⟨33188, hafter⟩
  · exact fun name path hname => absurd hname (hsource name path)
  · intro path
    rw [hdiffers, hfind]
    constructor
    · rintro rfl
      simp
    · rintro (hsome | ⟨name, hname⟩)
      · split at hsome
        next hname => exact hname.symm
        · cases hsome
      · exact absurd hname (hsource name path)

theorem tree_ne_changed {base right : SampleCommit} (hblob : base.changedBlob ≠ right.changedBlob)
    (htip : base.hasTip = right.hasTip) (path : String) :
    base.tree path ≠ right.tree path ↔ path = "changed" := by
  rw [tree, tree, htip]
  by_cases hpath : path = "changed"
  · simp [hpath, hblob]
  · simp [hpath]

theorem tree_ne_added (path : String) : root.tree path ≠ tip.tree path ↔ path = "added" := by
  rw [tree, tree]
  by_cases hpath : path = "changed"
  · simp [hpath, changedBlob]
  · by_cases hadded : path = "added" <;> simp [hpath, hadded, hasTip]

theorem lists_comparison {left right base : SampleCommit}
    (hfound : comparison left right = some (base, entries)) :
    (entries.map FileEntry.filename).Nodup ∧ Lists "removed" base.tree right.tree
      (fun path => (findEntry entries path).map fun entry => (entry.status, entry.sha))
      fun path => (findEntry entries path).bind FileEntry.previousFilename := by
  unfold comparison at hfound
  split at hfound
  case h_5 =>
    cases hfound
    exact ⟨by decide, lists_single (by decide) rfl rfl tree_ne_added⟩
  case h_6 => cases hfound
  all_goals
    cases hfound
    exact ⟨by decide, lists_single (by decide) rfl rfl (tree_ne_changed (by decide) rfl)⟩

end SampleCommit

/-- The answers the samples read. -/
def sampleGh : RunGh where
  baseRef _ := .ok "main"
  compare left right :=
    match SampleCommit.resolve left, SampleCommit.resolve right with
    | some l, some r =>
      match SampleCommit.comparison l r with
      | some (base, entries) => .ok (compareAnswer base.sha entries)
      | none => .error "not compared"
    | _, _ => .error "no such commit"
  compareCommits _ _ := .ok (.obj [("status", .str "ahead"), ("behind_by", .number 0),
    ("total_commits", .number 2),
    ("commits", .arr ([.tip, .merged].map sampleRepository.commitJson))])
  compareStatus left right :=
    match SampleCommit.resolve left, SampleCommit.resolve right with
    | some .tip, some .tip => .ok "identical"
    | some .root, some .tip => .ok "ahead"
    | _, _ => .error "not compared"
  blobIsBinary _ := .ok false
  treeModes name paths :=
    match SampleCommit.resolve name with
    | some _ =>
      if paths = ["changed"] then
        .ok (SortedMap.empty.insert "changed" 33188)
      else .error "not read"
    | none => .error "no such commit"

theorem serves_sampleGh : Serves sampleGh sampleRepository := by
  constructor
  · intro left right value hvalue
    simp only [sampleGh] at hvalue
    split at hvalue
    next l r hl hr =>
      split at hvalue
      next base entries hfound =>
        cases hvalue
        obtain ⟨hnodup, hlists⟩ := SampleCommit.lists_comparison hfound
        exact ⟨l, r, base, entries, hl, hr, SampleCommit.isMergeBase_comparison hfound, rfl,
          hnodup, fun _ => hlists⟩
      · cases hvalue
    · cases hvalue
  · intro left right value items hvalue hitems item hitem
    cases hvalue
    cases hitems
    obtain ⟨commit, -, hcommit⟩ := List.mem_map.mp hitem
    exact ⟨commit, hcommit.symm⟩
  · intro left right text htext
    simp only [sampleGh] at htext
    split at htext
    next hl hr =>
      cases htext
      exact ⟨_, _, hl, hr, fun _ => rfl, fun _ => .refl⟩
    next hl hr =>
      cases htext
      exact ⟨_, _, hl, hr, fun hsame => absurd hsame (by decide +kernel),
        fun _ => SampleCommit.descends (by decide)⟩
    · cases htext
  · intro name paths modes hmodes
    simp only [sampleGh] at hmodes
    split at hmodes
    next commit hcommit =>
      split at hmodes
      next hpaths =>
        cases hmodes
        refine ⟨commit, hcommit, fun path hpath => ?_⟩
        rw [hpaths, List.mem_singleton] at hpath
        subst hpath
        rfl
      · cases hmodes
    · cases hmodes

theorem merge_only_carry_is_sound_across_one_merge :
    ∃ answer base oldBase newBase, sampleGh.baseRef 1 = .ok answer ∧
      sampleRepository.resolve (trim answer) = some base ∧
      sampleRepository.IsMergeBase base .approved oldBase ∧
      sampleRepository.IsMergeBase base .merged newBase ∧
      CarriesTree sampleRepository oldBase newBase .approved .merged [] ∧ 1 ≤ maxCarryMerges ∧
      CrossesMerges sampleRepository base 1 .merged .approved := by
  have hcarry : mergeOnlyCarryRecord sampleGh 1 (SampleCommit.sha .approved)
      (SampleCommit.sha .merged) [] =
        .ok ⟨1, SampleCommit.sha .root, SampleCommit.sha .tip, 1⟩ := by
    decide +kernel
  exact merge_only_carry_is_sound serves_sampleGh (sampleRepository.sha_lower .approved)
    (sampleRepository.sha_lower .merged) hcarry

end Shipyard.HeadApproval
