import Shipyard.HeadApproval.Compare

/-!
# The carry across base merges

`merge_only_carry_record` carries the approval of an earlier head to a head that only
merged the base since: at most three merges, the same files with the same contents and
modes, none of them excluded or touched by the base. What carries is then the approved
content, and everything else is as on the base.
-/

namespace Shipyard.HeadApproval

open Lib SortedMap List Option
open MergeSteward (trim)
open PrQueue (toAsciiLowercase)

def maxCarryMerges : Nat := 3

/-! ## The first parents -/

/-- A listed commit and its parents, in lower case. -/
def commitParents (commit : Json) : Option (String × List String) :=
  (commit.textAt ["sha"]).bind fun sha =>
    (commit.itemsAt ["parents"]).map fun parents =>
      (toAsciiLowercase sha, (parents.filterMap Json.asStr?).map toAsciiLowercase)

def parentsOf (commits : List Json) : SortedMap String (List String) :=
  (commits.filterMap commitParents).foldl (fun found entry => found.insert entry.1 entry.2) .empty

/-- The walk along first parents. It counts the merges, and stops when none may
follow. -/
def walkMerges (run : RunGh) (base approved : String)
    (parents : SortedMap String (List String)) : Nat → String → Except String Nat
  | remaining, sha =>
    if sha = toAsciiLowercase approved then .ok 0
    else
      match remaining with
      | 0 => .error
          (s!"it would carry across more than {maxCarryMerges} base merges; the head needs " ++
            "a new verdict")
      | remaining + 1 =>
        match parents.get? sha with
        | none =>
          let shown := short sha
          .error s!"commit {shown} is outside the comparison"
        | some [first, merged] => do
          let onBase ← run.compareStatus merged base
          if trim onBase ∉ ["ahead", "identical"] then
            let shown := short merged
            .error s!"merged parent {shown} is not on {base}"
          else
            return (← walkMerges run base approved parents remaining first) + 1
        | some _ =>
          let shown := short sha
          .error s!"commit {shown} is not a merge"

/-- Every commit from the head back to the approved one is a merge of the base. -/
def firstParentMerges (run : RunGh) (base approved head : String) : Except String Nat := do
  let range ← run.compareCommits approved head
  if range.textAt ["status"] ≠ some "ahead" ∨
      (range.get? "behind_by").bind Json.asU64? ≠ some 0 then
    let shown := short head
    let earlier := short approved
    .error s!"{shown} does not descend from {earlier}"
  else
    match range.itemsAt ["commits"] with
    | none => .error "the comparison lists no commits"
    | some commits =>
      if some commits.length ≠ (range.get? "total_commits").bind Json.asU64? then
        .error "the comparison lists only some of its commits"
      else walkMerges run base approved (parentsOf commits) maxCarryMerges (toAsciiLowercase head)

/-! ## The carry -/

/-- The first binary file of a comparison. -/
def firstBinary (run : RunGh) : List (String × FileChange) → Except String (Option String)
  | [] => .ok none
  | (name, change) :: rest =>
    if change.patch then firstBinary run rest
    else do
      if ← run.blobIsBinary change.sha then return some name
      firstBinary run rest

/-- The first file that only one of two comparisons lists. -/
def fileSetMoved (before after : SortedMap String FileChange) : Option String :=
  (before.keys.find? fun name => (after.get? name).isNone).or
    (after.keys.find? fun name => (before.get? name).isNone)

/-- The first file whose status or content differs. -/
def blobMoved (before after : SortedMap String FileChange) : Option String :=
  (before.entries.find? fun entry => (after.get? entry.1).all fun other =>
    other.status ≠ entry.2.status || other.sha ≠ entry.2.sha).map Prod.fst

/-- The files of a comparison that are not removed. -/
def presentFiles (changes : SortedMap String FileChange) : List String :=
  (changes.entries.filter fun entry => entry.2.status ≠ "removed").map Prod.fst

/-- The first of some files whose mode differs between two commits. -/
def modeMoved (run : RunGh) (approved head : String) (present : List String) :
    Except String (Option String) :=
  if present.isEmpty then .ok none
  else do
    let approvedModes ← run.treeModes approved present
    let headModes ← run.treeModes head present
    return present.find? fun name => approvedModes.get? name ≠ headModes.get? name

structure MergeCarry where
  merges : Nat
  oldBase : String
  newBase : String
  files : Nat
deriving DecidableEq, Repr

def mergeOnlyCarryRecord (run : RunGh) (pr : Nat) (approved head : String)
    (excluded : List String) : Except String MergeCarry := do
  let base := trim (← run.baseRef pr)
  refuse (if base = "" then some "the pull request has no base branch" else none)
  let merges ← firstParentMerges run base approved head
  let before ← compareFiles run base approved
  let after ← compareFiles run base head
  refuse (carryExcluded (before.files.keys ++ after.files.keys ++ before.sources.values ++
    after.sources.values) excluded)
  let binary ← firstBinary run before.files.entries
  refuse (binary.map fun name => s!"the pull request changes a binary file ({name})")
  refuse ((fileSetMoved before.files after.files).map fun name =>
    s!"the set of files the pull request changes moved ({name})")
  let shown := short head
  let earlier := short approved
  refuse ((blobMoved before.files after.files).map fun name =>
    s!"{name} at {shown} is not the blob approved at {earlier}")
  refuse ((renameSourceMoved before.sources after.sources).map fun name =>
    let now := (after.sources.get? name).getD "nothing"
    let then_ := (before.sources.get? name).getD "nothing"
    s!"{name} is renamed from {now} at {shown}, from {then_} when approved")
  -- The comparison carries no modes, and a merge may only flip an executable bit.
  let mode ← modeMoved run approved head (presentFiles before.files)
  refuse (mode.map fun name => s!"{name} at {shown} does not keep the mode approved at {earlier}")
  if before.mergeBase ≠ after.mergeBase then
    let moved ← compareFiles run before.mergeBase after.mergeBase
    refuse ((touchedByBase before.files [before.sources, after.sources] moved.files
      moved.sources).map fun name => s!"{name} was changed by both the pull request and the base")
  return {
    merges
    oldBase := before.mergeBase
    newBase := after.mergeBase
    files := before.files.entries.length }

/-! ## What the checks establish -/

section Checks

variable {before after : SortedMap String FileChange}

theorem fileSetMoved_none (hnone : fileSetMoved before after = none) (path : String) :
    (after.get? path).isSome = (before.get? path).isSome := by
  obtain ⟨hbefore, hafter⟩ := or_eq_none_iff.mp hnone
  rw [Bool.eq_iff_iff, isSome_iff_exists, isSome_iff_exists]
  constructor
  · rintro ⟨change, hchange⟩
    have hother := find?_eq_none.mp hafter path (mem_keys_of_get? hchange)
    exact ne_none_iff_exists'.mp (by simpa using hother)
  · rintro ⟨change, hchange⟩
    have hother := find?_eq_none.mp hbefore path (mem_keys_of_get? hchange)
    exact ne_none_iff_exists'.mp (by simpa using hother)

theorem renameSourceMoved_none {before after : SortedMap String String}
    (hnone : renameSourceMoved before after = none) (path : String) :
    after.get? path = before.get? path := by
  have hsame (hkey : path ∈ before.keys ++ after.keys) : after.get? path = before.get? path := by
    have hfound := find?_eq_none.mp hnone path hkey
    rw [decide_eq_true_iff, not_not] at hfound
    exact hfound.symm
  cases hbefore : before.get? path with
  | some source =>
    rw [← hbefore]
    exact hsame (mem_append_left _ (mem_keys_of_get? hbefore))
  | none =>
    cases hafter : after.get? path with
    | none => rfl
    | some source =>
      rw [← hbefore, ← hafter]
      exact hsame (mem_append_right _ (mem_keys_of_get? hafter))

theorem mem_presentFiles {path : String} {change : FileChange}
    (hchange : before.get? path = some change) (hstatus : change.status ≠ "removed") :
    path ∈ presentFiles before :=
  List.mem_map.mpr ⟨(path, change), mem_filter.mpr
    ⟨mem_entries_of_get? hchange, decide_eq_true hstatus⟩, rfl⟩

end Checks

section Soundness

variable {Commit : Type} {run : RunGh} {repo : Repository Commit}

theorem listed_eq {before after : PrFiles}
    (hset : fileSetMoved before.files after.files = none)
    (hblob : blobMoved before.files after.files = none) (path : String) :
    after.listed path = before.listed path := by
  unfold PrFiles.listed
  cases hbefore : before.files.get? path with
  | some change =>
    have hsame := find?_eq_none.mp (map_eq_none_iff.mp hblob) _ (mem_entries_of_get? hbefore)
    cases hother : after.files.get? path with
    | none => simp [hother] at hsame
    | some other =>
      obtain ⟨hstatus, hsha⟩ : other.status = change.status ∧ other.sha = change.sha := by
        simpa [hother] using hsame
      rw [map_some, map_some, hstatus, hsha]
  | none =>
    have hafter := fileSetMoved_none hset path
    rw [hbefore] at hafter
    rw [isNone_iff_eq_none.mp (isSome_eq_false_iff.mp hafter)]

theorem modeMoved_none (hserves : Serves run repo) {approved head : String} {f t : Commit}
    (hf : repo.resolve approved = some f) (ht : repo.resolve head = some t)
    {present : List String} (hmode : modeMoved run approved head present = .ok none)
    {path : String} (hpath : path ∈ present) :
    (repo.tree t path).map Prod.snd = (repo.tree f path).map Prod.snd := by
  unfold modeMoved at hmode
  rw [if_neg (by simpa using ne_nil_of_mem hpath)] at hmode
  obtain ⟨approvedModes, happroved, hmode⟩ := Except.bind_eq_ok.mp hmode
  obtain ⟨headModes, hhead, hmode⟩ := Except.bind_eq_ok.mp hmode
  have hsame := find?_eq_none.mp (Except.ok.inj hmode) path hpath
  obtain ⟨f', hf', happroved⟩ := hserves.modes _ _ _ happroved
  obtain ⟨t', ht', hhead⟩ := hserves.modes _ _ _ hhead
  cases hf.symm.trans hf'
  cases ht.symm.trans ht'
  rw [decide_eq_true_iff, not_not] at hsame
  rw [← happroved path hpath, ← hhead path hpath, hsame]

/-! ## Merges that were crossed -/

/-- From a head back to an approved commit along first parents, through that many
merges of commits on the base. -/
inductive CrossesMerges (repo : Repository Commit) (base : Commit) : Nat → Commit → Commit → Prop
  | refl (commit : Commit) : CrossesMerges repo base 0 commit commit
  | merge {count : Nat} {head first merged approved : Commit} :
      repo.parents head = [first, merged] → repo.Descends base merged →
        CrossesMerges repo base count first approved →
          CrossesMerges repo base (count + 1) head approved

theorem Repository.sha_injective {c d : Commit} (hsha : repo.sha c = repo.sha d) : c = d := by
  have hc := repo.resolve_sha (repo.sha c) c (repo.sha_lower c)
  have hd := repo.resolve_sha (repo.sha c) d ((repo.sha_lower c).trans hsha)
  exact some.inj (hc.symm.trans hd)

/-- The names of commits, read back from an answer. -/
theorem lowercase_texts (repo : Repository Commit) (commits : List Commit) :
    ((commits.map fun commit => Json.str (repo.sha commit)).filterMap Json.asStr?).map
      toAsciiLowercase = commits.map repo.sha := by
  induction commits with
  | nil => rfl
  | cons first rest ih =>
    rw [map_cons, filterMap_cons]
    simp only [Json.asStr?, map_cons, ih, repo.sha_lower]

theorem commitParents_commitJson (commit : Commit) :
    commitParents (repo.commitJson commit) =
      some (repo.sha commit, (repo.parents commit).map repo.sha) := by
  have hcommit : commitParents (repo.commitJson commit) =
      some (toAsciiLowercase (repo.sha commit), _) := rfl
  rw [hcommit, repo.sha_lower, lowercase_texts]

/-- The parents of the listed commits are those of the repository. -/
theorem parentsOf_spec {commits : List Json}
    (hcommits : ∀ item ∈ commits, ∃ commit, item = repo.commitJson commit) {sha : String}
    {parents : List String} (hget : (parentsOf commits).get? sha = some parents) :
    ∃ commit, repo.sha commit = sha ∧ (repo.parents commit).map repo.sha = parents := by
  rcases mem_of_get?_foldl_insert hget with hmem | hempty
  · obtain ⟨item, hitem, hparents⟩ := mem_filterMap.mp hmem
    obtain ⟨commit, rfl⟩ := hcommits item hitem
    rw [commitParents_commitJson] at hparents
    cases hparents
    exact ⟨commit, rfl, rfl⟩
  · cases hempty

theorem descends_of_status (hserves : Serves run repo) {base text : String} {b q : Commit}
    (hb : repo.resolve base = some b) (hstatus : run.compareStatus (repo.sha q) base = .ok text)
    (honBase : trim text = "ahead" ∨ trim text = "identical") : repo.Descends b q := by
  obtain ⟨l, r, hl, hr, hidentical, hahead⟩ := hserves.status _ _ _ hstatus
  cases hb.symm.trans hr
  cases (repo.resolve_sha _ q (repo.sha_lower q)).symm.trans hl
  rcases honBase with h | h
  · exact hahead h
  · rw [hidentical h]
    exact .refl

theorem walkMerges_ok (hserves : Serves run repo) {base approved : String} {b f : Commit}
    (hb : repo.resolve base = some b) (hf : toAsciiLowercase approved = repo.sha f)
    {parents : SortedMap String (List String)}
    (hparents : ∀ sha list, parents.get? sha = some list →
      ∃ commit, repo.sha commit = sha ∧ (repo.parents commit).map repo.sha = list)
    {remaining count : Nat} {head : Commit}
    (hwalk : walkMerges run base approved parents remaining (repo.sha head) = .ok count) :
    count ≤ remaining ∧ CrossesMerges repo b count head f := by
  induction remaining generalizing head count with
  | zero =>
    unfold walkMerges at hwalk
    split at hwalk
    next hsame =>
      cases hwalk
      cases repo.sha_injective (hsame.trans hf)
      exact ⟨le_rfl, .refl _⟩
    · cases hwalk
  | succ remaining ih =>
    unfold walkMerges at hwalk
    split at hwalk
    next hsame =>
      cases hwalk
      cases repo.sha_injective (hsame.trans hf)
      exact ⟨Nat.zero_le _, .refl _⟩
    dsimp only at hwalk
    split at hwalk
    · cases hwalk
    next first merged hget =>
      obtain ⟨onBase, hstatus, hwalk⟩ := Except.bind_eq_ok.mp hwalk
      split at hwalk
      · cases hwalk
      next honBase =>
      obtain ⟨rest, hrest, hcount⟩ := Except.bind_eq_ok.mp hwalk
      cases hcount
      obtain ⟨commit, hcommit, hlist⟩ := hparents _ _ hget
      cases repo.sha_injective hcommit
      obtain ⟨p, others, hp, rfl, hothers⟩ := map_eq_cons_iff.mp hlist
      obtain ⟨q, none', rfl, rfl, hnone'⟩ := map_eq_cons_iff.mp hothers
      cases map_eq_nil_iff.mp hnone'
      obtain ⟨hbound, hcrosses⟩ := ih hrest
      refine ⟨Nat.succ_le_succ hbound, .merge hp ?_ hcrosses⟩
      exact descends_of_status hserves hb hstatus (by simpa [or_iff_not_imp_left] using honBase)
    · cases hwalk

theorem firstParentMerges_ok (hserves : Serves run repo) {base approved head : String}
    {b f t : Commit} (hb : repo.resolve base = some b)
    (hf : toAsciiLowercase approved = repo.sha f) (ht : toAsciiLowercase head = repo.sha t)
    {count : Nat} (hmerges : firstParentMerges run base approved head = .ok count) :
    count ≤ maxCarryMerges ∧ CrossesMerges repo b count t f := by
  obtain ⟨range, hrange, hmerges⟩ := Except.bind_eq_ok.mp hmerges
  split at hmerges
  · cases hmerges
  split at hmerges
  · cases hmerges
  next commits hcommits =>
  split at hmerges
  · cases hmerges
  · rw [ht] at hmerges
    exact walkMerges_ok hserves hb hf
      (fun sha list => parentsOf_spec (hserves.commits _ _ _ _ hrange hcommits)) hmerges

end Soundness

end Shipyard.HeadApproval
