import Shipyard.HeadApproval.Evaluate
import Shipyard.HeadApproval.ReviewVerdict
import Shipyard.Lib.History
import Shipyard.Lib.SortedMap

/-!
# Comparing commits

What the carries read of a repository: which files a comparison lists, whether the
base moved under them, and whether a path is excluded from carries. `Serves` says
when the answers are those of a repository: its commits, their trees and merge bases.
-/

namespace Shipyard.HeadApproval

open Lib List
open MergeSteward (trim)
open PrQueue (eqIgnoreAsciiCase toAsciiLowercase)

/-! ## The calls -/

/-- `run_gh`, by endpoint: the base branch of a pull request, and comparisons of two
names with the fields that are asked for. -/
structure RunGh where
  baseRef : Nat → Except String String
  /-- `merge_base` and `files` -/
  compare : String → String → Except String Json
  /-- `status`, `behind_by`, `total_commits` and `commits` -/
  compareCommits : String → String → Except String Json
  compareStatus : String → String → Except String String
  blobIsBinary : String → Except String Bool
  /-- The modes of some paths at a commit. -/
  treeModes : String → List String → Except String (SortedMap String Nat)

/-- The longest start of a text with that many bytes, when one has exactly that many. -/
def takeBytes : Nat → List Char → Option (List Char)
  | 0, _ => some []
  | _, [] => none
  | count, char :: rest =>
    if char.utf8Size ≤ count then
      (takeBytes (count - char.utf8Size) rest).map (char :: ·)
    else none

/-- The first twelve bytes of a commit's name, where they end between characters. -/
def short (sha : String) : String := ((takeBytes 12 sha.toList).map String.ofList).getD sha

/-! ## Files of a comparison -/

/-- What a comparison says of a file. -/
structure FileChange where
  status : String
  sha : String
  patch : Bool
deriving DecidableEq, Repr

/-- The files of a comparison, its merge base, and what each renamed file was. -/
structure PrFiles where
  files : SortedMap String FileChange
  mergeBase : String
  sources : SortedMap String String

def compareFileCap : Nat := 300

/-- One file of the answer. -/
def addFile (range : String)
    (found : SortedMap String FileChange × SortedMap String String) (file : Json) :
    Except String (SortedMap String FileChange × SortedMap String String) :=
  match file.textAt ["filename"] with
  | none => .error s!"compare/{range}: a file has no name"
  | some name =>
    let change : FileChange :=
      { status := (file.textAt ["status"]).getD ""
        sha := (file.textAt ["sha"]).getD ""
        patch := (file.get? "patch").bind Json.asBool? = some true }
    .ok (found.1.insert name change,
      match file.textAt ["previous_filename"] with
      | some previous => found.2.insert name previous
      | none => found.2)

def compareFiles (run : RunGh) (left right : String) : Except String PrFiles := do
  let range := left ++ "..." ++ right
  let value ← run.compare left right
  match value.itemsAt ["files"] with
  | none => .error s!"compare/{range} lists no files"
  | some items =>
    let count := items.length
    if compareFileCap ≤ count then
      .error s!"compare/{range} lists {count} files, GitHub's cap; it may be partial"
    else
      let (files, sources) ← items.foldlM (addFile range) (SortedMap.empty, SortedMap.empty)
      match value.textAt ["merge_base"] with
      | none => .error s!"compare/{range}: no merge base"
      | some mergeBase => return { files, mergeBase, sources }

/-- The first of the pull request's files that the base touched, under either name of
a rename on either side. -/
def touchedByBase (before : SortedMap String FileChange)
    (prSources : List (SortedMap String String)) (moved : SortedMap String FileChange)
    (movedSources : SortedMap String String) : Option String :=
  let touched := moved.keys ++ movedSources.values
  ((before.keys ++ prSources.flatMap SortedMap.values).filter (· ∈ touched)).min?

/-- The first file whose rename source differs between two comparisons. -/
def renameSourceMoved (before after : SortedMap String String) : Option String :=
  (before.keys ++ after.keys).find? fun name => before.get? name ≠ after.get? name

/-! ## Excluded paths -/

def protectedCarryPaths : List String :=
  [".github/workflows/**", ".agents/contract.toml", ".shipyard/config.toml", "tools/ci/**",
    "scripts/ghapp*", "src/head_approval*", "src/head_approval/**", "src/queue_arm_gate*",
    "src/auto_arm*", "src/auto_arm/**", "src/ghapp_guards*", "src/app/ship_cmd/auto_arm*",
    "src/app/merge_steward_cmd/native_arm*", "**/*codesign*", "**/*notariz*", "**/*signing*"]

/-- An entry that allows paths again. -/
def isAllow (pattern : String) : Bool := "!".toList.isPrefixOf pattern.toList

/-- Whether an allow entry matches a path. -/
def allowsPath (path allow : String) : Bool :=
  globMatch (String.ofList (stripStart "!".toList allow.toList)) path

/-- Why a change of a path never carries. -/
def pathRefusal (excluded : List String) (path : String) : Option String :=
  ((excluded.filter (!isAllow ·)).find? (globMatch · path)).bind fun pattern =>
    if !protectedCarryPaths.any (globMatch · path) &&
        (excluded.filter isAllow).any (allowsPath path) then none
    else
      some (s!"it changes {path} ({pattern}), and a change there always needs a verdict " ++
        "naming its exact head")

def carryExcluded (paths excluded : List String) : Option String :=
  (paths.insertionSort (· ≤ ·)).findSome? (pathRefusal excluded)

/-- A pattern excludes the path, and no allow entry readmits it: none can where the
path is protected. -/
def Excluded (excluded : List String) (path : String) : Prop :=
  (∃ pattern ∈ excluded, isAllow pattern = false ∧ globMatch pattern path = true) ∧
    ((∃ pattern ∈ protectedCarryPaths, globMatch pattern path = true) ∨
      ∀ allow ∈ excluded, isAllow allow = true → allowsPath path allow = false)

theorem pathRefusal_isSome_iff {excluded : List String} {path : String} :
    (pathRefusal excluded path).isSome = true ↔ Excluded excluded path := by
  unfold pathRefusal Excluded
  cases hfound : (excluded.filter (!isAllow ·)).find? (globMatch · path) with
  | none =>
    simp only [find?_eq_none, mem_filter] at hfound
    refine iff_of_false nofun fun ⟨⟨pattern, hmem, hallow, hmatch⟩, _⟩ => ?_
    exact hfound pattern ⟨hmem, by rw [hallow]; rfl⟩ hmatch
  | some pattern =>
    have hmatch := find?_some hfound
    obtain ⟨hmem, hallow⟩ := mem_filter.mp (mem_of_find?_eq_some hfound)
    rw [and_iff_right ⟨pattern, hmem, by simpa using hallow, hmatch⟩, Option.bind_some]
    by_cases hprotected : protectedCarryPaths.any (globMatch · path) = true
    · rw [hprotected]
      exact iff_of_true rfl (.inl (any_eq_true.mp hprotected))
    · rw [or_iff_right (mt any_eq_true.mpr hprotected), Bool.eq_false_iff.mpr hprotected]
      by_cases hallowed : (excluded.filter isAllow).any (allowsPath path) = true
      · rw [hallowed]
        refine iff_of_false nofun fun hnone => ?_
        obtain ⟨allow, hallow, hmatches⟩ := any_eq_true.mp hallowed
        obtain ⟨hmem, hkind⟩ := mem_filter.mp hallow
        rw [hnone allow hmem hkind] at hmatches
        cases hmatches
      · rw [Bool.eq_false_iff.mpr hallowed]
        refine iff_of_true rfl fun allow hmem hkind => Bool.eq_false_iff.mpr fun hmatches => ?_
        exact hallowed (any_eq_true.mpr ⟨allow, mem_filter.mpr ⟨hmem, hkind⟩,
          hmatches⟩)

theorem not_excluded_of_carryExcluded {paths excluded : List String}
    (hnone : carryExcluded paths excluded = none) {path : String} (hpath : path ∈ paths) :
    ¬ Excluded excluded path := by
  rw [← pathRefusal_isSome_iff,
    findSome?_eq_none_iff.mp hnone path ((mem_insertionSort _).mpr hpath)]
  decide

/-! ## What the answers say -/

/-- A file as a comparison answers it. -/
structure FileEntry where
  filename : String
  status : String
  sha : String
  previousFilename : Option String := none
  patch : Bool := true

def FileEntry.change (entry : FileEntry) : FileChange := ⟨entry.status, entry.sha, entry.patch⟩

def FileEntry.json (entry : FileEntry) : Json :=
  .obj [("filename", .str entry.filename), ("status", .str entry.status),
    ("sha", .str entry.sha), ("previous_filename", jsonText entry.previousFilename),
    ("patch", .bool entry.patch)]

def compareAnswer (mergeBase : String) (entries : List FileEntry) : Json :=
  .obj [("merge_base", .str mergeBase), ("files", .arr (entries.map FileEntry.json))]

/-- The entry of a file. -/
def findEntry (entries : List FileEntry) (path : String) : Option FileEntry :=
  entries.find? fun entry => entry.filename = path

/-- A repository: its commits with their trees of blobs and modes, their names in
lower case, and the commit each name stands for. -/
structure Repository (Commit : Type) extends History Commit String (String × Nat) where
  sha : Commit → String
  resolve : String → Option Commit
  sha_lower : ∀ commit, toAsciiLowercase (sha commit) = sha commit
  resolve_sha : ∀ name commit, toAsciiLowercase name = sha commit → resolve name = some commit

variable {Commit : Type}

def Repository.commitJson (repo : Repository Commit) (commit : Commit) : Json :=
  .obj [("sha", .str (repo.sha commit)),
    ("parents", .arr ((repo.parents commit).map fun parent => .str (repo.sha parent)))]

/-- The answers are those of a repository. A comparison lists exactly the paths that
differ between the merge base and the right side, unless it reaches the cap. -/
structure Serves (run : RunGh) (repo : Repository Commit) : Prop where
  compare : ∀ left right value, run.compare left right = .ok value →
    ∃ l r base entries, repo.resolve left = some l ∧ repo.resolve right = some r ∧
      repo.IsMergeBase l r base ∧ value = compareAnswer (repo.sha base) entries ∧
      (entries.map FileEntry.filename).Nodup ∧
      (entries.length < compareFileCap → Lists "removed" (repo.tree base) (repo.tree r)
        (fun path => (findEntry entries path).map fun entry => (entry.status, entry.sha))
        fun path => (findEntry entries path).bind FileEntry.previousFilename)
  commits : ∀ left right value items, run.compareCommits left right = .ok value →
    value.itemsAt ["commits"] = some items → ∀ item ∈ items, ∃ commit,
      item = repo.commitJson commit
  status : ∀ left right text, run.compareStatus left right = .ok text →
    ∃ l r, repo.resolve left = some l ∧ repo.resolve right = some r ∧
      (trim text = "identical" → l = r) ∧ (trim text = "ahead" → repo.Descends r l)
  modes : ∀ name paths modes, run.treeModes name paths = .ok modes →
    ∃ commit, repo.resolve name = some commit ∧
      ∀ path ∈ paths, modes.get? path = (repo.tree commit path).map Prod.snd

/-- What a comparison says of a path. -/
def PrFiles.listed (changes : PrFiles) (path : String) : Option (String × String) :=
  (changes.files.get? path).map fun change => (change.status, change.sha)

theorem addFile_json (range : String)
    (found : SortedMap String FileChange × SortedMap String String) (entry : FileEntry) :
    addFile range found entry.json = .ok (found.1.insert entry.filename entry.change,
      match entry.previousFilename with
      | some previous => found.2.insert entry.filename previous
      | none => found.2) := by
  obtain ⟨filename, status, sha, previous, patch⟩ := entry
  cases previous <;> cases patch <;> rfl

theorem findEntry_cons (entry : FileEntry) (rest : List FileEntry) (path : String) :
    findEntry (entry :: rest) path =
      if entry.filename = path then some entry else findEntry rest path := by
  by_cases hpath : entry.filename = path
  · rw [findEntry, find?_cons_of_pos (by simpa using hpath), if_pos hpath]
  · rw [findEntry, find?_cons_of_neg (by simpa using hpath), if_neg hpath, findEntry]

theorem findEntry_eq_none {entries : List FileEntry} {path : String}
    (hpath : path ∉ entries.map FileEntry.filename) : findEntry entries path = none := by
  refine find?_eq_none.mpr fun entry hentry hname => hpath ?_
  exact mem_map.mpr ⟨entry, hentry, of_decide_eq_true hname⟩

/-- With one entry for each file, the maps hold what the entries say. -/
theorem foldlM_addFile (range : String) (entries : List FileEntry)
    (hnames : (entries.map FileEntry.filename).Nodup)
    (found : SortedMap String FileChange × SortedMap String String) :
    ∃ files sources, (entries.map FileEntry.json).foldlM (addFile range) found =
        .ok (files, sources) ∧
      (∀ path, files.get? path =
        ((findEntry entries path).map FileEntry.change).or (found.1.get? path)) ∧
      ∀ path, sources.get? path =
        ((findEntry entries path).bind FileEntry.previousFilename).or (found.2.get? path) := by
  induction entries generalizing found with
  | nil => exact ⟨found.1, found.2, rfl, fun _ => rfl, fun _ => rfl⟩
  | cons entry rest ih =>
    rw [map_cons, nodup_cons] at hnames
    obtain ⟨files, sources, hfold, hfiles, hsources⟩ := ih hnames.2
      (found.1.insert entry.filename entry.change,
        match entry.previousFilename with
        | some previous => found.2.insert entry.filename previous
        | none => found.2)
    refine ⟨files, sources, ?_, fun path => ?_, fun path => ?_⟩
    · rw [map_cons, foldlM_cons, addFile_json]
      exact hfold
    · rw [hfiles, findEntry_cons, SortedMap.get?_insert]
      by_cases hpath : entry.filename = path
      · subst hpath
        simp [findEntry_eq_none hnames.1]
      · simp [hpath, Ne.symm hpath]
    · rw [hsources, findEntry_cons]
      by_cases hpath : entry.filename = path
      · subst hpath
        cases hprevious : entry.previousFilename <;>
          simp [findEntry_eq_none hnames.1, hprevious]
      · cases entry.previousFilename <;> simp [hpath, SortedMap.get?_insert, Ne.symm hpath]

/-- What a comparison is of: two commits, their merge base, and what differs between it
and the right one. -/
structure Compares (repo : Repository Commit) (left right base : Commit) (changes : PrFiles) :
    Prop where
  isMergeBase : repo.IsMergeBase left right base
  mergeBase : changes.mergeBase = repo.sha base
  lists : Lists "removed" (repo.tree base) (repo.tree right) changes.listed changes.sources.get?
  renamed : ∀ name, (changes.sources.get? name).isSome = true →
    (changes.files.get? name).isSome = true

theorem compareFiles_ok {run : RunGh} {repo : Repository Commit} (hserves : Serves run repo)
    {left right : String} {changes : PrFiles}
    (hok : compareFiles run left right = .ok changes) :
    ∃ l r base, repo.resolve left = some l ∧ repo.resolve right = some r ∧
      Compares repo l r base changes := by
  obtain ⟨value, hvalue, hok⟩ := Except.bind_eq_ok.mp hok
  obtain ⟨l, r, base, entries, hl, hr, hbase, rfl, hnames, hlists⟩ :=
    hserves.compare left right value hvalue
  refine ⟨l, r, base, hl, hr, ?_⟩
  have hitems : (compareAnswer (repo.sha base) entries).itemsAt ["files"] =
      some (entries.map FileEntry.json) := rfl
  have htext : (compareAnswer (repo.sha base) entries).textAt ["merge_base"] =
      some (repo.sha base) := rfl
  rw [hitems, htext] at hok
  dsimp only at hok
  split at hok
  · cases hok
  next hcap =>
  rw [length_map, Nat.not_le] at hcap
  obtain ⟨files, sources, hfold, hfiles, hsources⟩ :=
    foldlM_addFile (left ++ "..." ++ right) entries hnames (SortedMap.empty, SortedMap.empty)
  rw [hfold] at hok
  cases hok
  simp only [SortedMap.get?_empty, Option.or_none] at hfiles hsources
  refine ⟨hbase, rfl, ?_, fun name hname => ?_⟩
  · have hlisted : (⟨files, repo.sha base, sources⟩ : PrFiles).listed =
        fun path => (findEntry entries path).map fun entry => (entry.status, entry.sha) := by
      funext path
      rw [PrFiles.listed, hfiles, Option.map_map]
      rfl
    have hsource : (⟨files, repo.sha base, sources⟩ : PrFiles).sources.get? =
        fun path => (findEntry entries path).bind FileEntry.previousFilename := funext hsources
    rw [hlisted, hsource]
    exact hlists hcap
  · rw [hsources] at hname
    rw [hfiles]
    cases hentry : findEntry entries name with
    | none =>
      rw [hentry] at hname
      cases hname
    | some entry => rfl

end Shipyard.HeadApproval
