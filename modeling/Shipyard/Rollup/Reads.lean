import Shipyard.Rollup.Accept

/-!
# What the acceptance of a rollup reads

`ServesRollup` says when the answers are those of a repository and its pull requests.
The chain is then one of merges in the repository, a member's pull request is open at
the merged head, and a comparison's names are the paths that differ.
-/

namespace Shipyard.Rollup

open Lib Lib.Except SortedMap List Option
open HeadApproval (Approval Compares Excluded FileChange FileEntry HeadGate Member PrFiles
  Repository RunGh Serves carryExcluded compareFiles compareFiles_ok mem_names_of_changed
  not_excluded_of_carryExcluded tree_eq_of_unlisted)
open MergeSteward (trim)
open PrQueue (eqIgnoreAsciiCase eqIgnoreAsciiCase_iff toAsciiLowercase)

variable {Commit : Type}

/-! ## What the answers say -/

/-- A pull request as GitHub has it. -/
structure Pull (Commit : Type) where
  state : String
  draft : Bool
  head : Commit
  base : String

def pullJson (repo : Repository Commit) (number : Nat) (pull : Pull Commit) : Json :=
  .obj [("number", .number number), ("state", .str pull.state), ("draft", .bool pull.draft),
    ("sha", .str (repo.sha pull.head)), ("base", .str pull.base)]

theorem pullJson_number (repo : Repository Commit) (number : Nat) (pull : Pull Commit) :
    (pullJson repo number pull).get? "number" = some (.number number) := rfl

/-- The answers are those of a repository with its pull requests. Names of blobs are in
lower case. -/
structure ServesRollup (run : RollupGh) (repo : Repository Commit)
    (pulls : Nat → Option (Pull Commit)) : Prop where
  parents : ∀ name value, run.commitParents name = .ok value → ∃ commit,
    repo.resolve name = some commit ∧
      value = .arr ((repo.parents commit).map fun parent => .str (repo.sha parent))
  tip : ∀ base text, run.branchTip base = .ok text → ∃ commit,
    repo.resolve base = some commit ∧ toAsciiLowercase (trim text) = repo.sha commit
  listed : ∀ name value, run.commitPulls name = .ok value → ∀ item ∈ value.asArr?.getD [],
    ∃ number pull, pulls number = some pull ∧ item = pullJson repo number pull
  blobs : ∀ commit path blob mode, repo.tree commit path = some (blob, mode) →
    toAsciiLowercase blob = blob

/-- From a base commit up to a head along first parents: the merges and what each of
them merges, oldest first. -/
inductive MergesOnto (repo : Repository Commit) (base : Commit) :
    List (Commit × Commit) → Commit → Prop
  | nil : MergesOnto repo base [] base
  | merge {links : List (Commit × Commit)} {first merge member : Commit} :
      MergesOnto repo base links first → repo.parents merge = [first, member] →
        MergesOnto repo base (links ++ [(merge, member)]) merge

section Reads

variable {run : RollupGh} {repo : Repository Commit} {pulls : Nat → Option (Pull Commit)}

section

variable (hrollup : ServesRollup run repo pulls)

include hrollup

theorem parents_ok {commit : Commit} {names : List String}
    (hparents : parents run (repo.sha commit) = .ok names) :
    names = (repo.parents commit).map repo.sha := by
  obtain ⟨value, hvalue, hparents⟩ := bind_eq_ok.mp hparents
  obtain ⟨found, hfound, rfl⟩ := hrollup.parents _ _ hvalue
  cases (repo.resolve_sha _ commit (repo.sha_lower commit)).symm.trans hfound
  cases hparents
  exact HeadApproval.lowercase_texts repo _

theorem walkChain_ok {head baseSha : String} {b : Commit}
    (hb : toAsciiLowercase baseSha = repo.sha b) {max remaining : Nat} {commit : Commit}
    {links : List (String × String)}
    (hwalk : walkChain run head baseSha max remaining (repo.sha commit) = .ok links) :
    ∃ merges, links = merges.map (fun link => (repo.sha link.1, repo.sha link.2)) ∧
      MergesOnto repo b merges commit := by
  induction remaining generalizing commit links with
  | zero =>
    unfold walkChain at hwalk
    split at hwalk
    next hsame =>
      cases hwalk
      cases repo.sha_injective (hsame.trans hb)
      exact ⟨[], rfl, .nil⟩
    · cases hwalk
  | succ remaining ih =>
    unfold walkChain at hwalk
    split at hwalk
    next hsame =>
      cases hwalk
      cases repo.sha_injective (hsame.trans hb)
      exact ⟨[], rfl, .nil⟩
    obtain ⟨names, hnames, hwalk⟩ := bind_eq_ok.mp hwalk
    split at hwalk
    next first member =>
      obtain ⟨earlier, hearlier, hlinks⟩ := bind_eq_ok.mp hwalk
      cases hlinks
      obtain ⟨p, others, hp, rfl, hothers⟩ :=
        map_eq_cons_iff.mp (parents_ok hrollup hnames).symm
      obtain ⟨q, none', rfl, rfl, hnone'⟩ := map_eq_cons_iff.mp hothers
      cases map_eq_nil_iff.mp hnone'
      obtain ⟨merges, rfl, hmerges⟩ := ih hearlier
      exact ⟨merges ++ [(commit, q)], by simp, hmerges.merge hp⟩
    · cases hwalk

theorem baseTip_ok {base tip : String} (htip : baseTip run base = .ok tip) :
    ∃ commit, repo.resolve base = some commit ∧ tip = repo.sha commit := by
  obtain ⟨text, htext, htip⟩ := bind_eq_ok.mp htip
  obtain ⟨commit, hcommit, hsha⟩ := hrollup.tip _ _ htext
  dsimp only at htip
  split at htip
  · cases htip
  · exact ⟨commit, hcommit, (Except.ok.inj htip).symm.trans hsha⟩

/-- The pull request of a member: open on the base at exactly that head, no draft, and
not the rollup itself. -/
theorem memberPr_ok {base : String} {head : Commit} {rollup number : Nat}
    (hmember : memberPr run base (repo.sha head) rollup = .ok number) :
    number ≠ rollup ∧ ∃ pull, pulls number = some pull ∧ pull.state = "open" ∧
      pull.draft = false ∧ pull.head = head ∧ pull.base = base := by
  obtain ⟨value, hvalue, hmember⟩ := bind_eq_ok.mp hmember
  dsimp only at hmember
  split at hmember
  · cases hmember
  next hdraft =>
  split at hmember
  next only honly =>
    cases hmember
    have hmem : number ∈ openMembers base (repo.sha head) rollup (value.asArr?.getD []) := by
      rw [honly]
      exact mem_singleton_self _
    obtain ⟨hmem, hother⟩ := mem_filter.mp hmem
    obtain ⟨item, hitem, hnumber⟩ := mem_filterMap.mp hmem
    obtain ⟨hitem, hopen⟩ := mem_filter.mp hitem
    obtain ⟨found, pull, hpull, rfl⟩ := hrollup.listed _ _ hvalue item hitem
    have hnotDraft := find?_eq_none.mp hdraft _ hitem
    have hfound : found = number := by
      rw [pullJson_number, bind_some, Json.asU64?] at hnumber
      split at hnumber
      · simpa using hnumber
      · cases hnumber
    subst hfound
    rw [Bool.and_eq_true] at hopen
    obtain ⟨hopen, hbase⟩ := hopen
    have hstate := hopen
    rw [openAt, Bool.and_eq_true] at hstate
    have hsha : eqIgnoreAsciiCase (repo.sha pull.head) (repo.sha head) = true := hstate.2
    rw [eqIgnoreAsciiCase_iff, repo.sha_lower, repo.sha_lower] at hsha
    refine ⟨by simpa using hother, pull, hpull, some.inj (of_decide_eq_true hstate.1), ?_,
      repo.sha_injective hsha, some.inj (of_decide_eq_true hbase)⟩
    rw [isDraftAt, hopen, Bool.and_true, decide_eq_true_iff] at hnotDraft
    have hdrafts : (some pull.draft : Option Bool) ≠ some true := hnotDraft
    cases hvalue : pull.draft with
    | true => exact absurd (congrArg some hvalue) hdrafts
    | false => rfl
  · cases hmember
  · cases hmember

end

theorem allows_of_memberRefusal {pr : Nat} {gate : HeadGate} {counted : Bool}
    (hnone : memberRefusal pr gate counted = none) : gate.allows = true := by
  cases gate with
  | notRequired => rfl
  | approved approval => rfl
  | notApproved head => cases hnone
  | selfApproved head agent => cases hnone
  | ejectionCap head ejections => cases hnone
  | notAdmitted head detail => cases hnone

end Reads

/-! ## Names of a comparison -/

variable {changes : PrFiles}

variable {path : String}

theorem mem_touched :
    path ∈ touched changes ↔ path ∈ changes.files.keys ∨ path ∈ changes.sources.values := by
  rw [← mem_append]
  have hget := get?_insertAllIfAbsent SortedMap.empty (fun _ => ())
    (changes.files.keys ++ changes.sources.values) path
  constructor
  · intro hmem
    obtain ⟨value, -, hvalue⟩ := get?_of_mem_keys hmem
    by_contra hnot
    rw [if_neg hnot] at hget
    cases hget.symm.trans hvalue
  · intro hmem
    rw [if_pos hmem] at hget
    exact mem_keys_of_get? hget

theorem mem_touched_of_get? {change : FileChange} (hget : changes.files.get? path = some change) :
    path ∈ touched changes :=
  mem_touched.mpr (.inl (mem_keys_of_get? hget))

/-- The names of a comparison are the paths that differ. -/
theorem mem_touched_iff {repo : Repository Commit} {left right base : Commit}
    (hcompares : Compares repo left right base changes) :
    path ∈ touched changes ↔ repo.tree base path ≠ repo.tree right path := by
  rw [mem_touched]
  refine ⟨fun hmem => (hcompares.lists.exactly path).mpr (hmem.imp ?_ ?_),
    mem_names_of_changed hcompares⟩
  · intro hkey
    obtain ⟨change, -, hchange⟩ := get?_of_mem_keys hkey
    rw [PrFiles.listed, hchange]
    rfl
  · intro hvalue
    obtain ⟨⟨name, source⟩, hentry, rfl⟩ := List.mem_map.mp hvalue
    exact ⟨name, get?_of_mem_entries hentry⟩

/-- What a file of the same change is found as. -/
structure SameFile (expected found : PrFiles) (path : String) (change other : FileChange) :
    Prop where
  get : found.files.get? path = some other
  status : other.status = change.status
  sha : toAsciiLowercase other.sha = toAsciiLowercase change.sha
  source : found.sources.get? path = expected.sources.get? path

theorem sameChange_none {what : String} {expected found : PrFiles}
    (hnone : sameChange what expected found = none) (path : String) :
    (expected.files.get? path = none → found.files.get? path = none) ∧
      ∀ change, expected.files.get? path = some change →
        ∃ other, SameFile expected found path change other := by
  unfold sameChange at hnone
  split at hnone
  · cases hnone
  next hkeys =>
  have hkeys := append_eq_nil_iff.mp (min?_eq_none_iff.mp hkeys)
  simp only [filter_eq_nil_iff, decide_eq_true_eq, not_not] at hkeys
  constructor
  · intro hexpected
    by_contra hfound
    obtain ⟨other, hother⟩ := ne_none_iff_exists'.mp hfound
    obtain ⟨change, -, hchange⟩ :=
      get?_of_mem_keys (hkeys.2 path (mem_keys_of_get? hother))
    rw [hexpected] at hchange
    cases hchange
  · intro change hchange
    obtain ⟨other, -, hother⟩ :=
      get?_of_mem_keys (hkeys.1 path (mem_keys_of_get? hchange))
    have hsame := findSome?_eq_none_iff.mp hnone _ (mem_entries_of_get? hchange)
    rw [fileMoved, hother, bind_some] at hsame
    split at hsame
    · cases hsame
    next hstatus =>
    dsimp only at hsame
    split at hsame
    · cases hsame
    next hsource =>
    simp only [Bool.or_eq_true, decide_eq_true_eq, Bool.not_eq_true', not_or, not_not,
      Bool.not_eq_false, eqIgnoreAsciiCase_iff] at hstatus
    exact ⟨other, hother, hstatus.1.symm, hstatus.2.symm, (not_not.mp hsource).symm⟩

theorem claimFiles_ok {number : Nat} {names : List String} {seen seen' : SortedMap String Nat}
    (hclaim : claimFiles number names seen = .ok seen') :
    (∀ name ∈ names, seen.get? name = none) ∧
      ∀ path, (seen'.get? path).isSome = true ↔
        path ∈ names ∨ (seen.get? path).isSome = true := by
  induction names generalizing seen with
  | nil =>
    cases hclaim
    simp
  | cons name rest ih =>
    unfold claimFiles at hclaim
    split at hclaim
    · cases hclaim
    next hfree =>
    obtain ⟨hrest, hseen⟩ := ih hclaim
    simp only [get?_insert] at hrest hseen
    constructor
    · intro other hother
      rcases mem_cons.mp hother with rfl | hother
      · exact hfree
      · have hnone := hrest other hother
        split at hnone
        · cases hnone
        · exact hnone
    · intro path
      rw [hseen, mem_cons]
      by_cases hpath : path = name <;> simp [hpath]

end Shipyard.Rollup
