import Shipyard.Rollup.Gathering

/-!
# What an accepted rollup lands

Where the rollup is accepted, its head is the base commit with each member's approved
change and nothing else: on what a member changes it has the member's approved content
and mode, on all other paths that of the base commit.
-/

namespace Shipyard.Rollup

open Lib Lib.Except SortedMap List Option
open HeadApproval (Approval Compares Excluded FileChange HeadGate Member PrFiles Repository
  RunGh SampleCommit Serves carryExcluded compareFiles compareFiles_ok
  not_excluded_of_carryExcluded sampleGh sampleRepository serves_sampleGh tree_eq_of_unlisted)
open PrQueue (toAsciiLowercase)

variable {Commit : Type}

/-! ## What lands -/

/-- A member with the commits of its merge, its head, and the merge base of the base
commit and that head. -/
structure Landed (Commit : Type) extends Found where
  merge : Commit
  head : Commit
  ownBase : Commit

/-- A path the member changes, rename sources included. -/
def Landed.Changes (landed : Landed Commit) (repo : Repository Commit) (path : String) : Prop :=
  repo.tree landed.ownBase path ≠ repo.tree landed.head path

/-- The commits of a landed member are those its record names. -/
structure Landed.Names (landed : Landed Commit) (repo : Repository Commit) (b : Commit) :
    Prop where
  merge : landed.member.merge = repo.sha landed.merge
  head : landed.member.head = repo.sha landed.head
  compares : Compares repo b landed.head landed.ownBase landed.own

section Landing

variable {run : RollupGh} {repo : Repository Commit} {pulls : Nat → Option (Pull Commit)}
  {pr : Nat} {config : Config} {memberGate : Nat → String → Except String HeadGate}
  {base baseSha : String}

variable {b : Commit} {path head : String} {members : List (Member Approval)}
  {present : List String}

theorem exists_landed (hserves : Serves run.toRunGh repo) (hb : repo.resolve baseSha = some b)
    {found : List Found} {merges : List (Commit × Commit)}
    (hlinks : found.map (fun f => (f.member.merge, f.member.head)) =
      merges.map fun link => (repo.sha link.1, repo.sha link.2))
    (heach : ∀ f ∈ found, compareFiles run.toRunGh baseSha f.member.head = .ok f.own) :
    ∃ landed : List (Landed Commit), landed.map Landed.toFound = found ∧
      landed.map (fun l => (l.merge, l.head)) = merges ∧ ∀ l ∈ landed, l.Names repo b := by
  induction found generalizing merges with
  | nil =>
    cases map_eq_nil_iff.mp hlinks.symm
    exact ⟨[], rfl, rfl, nofun⟩
  | cons f rest ih =>
    obtain ⟨link, others, rfl, hlink, hothers⟩ := map_eq_cons_iff.mp hlinks.symm
    obtain ⟨hmerge, hhead⟩ := Prod.mk.inj hlink
    obtain ⟨landed, rfl, rfl, hnames⟩ :=
      ih hothers.symm fun g hg => heach g (mem_cons_of_mem _ hg)
    obtain ⟨b', h, ownBase, hb', hh, hcompares⟩ :=
      compareFiles_ok hserves (heach f mem_cons_self)
    cases hb.symm.trans hb'
    cases (repo.resolve_sha _ link.2 (hhead ▸ repo.sha_lower link.2)).symm.trans hh
    refine ⟨⟨f, link.1, link.2, ownBase⟩ :: landed, rfl, rfl, fun l hl => ?_⟩
    rcases mem_cons.mp hl with rfl | hl
    · exact ⟨hmerge.symm, hhead.symm, hcompares⟩
    · exact hnames l hl

theorem Landed.Names.mem_touched_iff {landed : Landed Commit} (hnames : landed.Names repo b) :
    path ∈ touched landed.own ↔ landed.Changes repo path :=
  Rollup.mem_touched_iff hnames.compares

section Union

variable {links : List (String × String)} {found : List Found} {done : Progress}
  {what : String} {union : PrFiles}

/-- What is expected of the rollup head. -/
abbrev Progress.expected (done : Progress) (baseSha : String) : PrFiles :=
  { files := done.files, mergeBase := baseSha, sources := done.sources }

variable {path : String}

/-- On a member's names the rollup head changes what the member changes. -/
theorem Gathered.same (hgathered : Gathered run pr config memberGate base baseSha links found done)
    (hsame : sameChange what (done.expected baseSha) union = none) {f : Found} (hf : f ∈ found)
    (hpath : path ∈ touched f.own) : (f.own.files.get? path = none → union.files.get? path = none) ∧
      ∀ change, f.own.files.get? path = some change →
        ∃ other, SameFile (done.expected baseSha) union path change other := by
  obtain ⟨hnone, hsome⟩ := sameChange_none hsame path
  refine ⟨fun hown => hnone ?_, fun change hchange =>
    hsome change ((hgathered.files path change).mpr ⟨f, hf, hchange⟩)⟩
  by_contra hexpected
  obtain ⟨change, hchange⟩ := ne_none_iff_exists'.mp hexpected
  obtain ⟨g, hg, hget⟩ := (hgathered.files path change).mp hchange
  cases hgathered.unique hf hg hpath (mem_touched_of_get? hget)
  rw [hown] at hget
  cases hget

/-- The rollup head changes nothing that no member changes. -/
theorem Gathered.only {tip t b : Commit}
    (hgathered : Gathered run pr config memberGate base baseSha links found done)
    (hunion : Compares repo tip t b union)
    (hsame : sameChange what (done.expected baseSha) union = none) (hpath : path ∈ touched union) :
    ∃ f ∈ found, path ∈ touched f.own := by
  have hexpected {name : String} {other : FileChange}
      (hother : union.files.get? name = some other) :
      ∃ change, done.files.get? name = some change := by
    refine ne_none_iff_exists'.mp fun hnone => ?_
    cases hother.symm.trans ((sameChange_none hsame name).1 hnone)
  rcases mem_touched.mp hpath with hkey | hvalue
  · obtain ⟨other, -, hother⟩ := get?_of_mem_keys hkey
    obtain ⟨change, hchange⟩ := hexpected hother
    obtain ⟨f, hf, hget⟩ := (hgathered.files path change).mp hchange
    exact ⟨f, hf, mem_touched_of_get? hget⟩
  · obtain ⟨⟨name, source⟩, hentry, rfl⟩ := List.mem_map.mp hvalue
    have hsource := get?_of_mem_entries hentry
    obtain ⟨other, hother⟩ := isSome_iff_exists.mp
      (hunion.renamed name (by rw [hsource]; rfl))
    obtain ⟨change, hchange⟩ := hexpected hother
    obtain ⟨found', hfile⟩ := (sameChange_none hsame name).2 change hchange
    obtain ⟨f, hf, hget⟩ := (hgathered.sources name source).mp (hfile.source.symm.trans hsource)
    exact ⟨f, hf, mem_touched.mpr (.inr (mem_values_of_get? hget))⟩

/-- On what a member changes, the rollup head is as the member's head. -/
theorem Gathered.agrees {tip t b : Commit} (hrollup : ServesRollup run repo pulls)
    (hgathered : Gathered run pr config memberGate base baseSha links found done)
    (hunion : Compares repo tip t b union)
    (hsame : sameChange what (done.expected baseSha) union = none) {l : Landed Commit}
    (hl : l.toFound ∈ found) (hnames : l.Names repo b)
    (hmodes : ∀ path ∈ touched l.own, path ∈ HeadApproval.presentFiles union.files →
      (repo.tree t path).map Prod.snd = (repo.tree l.head path).map Prod.snd)
    (hchanged : l.Changes repo path) : repo.tree t path = repo.tree l.head path := by
  have hpath := hnames.mem_touched_iff.mpr hchanged
  obtain ⟨hnone, hsome⟩ := hgathered.same hsame hl hpath
  have hlisted : SameChange "removed" (l.own.listed path) (union.listed path) := by
    unfold PrFiles.listed
    cases hown : l.own.files.get? path with
    | none =>
      rw [hnone hown]
      exact .of_eq rfl
    | some change =>
      obtain ⟨other, hother⟩ := hsome change hown
      rw [hother.get]
      refine ⟨congrArg some hother.status, fun status blob heq hkept => ?_⟩
      cases heq
      obtain ⟨mode, hblob⟩ := hnames.compares.lists.kept path change.status change.sha
        (by rw [PrFiles.listed, hown]; rfl) hkept
      obtain ⟨mode', hblob'⟩ := hunion.lists.kept path other.status other.sha
        (by rw [PrFiles.listed, hother.get]; rfl) (hother.status ▸ hkept)
      have hsha := hother.sha
      rw [hrollup.blobs _ _ _ _ hblob, hrollup.blobs _ _ _ _ hblob'] at hsha
      rw [map_some, hother.status, hsha]
  refine hnames.compares.lists.agree_at hunion.lists hlisted (fun status blob hown hkept => ?_) ?_
  · have hunionListed := hlisted.blob status blob hown hkept
    obtain ⟨other, hother, heq⟩ := map_eq_some_iff.mp hunionListed
    cases heq
    exact hmodes path hpath (HeadApproval.mem_presentFiles hother hkept)
  · refine ((hnames.compares.lists.exactly path).mp hchanged).imp_right fun hmoved => ?_
    obtain ⟨name, hname⟩ := hmoved
    refine ⟨⟨name, hname⟩, name, ?_⟩
    obtain ⟨change, hchange⟩ := isSome_iff_exists.mp
      (hnames.compares.renamed name (by rw [hname]; rfl))
    obtain ⟨other, hother⟩ :=
      (hgathered.same hsame hl (mem_touched_of_get? hchange)).2 change hchange
    exact hother.source.trans ((hgathered.sources name path).mpr ⟨l.toFound, hl, hname⟩)

end Union

theorem checkModes_ok {run : RunGh} {headModes : SortedMap String Nat}
    (hcheck : checkModes run present headModes members = .ok ()) {member : Member Approval}
    (hmember : member ∈ members) :
    ∃ modes, run.treeModes member.head (member.files.filter (· ∈ present)) = .ok modes ∧
      ∀ name ∈ member.files, name ∈ present → headModes.get? name = modes.get? name := by
  induction members with
  | nil => cases hmember
  | cons first rest ih =>
    obtain ⟨modes, hmodes, hcheck⟩ := bind_eq_ok.mp hcheck
    obtain ⟨_, hsame, hrest⟩ := bind_eq_ok.mp hcheck
    rcases mem_cons.mp hmember with rfl | hmember
    · rw [refuse_eq_ok, map_eq_none_iff] at hsame
      refine ⟨modes, hmodes, fun name hname hpresent => ?_⟩
      have hfound := find?_eq_none.mp hsame name
        (mem_filter.mpr ⟨hname, decide_eq_true hpresent⟩)
      rwa [decide_eq_true_iff, not_not] at hfound
    · exact ih hrest hmember

/-- Where the modes were checked, the head keeps the mode of a member's file. -/
theorem modes_agree (hserves : Serves run.toRunGh repo) {t : Commit}
    (hhead : repo.resolve head = some t) {l : Landed Commit} (hnames : l.Names repo b)
    (hfiles : l.member.files = touched l.own) {headModes : SortedMap String Nat}
    (hread : run.treeModes head present = .ok headModes)
    (hcheck : checkModes run.toRunGh present headModes members = .ok ())
    (hmember : l.member ∈ members) (hpath : path ∈ touched l.own) (hpresent : path ∈ present) :
    (repo.tree t path).map Prod.snd = (repo.tree l.head path).map Prod.snd := by
  obtain ⟨modes, hmodes, hsame⟩ := checkModes_ok hcheck hmember
  obtain ⟨t', ht', hatHead⟩ := hserves.modes _ _ _ hread
  obtain ⟨h, hh, hatMember⟩ := hserves.modes _ _ _ hmodes
  rw [hnames.head] at hh
  cases hhead.symm.trans ht'
  cases (repo.resolve_sha _ l.head (repo.sha_lower l.head)).symm.trans hh
  rw [← hfiles] at hpath
  rw [← hatHead path hpresent, hsame path hpath hpresent]
  exact hatMember path (mem_filter.mpr ⟨hpath, decide_eq_true hpresent⟩)

theorem tipMoved_none (hserves : Serves run.toRunGh repo) {tip : Commit}
    (hdescends : repo.Descends tip b) {seen : SortedMap String Nat}
    (hmoved : tipMoved run.toRunGh (repo.sha b) (repo.sha tip) seen = .ok none)
    (hpath : (seen.get? path).isSome = true) : repo.tree tip path = repo.tree b path := by
  unfold tipMoved at hmoved
  split at hmoved
  next hsame => rw [repo.sha_injective hsame]
  · obtain ⟨moved, hread, hmoved⟩ := bind_eq_ok.mp hmoved
    have huntouched : path ∉ touched moved := fun hmem =>
      find?_eq_none.mp (Except.ok.inj hmoved) path hmem hpath
    exact tree_eq_of_unlisted hserves hread hdescends (not_or.mp (mt mem_touched.mpr huntouched))

/-! ## The acceptance -/

/-- What an accepted rollup found. -/
structure AcceptChecks (run : RollupGh) (pr : Nat) (head : String) (config : Config)
    (excluded : List String) (memberGate : Nat → String → Except String HeadGate)
    (rollup : Rollup) (union : PrFiles) (links : List (String × String)) (done : Progress)
    (headModes : SortedMap String Nat) : Prop where
  readUnion : compareFiles run.toRunGh rollup.base head = .ok union
  baseSha : rollup.baseSha = toAsciiLowercase union.mergeBase
  readTip : baseTip run rollup.base = .ok rollup.baseTip
  readChain : chain run head rollup.baseSha config.maxMembers = .ok links
  fold : links.foldlM (addMember run pr config memberGate rollup.base rollup.baseSha)
    { members := [], seen := .empty, files := .empty, sources := .empty,
      previous := rollup.baseSha } = .ok done
  same : ∃ what, sameChange what (done.expected rollup.baseSha) union = none
  admitted : carryExcluded done.seen.keys config.excludePaths = none ∧
    carryExcluded done.seen.keys excluded = none
  readModes : run.treeModes head (HeadApproval.presentFiles union.files) = .ok headModes
  modes : checkModes run.toRunGh (HeadApproval.presentFiles union.files) headModes done.members =
    .ok ()
  settled : tipMoved run.toRunGh rollup.baseSha rollup.baseTip done.seen = .ok none
  members : rollup.members = done.members
  number : rollup.pr = pr

theorem accept_ok {name : String} {excluded : List String} {rollup : Rollup}
    (haccept : accept run name pr head config excluded memberGate = .ok rollup) :
    ∃ union links done headModes,
      AcceptChecks run pr head config excluded memberGate rollup union links done headModes := by
  obtain ⟨_, -, haccept⟩ := bind_eq_ok.mp haccept
  obtain ⟨_, -, haccept⟩ := bind_eq_ok.mp haccept
  obtain ⟨pull, -, haccept⟩ := bind_eq_ok.mp haccept
  obtain ⟨_, -, haccept⟩ := bind_eq_ok.mp haccept
  obtain ⟨union, hunion, haccept⟩ := bind_eq_ok.mp haccept
  obtain ⟨tip, htip, haccept⟩ := bind_eq_ok.mp haccept
  obtain ⟨links, hlinks, haccept⟩ := bind_eq_ok.mp haccept
  obtain ⟨done, hfold, haccept⟩ := bind_eq_ok.mp haccept
  obtain ⟨_, hsame, haccept⟩ := bind_eq_ok.mp haccept
  obtain ⟨_, hadmitted, haccept⟩ := bind_eq_ok.mp haccept
  obtain ⟨_, -, haccept⟩ := bind_eq_ok.mp haccept
  obtain ⟨headModes, hheadModes, haccept⟩ := bind_eq_ok.mp haccept
  obtain ⟨⟨⟩, hmodes, haccept⟩ := bind_eq_ok.mp haccept
  obtain ⟨moved, hmoved, haccept⟩ := bind_eq_ok.mp haccept
  obtain ⟨_, hsettled, hrollup⟩ := bind_eq_ok.mp haccept
  rw [refuse_eq_ok] at hsame
  rw [refuse_eq_ok, map_eq_none_iff] at hadmitted hsettled
  subst hsettled
  cases hrollup
  exact ⟨union, links, done, headModes, hunion, rfl, htip, hlinks, hfold, ⟨_, hsame⟩,
    or_eq_none_iff.mp hadmitted, hheadModes, hmodes, hmoved, rfl, rfl⟩

/-- A member that may land: an open pull request on the base at exactly the merged
head, other than the rollup, whose gate allows it and which changes nothing excluded. -/
structure Landed.MayLand (landed : Landed Commit) (repo : Repository Commit)
    (pulls : Nat → Option (Pull Commit)) (memberGate : Nat → String → Except String HeadGate)
    (rollup : Rollup) (config : Config) (excluded : List String) : Prop where
  pull : ∃ pull, pulls landed.member.pr = some pull ∧ pull.state = "open" ∧ pull.draft = false ∧
    pull.head = landed.head ∧ pull.base = rollup.base
  other : landed.member.pr ≠ rollup.pr
  gate : ∃ gate, memberGate landed.member.pr landed.member.head = .ok gate ∧ gate.allows = true
  admitted : ∀ path, landed.Changes repo path →
    ¬ Excluded config.excludePaths path ∧ ¬ Excluded excluded path

/-- Members land together: one merge each on the base commit, of different pull
requests that change different paths. The head is as each member on what it changes,
and as the base commit elsewhere; the tip has not changed what a member changes. -/
structure LandsTogether (repo : Repository Commit) (b tip t : Commit)
    (landed : List (Landed Commit)) : Prop where
  merges : MergesOnto repo b (landed.map fun l => (l.merge, l.head)) t
  distinct : (landed.map fun l => l.member.pr).Nodup
  disjoint : landed.Pairwise fun l m => ∀ path, l.Changes repo path → ¬ m.Changes repo path
  changed : ∀ l ∈ landed, ∀ path, l.Changes repo path → repo.tree t path = repo.tree l.head path
  others : ∀ path, (∀ l ∈ landed, ¬ l.Changes repo path) → repo.tree t path = repo.tree b path
  settled : ∀ l ∈ landed, ∀ path, l.Changes repo path → repo.tree tip path = repo.tree b path

/-- The head of an accepted rollup is the base commit with the approved changes of its
members, and nothing else. -/
theorem accepted_rollup_is_sound (hserves : Serves run.toRunGh repo)
    (hrollup : ServesRollup run repo pulls) {name head : String} {t : Commit}
    (ht : toAsciiLowercase head = repo.sha t) {excluded : List String} {rollup : Rollup}
    (haccept : accept run name pr head config excluded memberGate = .ok rollup) :
    ∃ b tip landed, rollup.baseSha = repo.sha b ∧ rollup.baseTip = repo.sha tip ∧
      repo.resolve rollup.base = some tip ∧ repo.IsMergeBase tip t b ∧
      landed.map (fun l => l.member) = rollup.members ∧
      (∀ l ∈ landed, l.Names repo b ∧ l.MayLand repo pulls memberGate rollup config excluded) ∧
      LandsTogether repo b tip t landed := by
  obtain ⟨union, links, done, headModes, hchecks⟩ := accept_ok haccept
  obtain ⟨tip, t', b, htip, ht', hunion⟩ := compareFiles_ok hserves hchecks.readUnion
  have hhead := repo.resolve_sha head t ht
  cases hhead.symm.trans ht'
  have hbaseSha : rollup.baseSha = repo.sha b := by
    rw [hchecks.baseSha, hunion.mergeBase, repo.sha_lower]
  have hb : toAsciiLowercase rollup.baseSha = repo.sha b := by rw [hbaseSha, repo.sha_lower]
  obtain ⟨tip', htip', hbaseTip⟩ := baseTip_ok hrollup hchecks.readTip
  cases htip.symm.trans htip'
  obtain ⟨walked, hwalk, hchain⟩ := Except.bind_eq_ok.mp hchecks.readChain
  split at hchain
  · cases hchain
  cases hchain
  rw [ht] at hwalk
  obtain ⟨merges, rfl, hmerges⟩ := walkChain_ok hrollup hb hwalk
  obtain ⟨found, hgathered⟩ := foldlM_addMember_gathered hserves hchecks.fold
  obtain ⟨landed, rfl, rfl, hnames⟩ := exists_landed hserves (repo.resolve_sha _ b hb)
    hgathered.links fun f hf => (hgathered.each f hf).own
  obtain ⟨what, hsame⟩ := hchecks.same
  have hmem {l : Landed Commit} (hl : l ∈ landed) : l.toFound ∈ landed.map Landed.toFound :=
    List.mem_map_of_mem hl
  have hseen {l : Landed Commit} (hl : l ∈ landed) {path : String}
      (hchanged : l.Changes repo path) : (done.seen.get? path).isSome = true :=
    (hgathered.seen path).mpr ⟨l.toFound, hmem hl, (hnames l hl).mem_touched_iff.mpr hchanged⟩
  refine ⟨b, tip, landed, hbaseSha, hbaseTip, htip, hunion.isMergeBase, ?_, fun l hl =>
    ⟨hnames l hl, ?_⟩, ?_⟩
  · rw [hchecks.members, hgathered.members, List.map_map]
    rfl
  · obtain ⟨gate, hgate, hallowed⟩ := (hgathered.each _ (hmem hl)).gate
    have hlisted := (hgathered.each _ (hmem hl)).listed
    rw [(hnames l hl).head] at hlisted
    obtain ⟨hother, hpull⟩ := memberPr_ok hrollup hlisted
    refine ⟨hpull, hchecks.number ▸ hother, ⟨gate, hgate, allows_of_memberRefusal hallowed⟩,
      fun path hchanged => ?_⟩
    obtain ⟨number, hnumber⟩ := isSome_iff_exists.mp (hseen hl hchanged)
    have hkey := mem_keys_of_get? hnumber
    exact ⟨not_excluded_of_carryExcluded hchecks.admitted.1 hkey,
      not_excluded_of_carryExcluded hchecks.admitted.2 hkey⟩
  constructor
  · exact hmerges
  · simpa [List.map_map, Function.comp_def] using hgathered.numbers
  · have hdisjoint := pairwise_map.mp hgathered.disjoint
    refine hdisjoint.imp_of_mem fun hl hm hpaths path hfirst hsecond => ?_
    exact hpaths path ((hnames _ hl).mem_touched_iff.mpr hfirst)
      ((hnames _ hm).mem_touched_iff.mpr hsecond)
  · intro l hl path hchanged
    refine hgathered.agrees hrollup hunion hsame (hmem hl) (hnames l hl) ?_ hchanged
    have hmember : l.member ∈ done.members := by
      rw [hgathered.members]
      exact List.mem_map_of_mem (hmem hl)
    exact fun path => modes_agree hserves hhead (hnames l hl) (hgathered.each _ (hmem hl)).files
      hchecks.readModes hchecks.modes hmember
  · intro path hothers
    have huntouched : path ∉ touched union := fun htouched => by
      obtain ⟨f, hf, hpath⟩ := hgathered.only hunion hsame htouched
      obtain ⟨l, hl, rfl⟩ := List.mem_map.mp hf
      exact hothers l hl ((hnames l hl).mem_touched_iff.mp hpath)
    rw [Rollup.mem_touched_iff hunion, not_not] at huntouched
    exact huntouched.symm
  · intro l hl path hchanged
    have hsettled := hchecks.settled
    rw [hbaseSha, hbaseTip] at hsettled
    exact tipMoved_none hserves hunion.isMergeBase.ofLeft hsettled (hseen hl hchanged)

end Landing

/-- The answers of the sample repository for a rollup of one member. -/
def sampleRollupGh : RollupGh where
  toRunGh := sampleGh
  pull _ := .ok (.obj [("ref", .str "shipyard-train/rollup-1"), ("base", .str "main"),
    ("sha", .str (SampleCommit.sha .rollup)), ("state", .str "open"),
    ("head_repo", .str "owner/repo")])
  branchTip name :=
    match SampleCommit.resolve name with
    | some commit => .ok commit.sha
    | none => .error "no such branch"
  commitParents name :=
    match SampleCommit.resolve name with
    | some commit => .ok (.arr (commit.parents.map fun parent => .str parent.sha))
    | none => .error "no such commit"
  commitPulls _ := .ok (.arr [pullJson sampleRepository 7
    ⟨"open", false, .approved, "main"⟩])
  hostStopped := none

def samplePulls (number : Nat) : Option (Pull SampleCommit) :=
  if number = 7 then some ⟨"open", false, .approved, "main"⟩ else none

theorem servesRollup_sample :
    ServesRollup sampleRollupGh sampleRepository samplePulls := by
  constructor
  · intro name value hvalue
    simp only [sampleRollupGh] at hvalue
    split at hvalue
    next commit hcommit =>
      cases hvalue
      exact ⟨commit, hcommit, rfl⟩
    · cases hvalue
  · intro base text htext
    simp only [sampleRollupGh] at htext
    split at htext
    next commit hcommit =>
      cases htext
      refine ⟨commit, hcommit, ?_⟩
      cases commit <;> decide +kernel
    · cases htext
  · intro name value hvalue item hitem
    cases hvalue
    cases mem_singleton.mp hitem
    exact ⟨7, _, rfl, rfl⟩
  · intro commit path blob mode hblob
    have hcases : blob = "old" ∨ blob = "new" ∨ blob = "added" := by
      simp only [sampleRepository, SampleCommit.tree] at hblob
      split at hblob
      · cases hblob
        cases commit <;> simp [SampleCommit.changedBlob]
      · split at hblob
        · cases hblob
          exact .inr (.inr rfl)
        · cases hblob
    rcases hcases with rfl | rfl | rfl <;> decide +kernel

theorem accepted_rollup_is_sound_for_one_member :
    ∃ rollup, accept sampleRollupGh "owner/repo" 1 (SampleCommit.sha .rollup)
        { enabled := true, mode := .rollup } []
        (fun _ _ => .ok (.approved (.review "reviewer" none))) = .ok rollup ∧
      ∃ b latest landed, rollup.baseSha = sampleRepository.sha b ∧
        rollup.baseTip = sampleRepository.sha latest ∧
        sampleRepository.resolve rollup.base = some latest ∧
        sampleRepository.IsMergeBase latest .rollup b ∧
        landed.map (fun l => l.member) = rollup.members ∧
        (∀ l ∈ landed, l.Names sampleRepository b ∧
          l.MayLand sampleRepository samplePulls
            (fun _ _ => .ok (.approved (.review "reviewer" none))) rollup
            { enabled := true, mode := .rollup } []) ∧
        LandsTogether sampleRepository b latest .rollup landed := by
  have hok : (accept sampleRollupGh "owner/repo" 1 (SampleCommit.sha .rollup)
      { enabled := true, mode := .rollup } []
      (fun _ _ => .ok (.approved (.review "reviewer" none)))).isOk = true := by
    decide +kernel
  cases haccept : accept sampleRollupGh "owner/repo" 1 (SampleCommit.sha .rollup)
      { enabled := true, mode := .rollup } []
      (fun _ _ => .ok (.approved (.review "reviewer" none))) with
  | error why =>
    rw [haccept] at hok
    cases hok
  | ok rollup =>
    exact ⟨rollup, rfl, accepted_rollup_is_sound serves_sampleGh
      servesRollup_sample (sampleRepository.sha_lower .rollup) haccept⟩

end Shipyard.Rollup
