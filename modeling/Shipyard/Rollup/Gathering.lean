import Shipyard.Rollup.Reads

/-!
# The members of a rollup

The loop over the merges of the chain: each step checks one member and adds its files.
At the end no two members are the same or change the same file, and the files expected
of the head are those the members change.
-/

namespace Shipyard.Rollup

open Lib Lib.Except List Option
open HeadApproval (Approval HeadGate Member PrFiles Repository Serves compareFiles
  compareFiles_ok)

variable {Commit : Type}

/-- A member and its own comparison with the base commit. -/
structure Found where
  member : Member Approval
  own : PrFiles

section Gathering

variable (run : RollupGh) (pr : Nat) (config : Config)
  (memberGate : Nat → String → Except String HeadGate) (base baseSha : String)

/-- What was checked of a member alone. -/
structure Checked (found : Found) : Prop where
  listed : memberPr run base found.member.head pr = .ok found.member.pr
  gate : ∃ gate, memberGate found.member.pr found.member.head = .ok gate ∧
    memberRefusal found.member.pr gate config.requireCountedApproval = none
  own : compareFiles run.toRunGh baseSha found.member.head = .ok found.own
  files : found.member.files = touched found.own
  fresh : staleFile run.toRunGh baseSha found.own = .ok none

/-- The members so far are those of the links so far: each was checked, no two are the
same or change the same file, and what is expected of the head is what they change. -/
structure Gathered (links : List (String × String)) (found : List Found) (progress : Progress) :
    Prop where
  members : progress.members = found.map Found.member
  links : found.map (fun f => (f.member.merge, f.member.head)) = links
  each : ∀ f ∈ found, Checked run pr config memberGate base baseSha f
  numbers : (found.map fun f => f.member.pr).Nodup
  seen : ∀ path, (progress.seen.get? path).isSome = true ↔ ∃ f ∈ found, path ∈ touched f.own
  disjoint : found.Pairwise fun f g => ∀ path ∈ touched f.own, path ∉ touched g.own
  files : ∀ path change, progress.files.get? path = some change ↔
    ∃ f ∈ found, f.own.files.get? path = some change
  sources : ∀ name source, progress.sources.get? name = some source ↔
    ∃ f ∈ found, f.own.sources.get? name = some source

end Gathering

section Steps

variable {run : RollupGh} {repo : Repository Commit} {pr : Nat} {config : Config}
  {memberGate : Nat → String → Except String HeadGate} {base baseSha : String}

theorem mem_touched_of_source (hserves : Serves run.toRunGh repo) {left right : String}
    {changes : PrFiles} (hread : compareFiles run.toRunGh left right = .ok changes)
    {name source : String} (hsource : changes.sources.get? name = some source) :
    name ∈ touched changes := by
  obtain ⟨l, r, mergeBase, -, -, hcompares⟩ := compareFiles_ok hserves hread
  obtain ⟨change, hchange⟩ := isSome_iff_exists.mp
    (hcompares.renamed name (by rw [hsource]; rfl))
  exact mem_touched_of_get? hchange

variable {links : List (String × String)} {found : List Found}

/-- One merge of the chain adds its member. -/
theorem addMember_gathered (hserves : Serves run.toRunGh repo) {progress next : Progress}
    {link : String × String}
    (hgathered : Gathered run pr config memberGate base baseSha links found progress)
    (hadd : addMember run pr config memberGate base baseSha progress link = .ok next) :
    ∃ f, Gathered run pr config memberGate base baseSha (links ++ [link]) (found ++ [f]) next := by
  obtain ⟨merge, memberHead⟩ := link
  obtain ⟨number, hnumber, hadd⟩ := bind_eq_ok.mp hadd
  obtain ⟨_, honce, hadd⟩ := bind_eq_ok.mp hadd
  obtain ⟨gate, hgate, hadd⟩ := bind_eq_ok.mp hadd
  obtain ⟨_, hallowed, hadd⟩ := bind_eq_ok.mp hadd
  obtain ⟨own, hown, hadd⟩ := bind_eq_ok.mp hadd
  obtain ⟨seen, hclaim, hadd⟩ := bind_eq_ok.mp hadd
  obtain ⟨stale, hstale, hadd⟩ := bind_eq_ok.mp hadd
  obtain ⟨_, hfresh, hadd⟩ := bind_eq_ok.mp hadd
  obtain ⟨step, -, hadd⟩ := bind_eq_ok.mp hadd
  obtain ⟨_, -, hnext⟩ := bind_eq_ok.mp hadd
  rw [refuse_eq_ok] at honce hallowed hfresh
  rw [map_eq_none_iff] at hfresh
  subst hfresh
  cases hnext
  obtain ⟨hfree, hseen⟩ := claimFiles_ok hclaim
  have hunseen {f : Found} (hf : f ∈ found) {path : String} (hpath : path ∈ touched f.own) :
      path ∉ touched own := by
    intro hmem
    have hsome := (hgathered.seen path).mpr ⟨f, hf, hpath⟩
    rw [hfree path hmem] at hsome
    cases hsome
  have hnew : number ∉ found.map fun f => f.member.pr := by
    intro hmem
    obtain ⟨f, hf, hsame⟩ := List.mem_map.mp hmem
    rw [if_pos] at honce
    · cases honce
    · rw [hgathered.members]
      exact List.any_eq_true.mpr ⟨f.member, List.mem_map_of_mem hf, decide_eq_true hsame⟩
  refine ⟨⟨⟨number, memberHead, merge, touched own, approvalOf gate⟩, own⟩, ?_⟩
  constructor
  · simp [hgathered.members]
  · simp [hgathered.links]
  · intro f hf
    rcases mem_append.mp hf with hf | hf
    · exact hgathered.each f hf
    · cases mem_singleton.mp hf
      exact ⟨hnumber, ⟨gate, hgate, hallowed⟩, hown, rfl, hstale⟩
  · rw [map_append, nodup_append]
    refine ⟨hgathered.numbers, nodup_singleton _, fun n hn m hm => ?_⟩
    rintro rfl
    cases mem_singleton.mp hm
    exact hnew hn
  · intro path
    rw [hseen, hgathered.seen]
    simp [or_comm]
  · rw [pairwise_append]
    refine ⟨hgathered.disjoint, pairwise_singleton _ _, fun f hf g hg path hpath => ?_⟩
    cases mem_singleton.mp hg
    exact hunseen hf hpath
  · intro path change
    rw [SortedMap.get?_extend_eq_some, hgathered.files]
    · simp
    · intro key hkey
      obtain ⟨stored, hstored⟩ := isSome_iff_exists.mp hkey
      by_contra hold
      obtain ⟨earlier, hearlier⟩ := ne_none_iff_exists'.mp hold
      obtain ⟨f, hf, hget⟩ := (hgathered.files key earlier).mp hearlier
      exact hunseen hf (mem_touched_of_get? hget) (mem_touched_of_get? hstored)
  · intro name source
    rw [SortedMap.get?_extend_eq_some, hgathered.sources]
    · simp
    · intro key hkey
      obtain ⟨stored, hstored⟩ := isSome_iff_exists.mp hkey
      by_contra hold
      obtain ⟨earlier, hearlier⟩ := ne_none_iff_exists'.mp hold
      obtain ⟨f, hf, hget⟩ := (hgathered.sources key earlier).mp hearlier
      exact hunseen hf (mem_touched_of_source hserves (hgathered.each f hf).own hget)
        (mem_touched_of_source hserves hown hstored)

/-- The whole chain gathers its members. -/
theorem foldlM_addMember_gathered (hserves : Serves run.toRunGh repo) {done : Progress}
    (hfold : links.foldlM (addMember run pr config memberGate base baseSha)
      { members := [], seen := .empty, files := .empty, sources := .empty,
        previous := baseSha } = .ok done) :
    ∃ found, Gathered run pr config memberGate base baseSha links found done := by
  refine foldlM_invariant
    (fun links progress =>
      ∃ found, Gathered run pr config memberGate base baseSha links found progress)
    ?_ ⟨[], rfl, rfl, nofun, nodup_nil, ?_, .nil, ?_, ?_⟩ hfold
  · rintro links progress link next ⟨found, hgathered⟩ hadd
    obtain ⟨f, hnext⟩ := addMember_gathered hserves hgathered hadd
    exact ⟨found ++ [f], hnext⟩
  · exact fun path => iff_of_false nofun nofun
  · exact fun path change => iff_of_false nofun nofun
  · exact fun name source => iff_of_false nofun nofun

/-- Only one member has a path. -/
theorem Gathered.unique {progress : Progress}
    (hgathered : Gathered run pr config memberGate base baseSha links found progress) {f g : Found}
    (hf : f ∈ found) (hg : g ∈ found) {path : String} (hpath : path ∈ touched f.own)
    (hpath' : path ∈ touched g.own) : f = g := by
  by_contra hne
  have hsymm : Std.Symm fun f g : Found => ∀ path ∈ touched f.own, path ∉ touched g.own :=
    ⟨fun f g hdisjoint path hg hf => hdisjoint path hf hg⟩
  exact hgathered.disjoint.forall hf hg hne path hpath hpath'

end Steps

end Shipyard.Rollup
