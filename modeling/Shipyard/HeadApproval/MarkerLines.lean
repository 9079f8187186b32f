import Shipyard.HeadApproval.TextAgreement

/-!
# The last line of a comment in Rust and in Python

The guard splits a body with `str.splitlines` and the gate at each of Python's line
boundaries, which leaves more empty lines and no other ones. A line that only
Python takes for blank has a unit separator (U+001F) in it: the gate takes it for
the last line, where the guard reads an earlier one.
-/

namespace Shipyard.HeadApproval

open Lib List Regex
open MergeSteward (trim)

/-! ## Lines -/

/-- `str.splitlines`: a carriage return with its line feed is one boundary, and no
line starts after the last boundary. -/
def splitlines : List Char → List (List Char)
  | [] => []
  | '\r' :: '\n' :: rest => [] :: splitlines rest
  | char :: rest =>
    if isLineBreak char then [] :: splitlines rest
    else (char :: (splitlines rest).headD []) :: (splitlines rest).tail

theorem filter_eq_of_parts {α : Type} {p : List α → Bool} (hnil : p [] = false)
    {lines lines' : List (List α)} (hhead : lines.headD [] = lines'.headD [])
    (htail : lines.tail.filter p = lines'.tail.filter p) : lines.filter p = lines'.filter p := by
  have hparts : ∀ all : List (List α), all.filter p = (all.headD [] :: all.tail).filter p := by
    intro all
    cases all with
    | nil => simp [hnil]
    | cons line rest => rfl
  rw [hparts lines, hparts lines', hhead, filter_cons, htail, ← filter_cons]

/-- The two ways to split a text differ in empty lines only. -/
theorem splitlines_spec {p : List Char → Bool} (hnil : p [] = false) (text : List Char) :
    (splitlines text).headD [] = (text.splitOnP isLineBreak).headD [] ∧
      (splitlines text).tail.filter p = (text.splitOnP isLineBreak).tail.filter p := by
  fun_induction splitlines text with
  | case1 => simp
  | case2 rest ih =>
    have hreturn : isLineBreak '\r' = true := rfl
    have hfeed : isLineBreak '\n' = true := rfl
    have hrest := filter_eq_of_parts hnil ih.1 ih.2
    simp [splitOnP_cons_eq_if_modifyHead, hreturn, hfeed, hnil, hrest]
  | case3 char rest _ hbreak ih =>
    have hrest := filter_eq_of_parts hnil ih.1 ih.2
    simp [splitOnP_cons_eq_if_modifyHead, hbreak, hrest]
  | case4 char rest _ hbreak ih =>
    cases hsplit : rest.splitOnP isLineBreak with
    | nil => exact absurd hsplit (splitOnP_ne_nil _ _)
    | cons line lines =>
      rw [hsplit] at ih
      simpa [splitOnP_cons_eq_if_modifyHead, hbreak, hsplit] using ih

/-- The guard's `marker_verdict`. -/
def ArmGuard.splitlinesVerdict (body : String) : Option (Verdict × String) :=
  (((splitlines body.toList).map String.ofList).filter fun line => strip line ≠ "").getLast?.bind
    lineVerdict

theorem splitlinesVerdict_eq (body : String) :
    ArmGuard.splitlinesVerdict body =
      ((pythonLines body).filter fun line => ArmGuard.strip line ≠ "").getLast?.bind
        ArmGuard.lineVerdict := by
  have hspec := splitlines_spec
    (p := (fun line => decide (ArmGuard.strip line ≠ "")) ∘ String.ofList) rfl body.toList
  rw [ArmGuard.splitlinesVerdict, pythonLines, filter_map, filter_map,
    filter_eq_of_parts rfl hspec.1 hspec.2]

/-! ## Blank lines -/

theorem trimmed_eq_empty_iff {p : Char → Bool} {chars : List Char} :
    String.ofList ((chars.dropWhile p).reverse.dropWhile p).reverse = "" ↔
      ∀ char ∈ chars, p char = true := by
  rw [← String.ofList_nil, String.ofList_inj, reverse_eq_nil_iff, dropWhile_eq_nil_iff]
  constructor
  · intro hrest char hchar
    rw [← takeWhile_append_dropWhile (p := p) (l := chars), mem_append] at hchar
    rcases hchar with hchar | hchar
    · exact mem_takeWhile_imp hchar
    · exact hrest char (mem_reverse.mpr hchar)
  · intro hall char hchar
    exact hall char ((dropWhile_sublist _).subset (mem_reverse.mp hchar))

variable {body line : String}

theorem strip_eq_empty_of_trim (hline : trim line = "") : ArmGuard.strip line = "" := by
  refine trimmed_eq_empty_iff.mpr fun char hchar => ?_
  rw [ArmGuard.isSpace, trimmed_eq_empty_iff.mp hline char hchar, Bool.true_or]

/-- A line that Python takes for blank is blank in Rust unless a unit separator is
in it: the other separators that only Python knows end a line. -/
theorem trim_eq_empty_iff (hline : line ∈ pythonLines body) (hblank : ArmGuard.strip line = "") :
    trim line = "" ↔ '\x1f' ∉ line.toList := by
  obtain ⟨chars, hchars, rfl⟩ := mem_map.mp hline
  rw [String.toList_ofList]
  refine ⟨fun htrim hmem => ?_, fun hnone => trimmed_eq_empty_iff.mpr fun char hchar => ?_⟩
  · have hspace := trimmed_eq_empty_iff.mp htrim '\x1f'
    rw [String.toList_ofList] at hspace
    exact absurd (hspace hmem) (by decide)
  · rw [String.toList_ofList] at hchar
    have hbreak := (mem_of_mem_splitOnP hchars char hchar).2
    have hspace := trimmed_eq_empty_iff.mp hblank char (by rwa [String.toList_ofList])
    simp only [ArmGuard.isSpace, Bool.or_eq_true, Bool.and_eq_true, decide_eq_true_eq] at hspace
    refine hspace.resolve_right fun hseparator => ?_
    have hcode : char.toNat = 28 ∨ char.toNat = 29 ∨ char.toNat = 30 ∨ char.toNat = 31 := by omega
    rw [← Char.ofNat_toNat char] at hbreak hchar
    rcases hcode with hcode | hcode | hcode | hcode
    · simp [hcode, isLineBreak] at hbreak
    · simp [hcode, isLineBreak] at hbreak
    · simp [hcode, isLineBreak] at hbreak
    · rw [hcode] at hchar
      exact hnone hchar

theorem markerPattern_requires : markerPattern.Requires (· = ':') := by
  refine requires_concat
    (mem_cons_of_mem _ (mem_cons_of_mem _ mem_cons_self)) ⟨?_, ?_⟩
  · exact requires_concat mem_cons_self (requires_text (by decide))
  · exact requires_concat mem_cons_self (requires_text (by decide))

theorem lineVerdict_of_blank (hblank : ArmGuard.strip line = "") :
    ArmGuard.lineVerdict line = none := by
  unfold ArmGuard.lineVerdict
  split
  · rfl
  next captures hcaptures =>
    obtain ⟨⟨last, groups⟩, hmatch, -⟩ := Option.map_eq_some_iff.mp hcaptures
    obtain ⟨char, hchar, rfl⟩ := (way_of_matchAt hmatch).requires markerPattern_requires
    exact absurd (trimmed_eq_empty_iff.mp hblank ':' hchar) (by decide)

/-! ## The same verdict -/

/-- A line with a verdict has only blank lines after it, and one of them has a unit
separator. -/
def HiddenVerdict (body : String) : Prop :=
  ∃ after line before, (pythonLines body).reverse = after ++ line :: before ∧
    ArmGuard.lineVerdict line ≠ none ∧ (∀ other ∈ after, ArmGuard.strip other = "") ∧
    ∃ other ∈ after, '\x1f' ∈ other.toList

/-- The gate and the guard read the same verdict and head in exactly the bodies
that hide no verdict behind a unit separator. -/
theorem marker_verdicts_agree_iff (body : String) :
    markerVerdict body = ArmGuard.splitlinesVerdict body ↔ ¬ HiddenVerdict body := by
  rw [markerVerdict_eq_bind, splitlinesVerdict_eq, ← find?_reverse_eq_getLast?_filter, lastLine]
  constructor
  · rintro hsame ⟨after, line, before, hlines, hverdict, hblank, other, hother, hseparator⟩
    have hline : ArmGuard.strip line ≠ "" := fun hempty => hverdict (lineVerdict_of_blank hempty)
    have hmem : other ∈ pythonLines body := by
      rw [← mem_reverse, hlines]
      exact mem_append_left _ hother
    have htrim : trim other ≠ "" := fun hempty =>
      (trim_eq_empty_iff hmem (hblank other hother)).mp hempty hseparator
    obtain ⟨late, hlate⟩ : ∃ late, after.find? (fun line => trim line ≠ "") = some late :=
      Option.isSome_iff_exists.mp (find?_isSome.mpr ⟨other, hother, by simpa⟩)
    have hguard : after.find? (fun line => ArmGuard.strip line ≠ "") = none :=
      find?_eq_none.mpr (by simpa)
    rw [hlines, find?_append, hlate, find?_append, hguard, Option.some_or, Option.none_or,
      find?_cons_of_pos (by simpa), Option.bind_some, Option.bind_some,
      lineVerdict_of_blank (hblank late (mem_of_find?_eq_some hlate))] at hsame
    exact hverdict hsame.symm
  · intro hopen
    cases hguard : (pythonLines body).reverse.find? fun line => ArmGuard.strip line ≠ "" with
    | none =>
      cases hgate : (pythonLines body).reverse.find? fun line => trim line ≠ "" with
      | none => rfl
      | some late =>
        have hblank := find?_eq_none.mp hguard late (mem_of_find?_eq_some hgate)
        exact lineVerdict_of_blank (by simpa using hblank)
    | some line =>
      obtain ⟨hline, after, before, hlines, hafter⟩ := find?_eq_some_iff_append.mp hguard
      have hblank : ∀ other ∈ after, ArmGuard.strip other = "" := by simpa using hafter
      rw [hlines, find?_append]
      cases hgate : after.find? fun line => trim line ≠ "" with
      | none =>
        have htrim : trim line ≠ "" := fun hempty =>
          of_decide_eq_true hline (strip_eq_empty_of_trim hempty)
        rw [Option.none_or, find?_cons_of_pos (by simpa)]
      | some late =>
        have hlate := mem_of_find?_eq_some hgate
        have hmem : late ∈ pythonLines body := by
          rw [← mem_reverse, hlines]
          exact mem_append_left _ hlate
        have hseparator : '\x1f' ∈ late.toList := by
          by_contra hnone
          have htrim : trim late ≠ "" := by simpa using find?_some hgate
          exact htrim ((trim_eq_empty_iff hmem (hblank late hlate)).mpr hnone)
        rw [Option.some_or, Option.bind_some, Option.bind_some,
          lineVerdict_of_blank (hblank late hlate)]
        by_contra hverdict
        exact hopen ⟨after, line, before, hlines, Ne.symm hverdict, hblank, late, hlate,
          hseparator⟩

theorem approval_before_separator_is_hidden :
    ArmGuard.splitlinesVerdict ("verdict: APPROVE head: " ++ "".pushn 'a' 40 ++ "\n\x1f") =
        some (.approve, "".pushn 'a' 40) ∧
      markerVerdict ("verdict: APPROVE head: " ++ "".pushn 'a' 40 ++ "\n\x1f") = none := by
  constructor <;> decide +kernel

end Shipyard.HeadApproval
