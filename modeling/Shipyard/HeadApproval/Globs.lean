import Shipyard.HeadApproval.TextAgreement
import Shipyard.Lib.Wildcard

/-!
# What a glob matches

The rule of both implementations: `**` as a whole segment is any number of segments,
`*` any run of characters within a segment, and `?` one character. The Python guard
follows it. The Rust gate matches the bytes of a segment, so there a `?` is one byte:
the two agree on every ASCII path, and for every pattern without `?`, but a character of
several bytes is matched by several question marks and not by one.
-/

namespace Shipyard.HeadApproval

open Lib List
open PrQueue (IsAscii)

/-! ## The rule -/

/-- What a symbol of a segment's pattern stands for. -/
def symbolItem {α : Type} [DecidableEq α] (any one symbol : α) : WildItem α :=
  if symbol = any then .run
  else if symbol = one then .one fun _ => True
  else .one fun other => other = symbol

/-- What a segment of a pattern stands for. -/
def segmentItem (pattern : String) : WildItem String :=
  if pattern = "**" then .run
  else .one fun part => part.toList ∈ wildLanguage (pattern.toList.map (symbolItem '*' '?'))

/-- The path is one of those the pattern describes. -/
def GlobRule (pattern path : String) : Prop :=
  pathSegments path ∈ wildLanguage ((pathSegments pattern).map segmentItem)

variable (path : String) {α : Type} {segment : String → String → Bool} {text pattern : List Char}

theorem segmentMatch_iff [DecidableEq α] (any one : α) (pattern text : List α) :
    segmentMatch any one pattern text = true ↔
      text ∈ wildLanguage (pattern.map (symbolItem any one)) := by
  induction pattern generalizing text with
  | nil =>
    rw [map_nil, mem_wildLanguage_nil, segmentMatch, List.isEmpty_iff]
  | cons symbol rest ih =>
    rw [segmentMatch_cons, map_cons, symbolItem]
    by_cases hany : symbol = any
    · rw [if_pos hany, if_pos hany, any_eq_true, mem_wildLanguage_run]
      simp only [ih]
    · rw [if_neg hany, if_neg hany]
      by_cases hone : symbol = one
      · rw [if_pos hone, mem_wildLanguage_one]
        cases text with
        | nil => simp
        | cons head tail => simp [hone, ih]
      · rw [if_neg hone, mem_wildLanguage_one]
        cases text with
        | nil => simp
        | cons head tail =>
          simp only [hone, decide_false, Bool.false_or, Bool.and_eq_true, decide_eq_true_eq, ih]
          constructor
          · rintro ⟨rfl, hrest⟩
            exact ⟨symbol, tail, rfl, rfl, hrest⟩
          · rintro ⟨_, _, hword, rfl, hrest⟩
            cases hword
            exact ⟨rfl, hrest⟩

theorem segmentsMatch_iff (patterns parts : List String) :
    segmentsMatch segment patterns parts = true ↔
      parts ∈ wildLanguage (patterns.map fun pattern =>
        if pattern = "**" then .run else .one fun part => segment pattern part = true) := by
  induction patterns generalizing parts with
  | nil =>
    rw [map_nil, mem_wildLanguage_nil, segmentsMatch, List.isEmpty_iff]
  | cons pattern rest ih =>
    rw [segmentsMatch_cons, map_cons]
    by_cases hany : pattern = "**"
    · rw [if_pos hany, if_pos hany, any_eq_true, mem_wildLanguage_run]
      simp only [ih]
    · rw [if_neg hany, if_neg hany, mem_wildLanguage_one]
      cases parts with
      | nil => simp
      | cons part others => simp [ih]

/-- The Python guard follows the rule. -/
theorem armGuard_globMatch_iff (pattern path : String) :
    ArmGuard.globMatch pattern path = true ↔ GlobRule pattern path := by
  rw [ArmGuard.globMatch, segmentsMatch_iff, GlobRule]
  simp only [segmentMatch_iff]
  rfl

/-! ## Bytes and characters -/

/-- The bytes of a character after the first one are no first bytes. -/
theorem utf8EncodeChar_cons (char : Char) :
    ∃ first more, String.utf8EncodeChar char = first :: more ∧ first.IsUTF8FirstByte ∧
      ∀ byte ∈ more, ¬ byte.IsUTF8FirstByte := by
  cases hencode : String.utf8EncodeChar char with
  | nil => exact absurd hencode String.utf8EncodeChar_ne_nil
  | cons first more =>
    have hbyte : ∀ (index : Nat) (hindex : index < (String.utf8EncodeChar char).length),
        (String.utf8EncodeChar char)[index].IsUTF8FirstByte ↔ index = 0 :=
      fun index hindex => UInt8.isUTF8FirstByte_getElem_utf8EncodeChar
    simp only [hencode] at hbyte
    refine ⟨first, more, rfl, (hbyte 0 (by simp)).mpr rfl, fun byte hmem hfirst => ?_⟩
    obtain ⟨index, hindex, rfl⟩ := getElem_of_mem hmem
    have hzero := (hbyte (index + 1) (by simpa using hindex)).mp (by simpa using hfirst)
    omega

/-- The bytes of a character tell where it ends. -/
theorem utf8EncodeChar_append_inj {first second : Char} {rest others : List UInt8}
    (hsame : String.utf8EncodeChar first ++ rest = String.utf8EncodeChar second ++ others) :
    first = second ∧ rest = others := by
  have hfirst :=
    ByteArray.utf8DecodeChar?_utf8EncodeChar_append (b := rest.toByteArray) (c := first)
  have hsecond :=
    ByteArray.utf8DecodeChar?_utf8EncodeChar_append (b := others.toByteArray) (c := second)
  rw [← toByteArray_append, hsame, toByteArray_append, hsecond] at hfirst
  obtain rfl := Option.some.inj hfirst
  exact ⟨rfl, append_cancel_left hsame⟩

/-- The end of a text's bytes that starts with a first byte is the bytes of an end of it. -/
theorem suffix_of_isUTF8FirstByte {first : UInt8} {more : List UInt8}
    (hsuffix : first :: more <:+ text.flatMap String.utf8EncodeChar)
    (hfirst : first.IsUTF8FirstByte) :
    ∃ tail, tail <:+ text ∧ first :: more = tail.flatMap String.utf8EncodeChar := by
  induction text with
  | nil => simp at hsuffix
  | cons char rest ih =>
    obtain ⟨before, hbytes⟩ := hsuffix
    obtain ⟨lead, follow, hencode, -, hfollow⟩ := utf8EncodeChar_cons char
    rw [flatMap_cons] at hbytes
    rcases append_eq_append_iff.mp hbytes with ⟨middle, hchar, hrest⟩ | ⟨middle, -, hrest⟩
    · cases before with
      | nil =>
        rw [nil_append] at hchar
        exact ⟨char :: rest, suffix_refl _, by rw [flatMap_cons, hchar, hrest]⟩
      | cons skipped before =>
        rw [hencode, cons_append, List.cons.injEq] at hchar
        cases middle with
        | nil => exact ⟨rest, suffix_cons char rest, hrest⟩
        | cons byte middle =>
          rw [cons_append, List.cons.injEq] at hrest
          exact absurd (hrest.1 ▸ hfirst) (hfollow byte (by simp [hchar.2]))
    · obtain ⟨tail, htail, heq⟩ := ih ⟨middle, hrest.symm⟩
      exact ⟨tail, htail.trans (suffix_cons char rest), heq⟩

/-- The bytes of a character other than the wildcards are none of theirs. -/
theorem utf8EncodeChar_plain {char : Char} (hany : char ≠ '*') (hone : char ≠ '?') :
    ∀ byte ∈ String.utf8EncodeChar char, byte ≠ 42 ∧ byte ≠ 63 := by
  by_cases hascii : char.val < 128
  · rw [utf8EncodeChar_of_ascii hascii]
    intro other hother
    rw [mem_singleton.mp hother]
    constructor
    · exact fun h => hany ((byte_eq_iff hascii (show '*'.val < 128 by decide)).mp h)
    · exact fun h => hone ((byte_eq_iff hascii (show '?'.val < 128 by decide)).mp h)
  · obtain ⟨first, more, hencode, hfirst⟩ := utf8EncodeChar_of_not_ascii hascii
    obtain ⟨lead, follow, hlead, -, hfollow⟩ := utf8EncodeChar_cons char
    rw [hencode, List.cons.injEq] at hlead
    obtain ⟨rfl, rfl⟩ := hlead
    rw [hencode]
    intro other hother
    rcases mem_cons.mp hother with rfl | hmore
    · constructor
      · rintro rfl
        exact absurd hfirst (by decide)
      · rintro rfl
        exact absurd hfirst (by decide)
    · constructor
      · rintro rfl
        exact hfollow 42 hmore (by decide)
      · rintro rfl
        exact hfollow 63 hmore (by decide)

theorem segmentMatch_plain [DecidableEq α] {any one : α} {literal : List α}
    (hplain : ∀ symbol ∈ literal, symbol ≠ any ∧ symbol ≠ one) (pattern text : List α) :
    segmentMatch any one (literal ++ pattern) text = true ↔
      ∃ tail, text = literal ++ tail ∧ segmentMatch any one pattern tail = true := by
  induction literal generalizing text with
  | nil => simp
  | cons symbol rest ih =>
    obtain ⟨hany, hone⟩ := hplain symbol mem_cons_self
    rw [cons_append, segmentMatch_cons, if_neg hany]
    have hrest := ih fun other hother => hplain other (mem_cons_of_mem _ hother)
    cases text with
    | nil => simp
    | cons head tail =>
      simp only [hone, decide_false, Bool.false_or, Bool.and_eq_true, decide_eq_true_eq, hrest,
        cons_append, List.cons.injEq]
      constructor
      · rintro ⟨rfl, others, hothers, hmatch⟩
        exact ⟨others, ⟨rfl, hothers⟩, hmatch⟩
      · rintro ⟨others, ⟨rfl, hothers⟩, hmatch⟩
        exact ⟨rfl, others, hothers, hmatch⟩

theorem utf8EncodeChar_star : String.utf8EncodeChar '*' = [42] := by decide +kernel

/-- A pattern without `?` that matches an end of a text's bytes matches an end of the text. -/
theorem segmentMatch_suffix (hplain : '?' ∉ pattern)
    (hsame : ∀ tail, segmentMatch 42 63 (pattern.flatMap String.utf8EncodeChar)
        (tail.flatMap String.utf8EncodeChar) = segmentMatch '*' '?' pattern tail)
    {bytes : List UInt8} (hbytes : bytes <:+ text.flatMap String.utf8EncodeChar)
    (hmatch : segmentMatch 42 63 (pattern.flatMap String.utf8EncodeChar) bytes = true) :
    ∃ tail, tail <:+ text ∧ segmentMatch '*' '?' pattern tail = true := by
  cases pattern with
  | nil => exact ⟨[], nil_suffix, rfl⟩
  | cons symbol rest =>
    by_cases hany : symbol = '*'
    · -- the run takes up what the text has before the end
      subst hany
      refine ⟨text, suffix_refl _, ?_⟩
      rw [← hsame, flatMap_cons, utf8EncodeChar_star, singleton_append,
        segmentMatch_cons, if_pos rfl, any_eq_true]
      rw [flatMap_cons, utf8EncodeChar_star, singleton_append, segmentMatch_cons,
        if_pos rfl, any_eq_true] at hmatch
      obtain ⟨tail, htail, hmatch⟩ := hmatch
      exact ⟨tail, (mem_tails _ _).mpr (((mem_tails _ _).mp htail).trans hbytes),
        hmatch⟩
    · -- a literal starts with a first byte
      have hone : symbol ≠ '?' := fun h => hplain (h ▸ mem_cons_self)
      obtain ⟨first, more, hencode, hfirst, -⟩ := utf8EncodeChar_cons symbol
      have hstart := hmatch
      rw [flatMap_cons, segmentMatch_plain (utf8EncodeChar_plain hany hone)] at hstart
      obtain ⟨others, rfl, -⟩ := hstart
      rw [hencode, cons_append] at hbytes
      obtain ⟨tail, htail, heq⟩ := suffix_of_isUTF8FirstByte hbytes hfirst
      refine ⟨tail, htail, ?_⟩
      rw [← hsame, ← heq, ← cons_append, ← hencode]
      exact hmatch

/-- Without `?`, matching bytes is matching characters. -/
theorem segmentMatch_utf8 (hplain : '?' ∉ pattern) (text : List Char) :
    segmentMatch 42 63 (pattern.flatMap String.utf8EncodeChar)
        (text.flatMap String.utf8EncodeChar) = segmentMatch '*' '?' pattern text := by
  induction pattern generalizing text with
  | nil =>
    cases text with
    | nil => rfl
    | cons char rest =>
      rw [Bool.eq_iff_iff, flatMap_nil, segmentMatch, segmentMatch, List.isEmpty_iff,
        flatMap_cons, append_eq_nil_iff]
      simp
  | cons symbol rest ih =>
    have hrest : '?' ∉ rest := fun h => hplain (mem_cons_of_mem _ h)
    by_cases hany : symbol = '*'
    · subst hany
      rw [flatMap_cons, utf8EncodeChar_star, singleton_append, segmentMatch_cons,
        segmentMatch_cons, if_pos rfl, if_pos rfl, Bool.eq_iff_iff, any_eq_true,
        any_eq_true]
      constructor
      · rintro ⟨bytes, hbytes, hmatch⟩
        obtain ⟨tail, htail, hmatch⟩ :=
          segmentMatch_suffix hrest (ih hrest) ((mem_tails _ _).mp hbytes) hmatch
        exact ⟨tail, (mem_tails _ _).mpr htail, hmatch⟩
      · rintro ⟨tail, htail, hmatch⟩
        obtain ⟨before, rfl⟩ := (mem_tails _ _).mp htail
        refine ⟨tail.flatMap String.utf8EncodeChar, (mem_tails _ _).mpr ?_, ?_⟩
        · rw [flatMap_append]
          exact suffix_append _ _
        · rw [ih hrest]
          exact hmatch
    · have hone : symbol ≠ '?' := fun h => hplain (h ▸ mem_cons_self)
      rw [Bool.eq_iff_iff, flatMap_cons,
        segmentMatch_plain (utf8EncodeChar_plain hany hone)]
      have hliteral : ∀ char ∈ [symbol], char ≠ '*' ∧ char ≠ '?' := by simp [hany, hone]
      rw [← singleton_append, segmentMatch_plain hliteral]
      constructor
      · rintro ⟨others, hbytes, hmatch⟩
        cases text with
        | nil =>
          have hnil := (append_eq_nil_iff.mp hbytes.symm).1
          exact absurd hnil String.utf8EncodeChar_ne_nil
        | cons char tail =>
          obtain ⟨rfl, rfl⟩ := utf8EncodeChar_append_inj hbytes
          exact ⟨tail, rfl, (ih hrest tail).symm.trans hmatch⟩
      · rintro ⟨tail, rfl, hmatch⟩
        refine ⟨tail.flatMap String.utf8EncodeChar, ?_, (ih hrest tail).trans hmatch⟩
        rw [singleton_append, flatMap_cons]

/-! ## Where the two agree -/

theorem globMatch_eq_of_no_one {pattern : String} (hplain : '?' ∉ pattern.toList) (path : String) :
    globMatch pattern path = ArmGuard.globMatch pattern path := by
  rw [Bool.eq_iff_iff, globMatch, ArmGuard.globMatch, segmentsMatch_iff, segmentsMatch_iff]
  have hsame : (pathSegments pattern).map (fun pattern => if pattern = "**" then WildItem.run
        else .one fun part => segmentMatch 42 63 (utf8 pattern) (utf8 part) = true) =
      (pathSegments pattern).map fun pattern => if pattern = "**" then WildItem.run
        else .one fun part => segmentMatch '*' '?' pattern.toList part.toList = true := by
    refine map_congr_left fun segment hsegment => ?_
    obtain ⟨chars, hchars, rfl⟩ := mem_map.mp hsegment
    have hchars : '?' ∉ (String.ofList chars).toList := by
      rw [String.toList_ofList]
      exact fun h => hplain (mem_of_mem_splitOnP hchars '?' h).1
    simp only [utf8, segmentMatch_utf8 hchars]
  rw [hsame]

/-- The pattern with one `?` for every character of the path. -/
def questionMarks (path : String) : String :=
  String.ofList (List.intercalate ['/']
    ((path.toList.splitOn '/').map fun part => List.replicate part.length '?'))

def segmentMarks (part : String) : String := String.ofList (List.replicate part.toList.length '?')

theorem pathSegments_questionMarks :
    pathSegments (questionMarks path) = (pathSegments path).map segmentMarks := by
  have hnone : ∀ marks ∈ (path.toList.splitOn '/').map fun part => List.replicate part.length '?',
      '/' ∉ marks := by
    intro marks hmarks hslash
    obtain ⟨part, -, rfl⟩ := mem_map.mp hmarks
    exact absurd (eq_of_mem_replicate hslash) (by decide)
  rw [pathSegments, questionMarks, String.toList_ofList, splitOn_intercalate '/' hnone
    (by simp [splitOn_ne_nil]), pathSegments, map_map, map_map]
  refine map_congr_left fun part _ => ?_
  simp [segmentMarks]

theorem segmentsMatch_marks (parts : List String) :
    segmentsMatch segment (parts.map segmentMarks) parts = true ↔
      ∀ part ∈ parts, segment (segmentMarks part) part = true := by
  induction parts with
  | nil => simp [segmentsMatch]
  | cons part rest ih =>
    have hmarks : segmentMarks part ≠ "**" := by
      intro hstars
      have hstar : '*' ∈ (segmentMarks part).toList := by rw [hstars]; decide
      rw [segmentMarks, String.toList_ofList] at hstar
      exact absurd (eq_of_mem_replicate hstar) (by decide)
    rw [map_cons, segmentsMatch_cons, if_neg hmarks]
    simp [ih]

theorem segmentMatch_replicate [DecidableEq α] {any one : α} (hne : one ≠ any) (n : Nat)
    (text : List α) :
    segmentMatch any one (List.replicate n one) text = true ↔ text.length = n := by
  induction n generalizing text with
  | zero => simp [segmentMatch]
  | succ n ih =>
    rw [replicate_succ, segmentMatch_cons, if_neg hne]
    cases text with
    | nil => simp
    | cons head tail => simp [ih]

/-- A text with as many bytes as characters is ASCII. -/
theorem ascii_of_length_flatMap
    (hlength : (text.flatMap String.utf8EncodeChar).length = text.length) :
    ∀ char ∈ text, char.val < 128 := by
  have hbytes : ∀ text : List Char,
      text.length ≤ (text.flatMap String.utf8EncodeChar).length := by
    intro text
    induction text with
    | nil => simp
    | cons char rest ih =>
      have hpos := char.utf8Size_pos
      rw [flatMap_cons, length_append, String.length_utf8EncodeChar, length_cons]
      omega
  induction text with
  | nil => simp
  | cons char rest ih =>
    have hrest := hbytes rest
    have hpos := char.utf8Size_pos
    rw [flatMap_cons, length_append, String.length_utf8EncodeChar,
      length_cons] at hlength
    have hone : char.utf8Size = 1 := by omega
    rintro other (_ | ⟨_, hother⟩)
    · exact UInt32.lt_iff_toNat_lt.mpr (Nat.lt_succ_of_le
        (UInt32.le_iff_toNat_le.mp (Char.utf8Size_eq_one_iff.mp hone)))
    · exact ih (by omega) other hother

theorem mem_splitOnP_of_mem {p : α → Bool} {items : List α} {item : α} (hitem : item ∈ items)
    (hplain : p item = false) : ∃ part ∈ items.splitOnP p, item ∈ part := by
  induction items with
  | nil => cases hitem
  | cons first rest ih =>
    rw [splitOnP_cons_eq_if_modifyHead]
    split
    next hbreak =>
      rcases mem_cons.mp hitem with rfl | hrest
      · exact absurd (hbreak.symm.trans hplain) nofun
      · obtain ⟨part, hpart, hmem⟩ := ih hrest
        exact ⟨part, mem_cons_of_mem _ hpart, hmem⟩
    · cases hsplit : rest.splitOnP p with
      | nil => exact absurd hsplit (splitOnP_ne_nil p rest)
      | cons head others =>
        rcases mem_cons.mp hitem with rfl | hrest
        · exact ⟨item :: head, mem_cons_self, mem_cons_self⟩
        · obtain ⟨part, hpart, hmem⟩ := ih hrest
          rw [hsplit] at hpart
          rcases mem_cons.mp hpart with rfl | hothers
          · exact ⟨first :: part, mem_cons_self, mem_cons_of_mem _ hmem⟩
          · exact ⟨part, mem_cons_of_mem _ hothers, hmem⟩

/-- The Rust gate takes one question mark for each character only of an ASCII path. -/
theorem ascii_of_globMatch_questionMarks {path : String}
    (hmatch : globMatch (questionMarks path) path = true) : IsAscii path := by
  rw [globMatch, pathSegments_questionMarks, segmentsMatch_marks] at hmatch
  intro char hchar
  by_cases hslash : char = '/'
  · subst hslash
    decide
  obtain ⟨part, hpart, hmem⟩ :=
    mem_splitOnP_of_mem (p := (· == '/')) hchar (by simpa using hslash)
  have hsegment := hmatch (String.ofList part) (mem_map_of_mem hpart)
  rw [utf8, utf8, segmentMarks, String.toList_ofList, String.toList_ofList,
    flatMap_replicate, show String.utf8EncodeChar '?' = [63] by decide +kernel,
    flatten_replicate_singleton, segmentMatch_replicate (by decide)] at hsegment
  exact ascii_of_length_flatMap hsegment char hmem

theorem armGuard_globMatch_questionMarks : ArmGuard.globMatch (questionMarks path) path = true := by
  rw [ArmGuard.globMatch, pathSegments_questionMarks, segmentsMatch_marks]
  intro part _
  rw [segmentMarks, String.toList_ofList, segmentMatch_replicate (by decide)]

end Shipyard.HeadApproval
