import Shipyard.HeadApproval.ReviewVerdict

/-!
# Texts the two gates read alike

On printable text with newlines Rust's and Python's spaces are the same, and what
the patterns capture is ASCII whatever the text. So both gates see the same last
line, verdict, stamps and signers, and match the same session globs.
-/

namespace Shipyard.HeadApproval

open Lib List Regex
open MergeSteward (trim)
open PrQueue (PythonText IsAscii toAsciiLowercase toAsciiUppercase eqIgnoreAsciiCase)

/-! ## Spaces and lines -/

/-- A printable ASCII character or a newline. -/
def isPlain (char : Char) : Bool := char = '\n' || (' ' ≤ char && char ≤ '~')

def PlainText (text : String) : Prop := ∀ char ∈ text.toList, isPlain char = true

variable {char : Char}

theorem isSpace_of_plain (hplain : isPlain char = true) :
    ArmGuard.isSpace char = isWhitespace char := by
  unfold ArmGuard.isSpace
  have hnot : (0x1C ≤ char.toNat && char.toNat ≤ 0x1F) = false := by
    simp only [isPlain, Bool.or_eq_true, Bool.and_eq_true, decide_eq_true_eq] at hplain
    rcases hplain with rfl | ⟨hspace, -⟩
    · rfl
    · have hspace : 32 ≤ char.toNat := hspace
      simp only [Bool.and_eq_false_iff, decide_eq_false_iff_not]
      omega
  rw [hnot, Bool.or_false]

variable {α : Type} {line body : String}

theorem dropWhile_congr {p q : α → Bool} {items : List α}
    (hsame : ∀ item ∈ items, p item = q item) : items.dropWhile p = items.dropWhile q := by
  induction items with
  | nil => rfl
  | cons item rest ih =>
    rw [dropWhile_cons, dropWhile_cons, hsame item mem_cons_self,
      ih fun other hother => hsame other (mem_cons_of_mem _ hother)]

theorem strip_eq_trim (hplain : PlainText line) : ArmGuard.strip line = trim line := by
  have hsame : ∀ char ∈ line.toList, ArmGuard.isSpace char = isWhitespace char :=
    fun char hchar => isSpace_of_plain (hplain char hchar)
  unfold ArmGuard.strip trim
  rw [dropWhile_congr hsame, dropWhile_congr]
  intro char hchar
  exact hsame char ((dropWhile_sublist _).subset (mem_reverse.mp hchar))

theorem mem_of_mem_splitOnP {p : α → Bool} {items part : List α} (hpart : part ∈ items.splitOnP p) :
    ∀ item ∈ part, item ∈ items ∧ p item = false := by
  induction items generalizing part with
  | nil =>
    rw [splitOnP_nil, mem_singleton] at hpart
    simp [hpart]
  | cons head rest ih =>
    have hlater {part : List α} (hpart : part ∈ rest.splitOnP p) :
        ∀ item ∈ part, item ∈ head :: rest ∧ p item = false :=
      fun item hitem => (ih hpart item hitem).imp_left (mem_cons_of_mem _)
    rw [splitOnP_cons_eq_if_modifyHead] at hpart
    split at hpart
    · rcases mem_cons.mp hpart with rfl | hpart
      · simp
      · exact hlater hpart
    next hhead =>
      cases hsplit : rest.splitOnP p with
      | nil => exact absurd hsplit (splitOnP_ne_nil p rest)
      | cons first others =>
        rw [hsplit, modifyHead_cons] at hpart
        rw [hsplit] at hlater
        rcases mem_cons.mp hpart with rfl | hpart
        · intro item hitem
          rcases mem_cons.mp hitem with rfl | hitem
          · exact ⟨mem_cons_self, Bool.eq_false_iff.mpr hhead⟩
          · exact hlater mem_cons_self item hitem
        · exact hlater (mem_cons_of_mem _ hpart)

theorem plainText_of_pythonLines (hplain : PlainText body) (hline : line ∈ pythonLines body) :
    PlainText line := by
  obtain ⟨chars, hchars, rfl⟩ := mem_map.mp hline
  intro char hchar
  rw [String.toList_ofList] at hchar
  exact hplain char (mem_of_mem_splitOnP hchars char hchar).1

theorem find?_reverse_eq_getLast?_filter (p : α → Bool) (items : List α) :
    items.reverse.find? p = (items.filter p).getLast? := by
  rw [getLast?_eq_head?_reverse, ← filter_reverse, head?_filter]

theorem lastLine_eq (hplain : PlainText body) :
    ((pythonLines body).filter fun line => ArmGuard.strip line ≠ "").getLast? =
      lastLine body := by
  rw [lastLine, find?_reverse_eq_getLast?_filter]
  congr 1
  apply filter_congr
  intro line hline
  rw [strip_eq_trim (plainText_of_pythonLines hplain hline)]

/-! ## Captured texts -/

variable {text : String}

theorem isAscii_of_printable (hchars : ∀ char ∈ text.toList, isPrintable char = true) :
    IsAscii text := by
  intro char hchar
  have hprintable := hchars char hchar
  simp only [isPrintable, Bool.and_eq_true, decide_eq_true_eq] at hprintable
  have hlast : char.val.toNat ≤ 126 := hprintable.2
  rw [UInt32.lt_iff_toNat_lt]
  exact Nat.lt_of_le_of_lt hlast (by decide)

/-- The characters a group of the marker takes: an upper-case word, and otherwise
lower-case digits. -/
def InMarkerGroup (index : Nat) (char : Char) : Prop :=
  if index = 2 then char.toUpper = char else char.toLower = char

theorem toLower_of_isLowerHex (hchar : isLowerHex char = true) : char.toLower = char := by
  apply Char.toLower_eq_of_not_isUpper
  simp only [isLowerHex, Char.isDigit, Bool.or_eq_true, Bool.and_eq_true, decide_eq_true_eq]
    at hchar
  simp only [Char.isUpper, decide_eq_true_eq, ge_iff_le, UInt32.le_iff_toNat_le] at hchar ⊢
  intro hupper
  rcases hchar with ⟨-, hdigit⟩ | ⟨hletter, -⟩
  · exact absurd (hupper.1.trans hdigit) (by decide)
  · have hletter : 97 ≤ char.val.toNat := hletter
    exact absurd (hletter.trans hupper.2) (by decide)

theorem shaGroup_groups {index : Nat} (hindex : index ≠ 2) :
    (Regex.group index (.times 40 (.one isLowerHex))).Groups InMarkerGroup := by
  have hone : (Regex.one isLowerHex).Only (InMarkerGroup index) := by
    intro char hchar
    rw [InMarkerGroup, if_neg hindex]
    exact toLower_of_isLowerHex hchar
  have hgroups : (Regex.one isLowerHex).Groups InMarkerGroup := trivial
  exact ⟨only_times hone 40, by decide, groups_times hgroups 40⟩

theorem wordGroup_groups :
    (Regex.group 2 (.alt (.text "APPROVE") (.text "HOLD"))).Groups InMarkerGroup := by
  have hupper {word : String} (hword : (word.toList.all fun char => char.toUpper = char) = true) :
      (Regex.text word).Only (InMarkerGroup 2) :=
    only_text fun char hchar => by
      simpa [InMarkerGroup] using all_eq_true.mp hword char hchar
  exact ⟨⟨hupper (by decide +kernel), hupper (by decide +kernel)⟩, by decide +kernel,
    groups_text _, groups_text _⟩

theorem markerPattern_groups : markerPattern.Groups InMarkerGroup := by
  refine groups_concat ?_
  simp only [forall_mem_cons]
  refine ⟨trivial, trivial, ⟨groups_concat ?_, groups_concat ?_⟩, trivial, trivial,
    by simp⟩
  · simp only [forall_mem_cons]
    exact ⟨groups_text _, trivial, shaGroup_groups (by decide), by simp⟩
  · simp only [forall_mem_cons]
    exact ⟨groups_text _, trivial, wordGroup_groups, ⟨trivial, trivial⟩,
      groups_text _, trivial, shaGroup_groups (by decide), by simp⟩

theorem stampPattern_groups : stampPattern.Groups fun _ char => isPrintable char = true := by
  refine groups_concat ?_
  simp only [forall_mem_cons]
  have hhost : ∀ char, isHostChar char = true → isPrintable char = true := by
    intro char hchar
    simp only [isHostChar, Bool.and_eq_true] at hchar
    exact hchar.1
  refine ⟨groups_text _, ⟨⟨hhost, hhost⟩, by decide, trivial, trivial⟩, groups_text _,
    ⟨⟨fun _ h => h, fun _ h => h⟩, by decide, trivial, trivial⟩, ⟨groups_concat ?_, trivial⟩,
    groups_text _, by simp⟩
  simp only [forall_mem_cons]
  exact ⟨groups_text _, ⟨⟨fun _ h => h, fun _ h => h⟩, by decide, trivial, trivial⟩, by simp⟩

theorem isPrintable_of_isNameChar (hchar : isNameChar char = true) : isPrintable char = true := by
  have hbounds : 33 ≤ char.val.toNat ∧ char.val.toNat ≤ 126 := by
    simp only [isNameChar, Char.isAlphanum, Char.isAlpha, Char.isUpper, Char.isLower, Char.isDigit,
      Bool.or_eq_true, Bool.and_eq_true, decide_eq_true_eq, ge_iff_le, UInt32.le_iff_toNat_le]
      at hchar
    rcases hchar with (((((⟨hlow, hhigh⟩ | ⟨hlow, hhigh⟩) | ⟨hlow, hhigh⟩) | rfl) | rfl) | rfl)
    · exact ⟨le_trans (by decide) hlow, hhigh.trans (by decide)⟩
    · exact ⟨le_trans (by decide) hlow, hhigh.trans (by decide)⟩
    · exact ⟨le_trans (by decide) hlow, hhigh.trans (by decide)⟩
    all_goals decide
  simp only [isPrintable, Bool.and_eq_true, decide_eq_true_eq]
  exact hbounds

theorem signerPattern_groups : signerPattern.Groups fun _ char => isPrintable char = true := by
  refine groups_concat ?_
  simp only [forall_mem_cons]
  exact ⟨trivial, trivial, groups_text _, trivial,
    ⟨⟨fun _ => isPrintable_of_isNameChar, fun _ => isPrintable_of_isNameChar⟩, by decide, trivial,
      trivial⟩, trivial, trivial, by simp⟩

/-! ## The same texts -/

/-- A text that is captured is never empty, as Python asks of it. -/
theorem filter_nonempty {text : Option String} (htext : ∀ found, text = some found → found ≠ "") :
    text.filter (· ≠ "") = text := by
  cases text with
  | none => rfl
  | some found => simp [Option.filter_some, htext found rfl]

theorem toAsciiLowercase_of_lower (hlower : ∀ char ∈ text.toList, char.toLower = char) :
    toAsciiLowercase text = text := by
  rw [toAsciiLowercase, map_congr_left hlower, map_id', String.ofList_toList]

theorem toAsciiUppercase_of_upper (hupper : ∀ char ∈ text.toList, char.toUpper = char) :
    toAsciiUppercase text = text := by
  rw [toAsciiUppercase, map_congr_left hupper, map_id', String.ofList_toList]

/-- What the guard reads on one line. -/
def ArmGuard.lineVerdict (line : String) : Option (Verdict × String) :=
  match markerCaptures line with
  | none => none
  | some captures =>
    match (Regex.capture captures 1).filter (· ≠ "") with
    | some head => some (.approve, head)
    | none =>
      (Regex.capture captures 2).bind fun word =>
        (wordVerdict word).bind fun verdict =>
          (Regex.capture captures 3).map fun head => (verdict, head)

theorem armGuard_markerVerdict_eq_bind (body : String) :
    ArmGuard.markerVerdict body =
      ((pythonLines body).filter fun line => ArmGuard.strip line ≠ "").getLast?.bind
        ArmGuard.lineVerdict := by
  unfold ArmGuard.markerVerdict
  cases ((pythonLines body).filter fun line => ArmGuard.strip line ≠ "").getLast? with
  | none => rfl
  | some line => rfl

theorem markerVerdict_eq_bind (body : String) :
    markerVerdict body = (lastLine body).bind ArmGuard.lineVerdict := by
  unfold markerVerdict
  cases lastLine body with
  | none => rfl
  | some line =>
    rw [Option.bind_some, Option.bind_some, ArmGuard.lineVerdict]
    cases hline : markerCaptures line with
    | none => rfl
    | some captures =>
      obtain ⟨⟨last, groups⟩, hmatch, rfl⟩ := Option.map_eq_some_iff.mp hline
      have hcaptured := (way_of_matchAt hmatch).captured markerPattern_groups
      -- The heads are in lower case and the words in upper case already.
      have hlower {index : Nat} (hindex : index ≠ 2) {head : String}
          (hhead : Regex.capture groups index = some head) : toAsciiLowercase head = head := by
        refine toAsciiLowercase_of_lower fun char hchar => ?_
        simpa [InMarkerGroup, hindex] using (hcaptured.capture hhead).2 char hchar
      have hupper {word : String} (hword : Regex.capture groups 2 = some word) :
          toAsciiUppercase word = word := by
        refine toAsciiUppercase_of_upper fun char hchar => ?_
        simpa [InMarkerGroup] using (hcaptured.capture hword).2 char hchar
      dsimp only
      rw [filter_nonempty fun found hfound => (hcaptured.capture hfound).1]
      cases hfirst : Regex.capture groups 1 with
      | some head => simp only [hlower (by decide) hfirst]
      | none =>
        dsimp only
        refine Option.bind_congr fun word hword => ?_
        rw [hupper hword]
        refine Option.bind_congr fun verdict _ => ?_
        refine Option.map_congr fun head hhead => ?_
        rw [hlower (by decide) hhead]

theorem noncanonicalStamp_eq (hplain : PlainText body) :
    ArmGuard.noncanonicalStamp body = noncanonicalStamp body := by
  have hspaces : (fun char => isPlain char && ArmGuard.isSpace char) =
      fun char => isPlain char && isWhitespace char := by
    funext char
    cases hchar : isPlain char with
    | false => rfl
    | true => rw [isSpace_of_plain hchar]
  refine isMatch_congr ?_ fun char hchar => hplain char (mem_removeAll hchar)
  simp only [stampVariant, Regex.concat, Regex.restrict, hspaces]

section Python

variable {python : PythonText}

/-- What the last stamp captures is printable. -/
theorem printable_of_lastStamp {body text : String} {captures : Regex.Captures} {index : Nat}
    (hstamp : lastStamp body = some captures)
    (hcapture : Regex.capture captures index = some text) :
    text ≠ "" ∧ ∀ char ∈ text.toList, isPrintable char = true :=
  (capturesIter_captured stampPattern_groups
    (mem_of_getLast? hstamp)).capture hcapture

theorem stampedIdentity_eq (body : String) :
    ArmGuard.stampedIdentity python body = stampedIdentity body := by
  unfold ArmGuard.stampedIdentity stampedIdentity
  cases hstamp : lastStamp body with
  | none => rfl
  | some captures =>
    dsimp only [Option.bind_some]
    rw [filter_nonempty fun found hfound => (printable_of_lastStamp hstamp hfound).1]
    cases hhost : Regex.capture captures 1 with
    | none => rfl
    | some host =>
      cases hagent : Regex.capture captures 3 with
      | none => rfl
      | some agent =>
        have hascii : IsAscii (host ++ " agent:" ++ agent) := by
          have hhost := isAscii_of_printable (printable_of_lastStamp hstamp hhost).2
          have hagent := isAscii_of_printable (printable_of_lastStamp hstamp hagent).2
          intro char hchar
          simp only [String.toList_append, mem_append] at hchar
          rcases hchar with (hchar | hchar) | hchar
          · exact hhost char hchar
          · exact (by decide : IsAscii " agent:") char hchar
          · exact hagent char hchar
        simp only [python.lower_ascii _ hascii]

theorem signedNames_eq (body : String) :
    ArmGuard.signedNames python body = signedNames body := by
  unfold ArmGuard.signedNames signedNames
  rw [map_filterMap]
  apply filterMap_congr
  intro captures hmem
  cases hname : Regex.capture captures 1 with
  | none => rfl
  | some name =>
    have hprintable := (capturesIter_captured signerPattern_groups hmem).capture hname
    simp [python.lower_ascii name (isAscii_of_printable hprintable.2)]

end Python

/-! ## Globs over bytes and over characters -/

/-- The byte of an ASCII character. -/
def byte (char : Char) : UInt8 := UInt8.ofNat char.val.toNat

theorem utf8EncodeChar_of_ascii (hascii : char.val < 128) :
    String.utf8EncodeChar char = [byte char] := by
  have hbound : char.val.toNat ≤ 127 := Nat.le_of_lt_succ (UInt32.lt_iff_toNat_lt.mp hascii)
  rw [String.utf8EncodeChar, if_pos hbound]
  rfl

theorem utf8EncodeChar_of_not_ascii (hascii : ¬ char.val < 128) :
    ∃ first rest, String.utf8EncodeChar char = first :: rest ∧ 128 ≤ first.toNat := by
  have hbound : ¬ char.val.toNat ≤ 127 := by
    rw [UInt32.lt_iff_toNat_lt] at hascii
    have h128 : (128 : UInt32).toNat = 128 := rfl
    omega
  rw [String.utf8EncodeChar, if_neg hbound]
  split
  · refine ⟨_, _, rfl, ?_⟩
    rw [UInt8.toNat_ofNat']
    omega
  split
  · refine ⟨_, _, rfl, ?_⟩
    rw [UInt8.toNat_ofNat']
    omega
  · refine ⟨_, _, rfl, ?_⟩
    rw [UInt8.toNat_ofNat']
    omega

theorem byte_eq_iff {first second : Char} (hfirst : first.val < 128) (hsecond : second.val < 128) :
    byte first = byte second ↔ first = second := by
  refine ⟨fun hbyte => ?_, fun h => h ▸ rfl⟩
  have hnat := congrArg UInt8.toNat hbyte
  rw [UInt32.lt_iff_toNat_lt] at hfirst hsecond
  have h128 : (128 : UInt32).toNat = 128 := rfl
  simp only [byte, UInt8.toNat_ofNat'] at hnat
  exact Char.ext (UInt32.toNat_inj.mp (by omega))

theorem byte_toNat_lt (hascii : char.val < 128) : (byte char).toNat < 128 := by
  rw [UInt32.lt_iff_toNat_lt] at hascii
  have h128 : (128 : UInt32).toNat = 128 := rfl
  rw [byte, UInt8.toNat_ofNat']
  omega

theorem segmentMatch_cons [DecidableEq α] (any one symbol : α) (pattern text : List α) :
    segmentMatch any one (symbol :: pattern) text =
      if symbol = any then text.tails.any (segmentMatch any one pattern)
      else
        match text with
        | [] => false
        | head :: rest => (symbol = one || symbol = head) && segmentMatch any one pattern rest := by
  cases text <;> rfl

/-- On an ASCII text the two ways to match a segment agree, whatever the pattern. -/
theorem segmentMatch_eq (pattern : List Char) {text : List Char}
    (htext : ∀ char ∈ text, char.val < 128) :
    segmentMatch 42 63 (pattern.flatMap String.utf8EncodeChar) (text.map byte) =
      segmentMatch '*' '?' pattern text := by
  induction pattern generalizing text with
  | nil => cases text <;> rfl
  | cons symbol rest ih =>
    rw [flatMap_cons]
    by_cases hascii : symbol.val < 128
    · rw [utf8EncodeChar_of_ascii hascii, cons_append, nil_append]
      have hany : byte symbol = 42 ↔ symbol = '*' :=
        byte_eq_iff hascii (show '*'.val < 128 by decide)
      have hone : byte symbol = 63 ↔ symbol = '?' :=
        byte_eq_iff hascii (show '?'.val < 128 by decide)
      rw [segmentMatch_cons, segmentMatch_cons]
      simp only [hany]
      split
      · rw [map_tails, any_map, Bool.eq_iff_iff, any_eq_true, any_eq_true]
        refine exists_congr fun tail => and_congr_right fun htail => ?_
        rw [Function.comp_apply, ih fun char hchar =>
          htext char (((mem_tails _ _).mp htail).subset hchar)]
      · cases text with
        | nil => rfl
        | cons head others =>
          have hhead := byte_eq_iff hascii (htext head mem_cons_self)
          simp only [map_cons, hone, hhead,
            ih fun char hchar => htext char (mem_cons_of_mem _ hchar)]
    · obtain ⟨first, more, hencode, hfirst⟩ := utf8EncodeChar_of_not_ascii hascii
      rw [hencode, cons_append, segmentMatch_cons, segmentMatch_cons]
      have hbyte (other : Char) (hother : other.val < 128) : first ≠ byte other := by
        rintro rfl
        exact absurd hfirst (Nat.not_le.mpr (byte_toNat_lt hother))
      have hchar (other : Char) (hother : other.val < 128) : symbol ≠ other := by
        rintro rfl
        exact hascii hother
      have hany : first ≠ 42 := hbyte '*' (by decide)
      rw [if_neg hany, if_neg (hchar '*' (by decide))]
      cases text with
      | nil => rfl
      | cons head others =>
        have hhead := htext head mem_cons_self
        have hone : first ≠ 63 := hbyte '?' (by decide)
        simp [hone, hbyte head hhead, hchar '?' (by decide), hchar head hhead]

theorem utf8_of_ascii (hascii : IsAscii text) : utf8 text = text.toList.map byte := by
  rw [utf8, map_eq_flatMap]
  exact flatMap_congr fun char hchar => utf8EncodeChar_of_ascii (hascii char hchar)

theorem segmentsMatch_cons (segment : String → String → Bool) (pattern : String)
    (rest parts : List String) :
    segmentsMatch segment (pattern :: rest) parts =
      if pattern = "**" then parts.tails.any (segmentsMatch segment rest)
      else
        match parts with
        | [] => false
        | part :: others => segment pattern part && segmentsMatch segment rest others := by
  cases parts <;> rfl

theorem segmentsMatch_congr {first second : String → String → Bool} {patterns parts : List String}
    (hsame : ∀ part ∈ parts, ∀ pattern, first pattern part = second pattern part) :
    segmentsMatch first patterns parts = segmentsMatch second patterns parts := by
  induction patterns generalizing parts with
  | nil => rfl
  | cons pattern rest ih =>
    rw [segmentsMatch_cons, segmentsMatch_cons]
    split
    · rw [Bool.eq_iff_iff, any_eq_true, any_eq_true]
      refine exists_congr fun tail => and_congr_right fun htail => ?_
      rw [ih fun part hpart => hsame part (((mem_tails _ _).mp htail).subset hpart)]
    · cases parts with
      | nil => rfl
      | cons part others =>
        simp only [hsame part mem_cons_self,
          ih fun other hother => hsame other (mem_cons_of_mem _ hother)]

theorem globMatch_eq (pattern : String) {path : String} (hascii : IsAscii path) :
    ArmGuard.globMatch pattern path = globMatch pattern path := by
  refine (segmentsMatch_congr fun part hpart pattern => ?_).symm
  obtain ⟨chars, hchars, rfl⟩ := mem_map.mp hpart
  have hpart : IsAscii (String.ofList chars) := by
    intro char hchar
    rw [String.toList_ofList] at hchar
    exact hascii char (mem_of_mem_splitOnP hchars char hchar).1
  rw [utf8_of_ascii hpart]
  exact segmentMatch_eq _ hpart

end Shipyard.HeadApproval
