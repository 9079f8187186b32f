import Mathlib.Data.List.Basic

/-!
# Regular expressions with captures

Leftmost-first matching, as backtracking matchers and the `regex` crate agree on
it: an alternative prefers its left side, a greedy repetition prefers one more
round and a lazy one prefers to stop. The ways to match at a position are listed
in that order, so the first of the list is the match.
-/

namespace Lib

open List

/-- `start` and `stop` are the line anchors `^` and `$` of multi-line mode. -/
inductive Regex where
  | empty
  | one (accepts : Char → Bool)
  | seq (first second : Regex)
  | alt (left right : Regex)
  | star (greedy : Bool) (body : Regex)
  | group (index : Nat) (body : Regex)
  | start
  | stop
  | wordBoundary (isWord : Char → Bool)

namespace Regex

/-! ## Derived forms -/

/-- A text, each of its characters up to a relation. -/
def litBy (same : Char → Char → Bool) : List Char → Regex
  | [] => .empty
  | char :: rest => .seq (.one (same char)) (litBy same rest)

def text (literal : String) : Regex := litBy (· = ·) literal.toList

def plus (greedy : Bool) (body : Regex) : Regex := .seq body (.star greedy body)

def optional (body : Regex) : Regex := .alt body .empty

def times : Nat → Regex → Regex
  | 0, _ => .empty
  | count + 1, body => .seq body (times count body)

/-- The parts one after another. -/
def concat : List Regex → Regex
  | [] => .empty
  | part :: rest => .seq part (concat rest)

/-! ## Matching -/

/-- A position in a text: the character before it and the text after it. -/
structure Cursor where
  prev : Option Char
  rest : List Char

/-- What stands between two positions of one text. -/
def Cursor.upTo (first last : Cursor) : List Char :=
  first.rest.take (first.rest.length - last.rest.length)

/-- The captured groups, by index. -/
abbrev Captures := List (Nat × List Char)

/-- The rounds of a repetition. Each round consumes a character, so there are at
most as many as the text is long. -/
def rounds (step : Cursor → List (Cursor × Captures)) (greedy : Bool) :
    Nat → Cursor → List (Cursor × Captures)
  | 0, cursor => [(cursor, [])]
  | bound + 1, cursor =>
    let more := ((step cursor).filter fun next =>
        next.1.rest.length < cursor.rest.length).flatMap fun next =>
      (rounds step greedy bound next.1).map fun last => (last.1, next.2 ++ last.2)
    if greedy then more ++ [(cursor, [])] else (cursor, []) :: more

def Cursor.atWordBoundary (cursor : Cursor) (isWord : Char → Bool) : Bool :=
  cursor.prev.any isWord != cursor.rest.head?.any isWord

/-- The ways to match at a position, the preferred one first. -/
def results : Regex → Cursor → List (Cursor × Captures)
  | .empty, cursor => [(cursor, [])]
  | .one accepts, cursor =>
    match cursor.rest with
    | [] => []
    | char :: rest => if accepts char then [(⟨some char, rest⟩, [])] else []
  | .seq first second, cursor =>
    (results first cursor).flatMap fun middle =>
      (results second middle.1).map fun last => (last.1, middle.2 ++ last.2)
  | .alt left right, cursor => results left cursor ++ results right cursor
  | .star greedy body, cursor => rounds (results body) greedy cursor.rest.length cursor
  | .group index body, cursor =>
    (results body cursor).map fun last => (last.1, (index, cursor.upTo last.1) :: last.2)
  | .start, cursor =>
    if cursor.prev.all (· = '\n') then [(cursor, [])] else []
  | .stop, cursor =>
    if cursor.rest.head?.all (· = '\n') then [(cursor, [])] else []
  | .wordBoundary isWord, cursor => if cursor.atWordBoundary isWord then [(cursor, [])] else []

/-- The match that starts at a position. -/
def matchAt (regex : Regex) (cursor : Cursor) : Option (Cursor × Captures) :=
  (regex.results cursor).head?

/-- The matches of a text from left to right, without overlap, and the text that
is left when they are taken out. The bound counts the positions to try. -/
def scan (regex : Regex) : Nat → Cursor → List Captures × List Char
  | 0, cursor => ([], cursor.rest)
  | bound + 1, cursor =>
    match cursor.rest with
    | [] => ([], [])
    | char :: rest =>
      match regex.matchAt cursor with
      | some (last, captures) =>
        if last.rest.length < cursor.rest.length then
          let (found, left) := scan regex bound last
          (captures :: found, left)
        else
          let (found, left) := scan regex bound ⟨some char, rest⟩
          (captures :: found, char :: left)
      | none =>
        let (found, left) := scan regex bound ⟨some char, rest⟩
        (found, char :: left)

def scanText (regex : Regex) (text : List Char) : List Captures × List Char :=
  scan regex text.length ⟨none, text⟩

/-- `captures_iter`: the groups of every match. -/
def capturesIter (regex : Regex) (text : String) : List Captures := (regex.scanText text.toList).1

/-- `replace_all` with the empty text. -/
def removeAll (regex : Regex) (text : String) : String :=
  String.ofList (regex.scanText text.toList).2

/-- Whether a text has a match; the expressions here match no empty text. -/
def isMatch (regex : Regex) (text : String) : Bool := !(regex.capturesIter text).isEmpty

/-- The text of a captured group. -/
def capture (captures : Captures) (index : Nat) : Option String :=
  (captures.lookup index).map String.ofList

/-! ## What a match takes from the text -/

/-- From one position to another, by characters with a property. -/
def Cursor.Takes (p : Char → Prop) (first last : Cursor) : Prop :=
  ∃ taken, first.rest = taken ++ last.rest ∧ ∀ char ∈ taken, p char

theorem Cursor.Takes.refl (p : Char → Prop) (cursor : Cursor) : cursor.Takes p cursor :=
  ⟨[], rfl, by simp⟩

variable {p : Char → Prop} {result : Cursor × Captures} {q : Nat → Char → Prop} {keep : Char → Bool}

theorem Cursor.Takes.trans {first middle last : Cursor} (hfirst : first.Takes p middle)
    (hlast : middle.Takes p last) : first.Takes p last := by
  obtain ⟨taken, hrest, htaken⟩ := hfirst
  obtain ⟨more, hmore, hall⟩ := hlast
  refine ⟨taken ++ more, by rw [hrest, hmore, append_assoc], fun char hchar => ?_⟩
  rcases mem_append.mp hchar with hchar | hchar
  · exact htaken char hchar
  · exact hall char hchar

theorem Cursor.Takes.mem_upTo {first last : Cursor} (htakes : first.Takes p last) :
    ∀ char ∈ first.upTo last, p char := by
  obtain ⟨taken, hrest, htaken⟩ := htakes
  have hupTo : first.upTo last = taken := by simp [Cursor.upTo, hrest]
  rw [hupTo]
  exact htaken

theorem Cursor.Takes.mem_rest {first last : Cursor} (htakes : first.Takes p last) :
    ∀ char ∈ last.rest, char ∈ first.rest := by
  obtain ⟨taken, hrest, -⟩ := htakes
  intro char hchar
  rw [hrest]
  exact mem_append_right taken hchar

/-- Every character the expression takes has a property. -/
def Only (p : Char → Prop) : Regex → Prop
  | .one accepts => ∀ char, accepts char = true → p char
  | .seq first second => first.Only p ∧ second.Only p
  | .alt left right => left.Only p ∧ right.Only p
  | .star _ body => body.Only p
  | .group _ body => body.Only p
  | _ => True

/-- The fewest characters the expression takes. -/
def minLength : Regex → Nat
  | .one _ => 1
  | .seq first second => first.minLength + second.minLength
  | .alt left right => min left.minLength right.minLength
  | .group _ body => body.minLength
  | _ => 0

/-- Every group captures some text, and each of its characters has the property of
the group's index. -/
def Groups (q : Nat → Char → Prop) : Regex → Prop
  | .seq first second => first.Groups q ∧ second.Groups q
  | .alt left right => left.Groups q ∧ right.Groups q
  | .star _ body => body.Groups q
  | .group index body => body.Only (q index) ∧ 0 < body.minLength ∧ body.Groups q
  | _ => True

section Derived

variable {p : Char → Prop} {q : Nat → Char → Prop}

theorem only_litBy {same : Char → Char → Bool} {chars : List Char}
    (hchars : ∀ char ∈ chars, ∀ other, same char other = true → p other) :
    (litBy same chars).Only p := by
  induction chars with
  | nil => trivial
  | cons char rest ih =>
    exact ⟨hchars char mem_cons_self,
      ih fun other hother => hchars other (mem_cons_of_mem _ hother)⟩

theorem only_text {literal : String} (hchars : ∀ char ∈ literal.toList, p char) :
    (text literal).Only p := by
  refine only_litBy fun char hchar other hsame => ?_
  obtain rfl : char = other := by simpa using hsame
  exact hchars char hchar

theorem only_times {body : Regex} (hbody : body.Only p) (count : Nat) :
    (times count body).Only p := by
  induction count with
  | zero => trivial
  | succ count ih => exact ⟨hbody, ih⟩

theorem groups_litBy (same : Char → Char → Bool) (chars : List Char) :
    (litBy same chars).Groups q := by
  induction chars with
  | nil => trivial
  | cons char rest ih => exact ⟨trivial, ih⟩

theorem groups_text (literal : String) : (text literal).Groups q := groups_litBy _ _

theorem groups_times {body : Regex} (hbody : body.Groups q) (count : Nat) :
    (times count body).Groups q := by
  induction count with
  | zero => trivial
  | succ count ih => exact ⟨hbody, ih⟩

theorem groups_concat {parts : List Regex} (hparts : ∀ part ∈ parts, part.Groups q) :
    (concat parts).Groups q := by
  induction parts with
  | nil => trivial
  | cons part rest ih =>
    exact ⟨hparts part mem_cons_self,
      ih fun other hother => hparts other (mem_cons_of_mem _ hother)⟩

end Derived

theorem only_true (regex : Regex) : regex.Only fun _ => True := by
  induction regex with
  | one accepts => exact fun _ _ => trivial
  | seq first second hfirst hsecond => exact ⟨hfirst, hsecond⟩
  | alt left right hleft hright => exact ⟨hleft, hright⟩
  | star greedy body hbody => exact hbody
  | group index body hbody => exact hbody
  | _ => trivial

/-- A round is the end, or a step and further rounds. -/
theorem mem_rounds {step : Cursor → List (Cursor × Captures)} {greedy : Bool} {bound : Nat}
    {cursor : Cursor} (hresult : result ∈ rounds step greedy bound cursor) :
    result = (cursor, []) ∨ ∃ fewer next last, bound = fewer + 1 ∧ next ∈ step cursor ∧
      last ∈ rounds step greedy fewer next.1 ∧ result = (last.1, next.2 ++ last.2) := by
  cases bound with
  | zero => exact .inl (mem_singleton.mp hresult)
  | succ fewer =>
    have hcases : result = (cursor, []) ∨
        result ∈ ((step cursor).filter fun next =>
          next.1.rest.length < cursor.rest.length).flatMap fun next =>
            (rounds step greedy fewer next.1).map fun last => (last.1, next.2 ++ last.2) := by
      cases greedy with
      | true =>
        rcases mem_append.mp hresult with hmore | hstop
        · exact .inr hmore
        · exact .inl (mem_singleton.mp hstop)
      | false => exact mem_cons.mp hresult
    refine hcases.imp_right fun hmore => ?_
    obtain ⟨next, hnext, hlast⟩ := mem_flatMap.mp hmore
    obtain ⟨last, hlast, heq⟩ := mem_map.mp hlast
    exact ⟨fewer, next, last, rfl, (mem_filter.mp hnext).1, hlast, heq.symm⟩

/-- A way to match from one position to another, and what it captures. -/
inductive Way : Regex → Cursor → Cursor → Captures → Prop
  | empty {cursor} : Way .empty cursor cursor []
  | start {cursor} : Way .start cursor cursor []
  | stop {cursor} : Way .stop cursor cursor []
  | wordBoundary {isWord cursor} : Way (.wordBoundary isWord) cursor cursor []
  | one {accepts cursor char rest} (hrest : cursor.rest = char :: rest)
      (haccepts : accepts char = true) : Way (.one accepts) cursor ⟨some char, rest⟩ []
  | seq {first second cursor middle last captures more} (hfirst : Way first cursor middle captures)
      (hsecond : Way second middle last more) :
      Way (.seq first second) cursor last (captures ++ more)
  | left {left right cursor last captures} (hleft : Way left cursor last captures) :
      Way (.alt left right) cursor last captures
  | right {left right cursor last captures} (hright : Way right cursor last captures) :
      Way (.alt left right) cursor last captures
  | done {greedy body cursor} : Way (.star greedy body) cursor cursor []
  | round {greedy body cursor middle last captures more} (hbody : Way body cursor middle captures)
      (hrest : Way (.star greedy body) middle last more) :
      Way (.star greedy body) cursor last (captures ++ more)
  | group {index body cursor last captures} (hbody : Way body cursor last captures) :
      Way (.group index body) cursor last ((index, cursor.upTo last) :: captures)

theorem way_of_rounds {greedy : Bool} {body : Regex}
    (hbody : ∀ {cursor result}, result ∈ body.results cursor → Way body cursor result.1 result.2)
    {bound : Nat} {cursor : Cursor} (hresult : result ∈ rounds body.results greedy bound cursor) :
    Way (.star greedy body) cursor result.1 result.2 := by
  induction bound generalizing cursor result with
  | zero =>
    rw [mem_singleton.mp hresult]
    exact .done
  | succ fewer ih =>
    rcases mem_rounds hresult with rfl | ⟨_, next, last, ⟨⟩, hnext, hlast, rfl⟩
    · exact .done
    · exact .round (hbody hnext) (ih hlast)

/-- The results are ways to match. -/
theorem way_of_mem {regex : Regex} {cursor : Cursor} (hresult : result ∈ regex.results cursor) :
    Way regex cursor result.1 result.2 := by
  induction regex generalizing cursor result with
  | empty =>
    rw [mem_singleton.mp hresult]
    exact .empty
  | one accepts =>
    rw [results] at hresult
    split at hresult
    · cases hresult
    next char rest hrest =>
    obtain ⟨haccepts, hmem⟩ := mem_ite_nil_right.mp hresult
    rw [mem_singleton.mp hmem]
    exact .one hrest haccepts
  | seq first second hfirst hsecond =>
    obtain ⟨middle, hmiddle, hmap⟩ := mem_flatMap.mp hresult
    obtain ⟨last, hlast, rfl⟩ := mem_map.mp hmap
    exact .seq (hfirst hmiddle) (hsecond hlast)
  | alt left right hleft hright =>
    rcases mem_append.mp hresult with hresult | hresult
    · exact .left (hleft hresult)
    · exact .right (hright hresult)
  | star greedy body hbody => exact way_of_rounds hbody hresult
  | group index body hbody =>
    obtain ⟨last, hlast, rfl⟩ := mem_map.mp hresult
    exact .group (hbody hlast)
  | start =>
    obtain ⟨-, hmem⟩ := mem_ite_nil_right.mp hresult
    rw [mem_singleton.mp hmem]
    exact .start
  | stop =>
    obtain ⟨-, hmem⟩ := mem_ite_nil_right.mp hresult
    rw [mem_singleton.mp hmem]
    exact .stop
  | wordBoundary isWord =>
    obtain ⟨-, hmem⟩ := mem_ite_nil_right.mp hresult
    rw [mem_singleton.mp hmem]
    exact .wordBoundary

section Ways

variable {p : Char → Prop} {q : Nat → Char → Prop} {regex : Regex} {cursor last : Cursor}
  {captures : Captures}

section

variable (hway : Way regex cursor last captures)

include hway

theorem Way.takes (honly : regex.Only p) :
    cursor.Takes p last := by
  induction hway with
  | one hrest haccepts => exact ⟨[_], hrest, by simpa using honly _ haccepts⟩
  | seq _ _ hfirst hsecond => exact (hfirst honly.1).trans (hsecond honly.2)
  | left _ hleft => exact hleft honly.1
  | right _ hright => exact hright honly.2
  | round _ _ hbody hrest => exact (hbody honly).trans (hrest honly)
  | group _ hbody => exact hbody honly
  | _ => exact .refl p _

theorem Way.mem_rest :
    ∀ char ∈ last.rest, char ∈ cursor.rest :=
  (hway.takes regex.only_true).mem_rest

theorem Way.minLength_le :
    regex.minLength + last.rest.length ≤ cursor.rest.length := by
  induction hway with
  | one hrest =>
    rw [hrest, minLength, length_cons]
    exact Nat.le_of_eq (Nat.add_comm ..)
  | seq | left | right =>
    rw [minLength]
    omega
  | round _ _ hbody hrest => exact Nat.le_trans hrest (Nat.le_trans (Nat.le_add_left _ _) hbody)
  | group _ hbody => exact hbody
  | _ => exact Nat.le_of_eq (Nat.zero_add _)

end

/-- Every match takes a character with a property. -/
def Requires (p : Char → Prop) : Regex → Prop
  | .one accepts => ∀ char, accepts char = true → p char
  | .seq first second => first.Requires p ∨ second.Requires p
  | .alt left right => left.Requires p ∧ right.Requires p
  | .group _ body => body.Requires p
  | _ => False

theorem Way.requires (hway : Way regex cursor last captures) (hrequires : regex.Requires p) :
    ∃ char ∈ cursor.rest, p char := by
  induction hway with
  | one hrest haccepts => exact ⟨_, by simp [hrest], hrequires _ haccepts⟩
  | seq hway _ hfirst hsecond =>
    rcases hrequires with hrequires | hrequires
    · exact hfirst hrequires
    · obtain ⟨char, hchar, hp⟩ := hsecond hrequires
      exact ⟨char, hway.mem_rest char hchar, hp⟩
  | left _ hleft => exact hleft hrequires.1
  | right _ hright => exact hright hrequires.2
  | group _ hbody => exact hbody hrequires
  | _ => exact hrequires.elim

theorem requires_litBy {same : Char → Char → Bool} {chars : List Char}
    {char : Char} (hchar : char ∈ chars) (hsame : ∀ other, same char other = true → p other) :
    (litBy same chars).Requires p := by
  induction chars with
  | nil => cases hchar
  | cons first rest ih =>
    rcases mem_cons.mp hchar with rfl | hrest
    · exact .inl hsame
    · exact .inr (ih hrest)

theorem requires_text {literal : String} {char : Char} (hchar : char ∈ literal.toList) :
    (text literal).Requires (· = char) :=
  requires_litBy hchar fun _ hsame => (of_decide_eq_true hsame).symm

theorem requires_concat {parts : List Regex} {part : Regex}
    (hpart : part ∈ parts) (hrequires : part.Requires p) : (concat parts).Requires p := by
  induction parts with
  | nil => cases hpart
  | cons first rest ih =>
    rcases mem_cons.mp hpart with rfl | hrest
    · exact .inl hrequires
    · exact .inr (ih hrest)

/-- Every captured text is some text with the property of its group. -/
def Captured (q : Nat → Char → Prop) (captures : Captures) : Prop :=
  ∀ group ∈ captures, group.2 ≠ [] ∧ ∀ char ∈ group.2, q group.1 char

theorem captured_nil (q : Nat → Char → Prop) : Captured q [] := by
  intro group hgroup
  cases hgroup

theorem Captured.append {first second : Captures} (hfirst : Captured q first)
    (hsecond : Captured q second) : Captured q (first ++ second) := by
  intro group hgroup
  rcases mem_append.mp hgroup with hgroup | hgroup
  · exact hfirst group hgroup
  · exact hsecond group hgroup

theorem Way.captured (hway : Way regex cursor last captures) (hgroups : regex.Groups q) :
    Captured q captures := by
  induction hway with
  | seq _ _ hfirst hsecond => exact (hfirst hgroups.1).append (hsecond hgroups.2)
  | left _ hleft => exact hleft hgroups.1
  | right _ hright => exact hright hgroups.2
  | round _ _ hbody hrest => exact (hbody hgroups).append (hrest hgroups)
  | group hway hbody =>
    intro group hgroup
    rcases mem_cons.mp hgroup with rfl | hgroup
    · refine ⟨?_, (hway.takes hgroups.1).mem_upTo⟩
      have htaken := hway.minLength_le
      have hsome := hgroups.2.1
      rw [← length_pos_iff, Cursor.upTo, length_take]
      omega
    · exact hbody hgroups.2.2 group hgroup
  | _ => exact captured_nil q

theorem way_of_matchAt (hmatch : regex.matchAt cursor = some (last, captures)) :
    Way regex cursor last captures :=
  way_of_mem (mem_of_mem_head? hmatch)

end Ways

/-- Every match of a scan is a match at a position, and what is left of the text
comes from it. -/
theorem scan_spec (regex : Regex) (bound : Nat) (cursor : Cursor) :
    (∀ captures ∈ (regex.scan bound cursor).1, ∃ place last,
        regex.matchAt place = some (last, captures)) ∧
      ∀ char ∈ (regex.scan bound cursor).2, char ∈ cursor.rest := by
  induction bound generalizing cursor with
  | zero => exact ⟨by simp [scan], fun _ hchar => hchar⟩
  | succ bound ih =>
    rw [scan]
    split
    · exact ⟨by simp, by simp⟩
    next char rest hrest =>
    split
    next last captures hmatch =>
      obtain ⟨hfound, hleft⟩ := ih last
      obtain ⟨hskip, hnext⟩ := ih ⟨some char, rest⟩
      split
      · refine ⟨fun found hmem => ?_, fun other hmem =>
          (way_of_matchAt hmatch).mem_rest other (hleft other hmem)⟩
        rcases mem_cons.mp hmem with rfl | hmem
        · exact ⟨cursor, last, hmatch⟩
        · exact hfound found hmem
      · refine ⟨fun found hmem => ?_, fun other hmem => ?_⟩
        · rcases mem_cons.mp hmem with rfl | hmem
          · exact ⟨cursor, last, hmatch⟩
          · exact hskip found hmem
        · rw [hrest]
          exact (mem_cons.mp hmem).elim (fun h => h ▸ mem_cons_self)
            fun h => mem_cons_of_mem _ (hnext other h)
    next hmatch =>
      obtain ⟨hskip, hnext⟩ := ih ⟨some char, rest⟩
      refine ⟨hskip, fun other hmem => ?_⟩
      rw [hrest]
      exact (mem_cons.mp hmem).elim (fun h => h ▸ mem_cons_self)
        fun h => mem_cons_of_mem _ (hnext other h)

theorem capturesIter_captured {regex : Regex} (hgroups : regex.Groups q) {text : String}
    {captures : Captures} (hmem : captures ∈ regex.capturesIter text) : Captured q captures := by
  obtain ⟨place, last, hmatch⟩ := (scan_spec regex _ _).1 captures hmem
  exact (way_of_matchAt hmatch).captured hgroups

theorem mem_removeAll {regex : Regex} {text : String} {char : Char}
    (hmem : char ∈ (regex.removeAll text).toList) : char ∈ text.toList := by
  rw [removeAll, String.toList_ofList] at hmem
  exact (scan_spec regex _ _).2 char hmem

/-- The text of a captured group. -/
theorem Captured.capture {captures : Captures} (hcaptured : Captured q captures) {index : Nat}
    {text : String} (hcapture : Regex.capture captures index = some text) :
    text ≠ "" ∧ ∀ char ∈ text.toList, q index char := by
  obtain ⟨chars, hlookup, rfl⟩ := Option.map_eq_some_iff.mp hcapture
  obtain ⟨before, after, heq, -⟩ := lookup_eq_some_iff.mp hlookup
  obtain ⟨hsome, hchars⟩ := hcaptured (index, chars) (by simp [heq])
  rw [String.toList_ofList]
  refine ⟨fun hempty => hsome ?_, hchars⟩
  simpa using congrArg String.toList hempty

/-! ## Expressions that differ on no character of the text -/

/-- The expression on some characters only. -/
def restrict (keep : Char → Bool) : Regex → Regex
  | .one accepts => .one fun char => keep char && accepts char
  | .seq first second => .seq (first.restrict keep) (second.restrict keep)
  | .alt left right => .alt (left.restrict keep) (right.restrict keep)
  | .star greedy body => .star greedy (body.restrict keep)
  | .group index body => .group index (body.restrict keep)
  | regex => regex

theorem rounds_congr {first second : Cursor → List (Cursor × Captures)}
    (hsame : ∀ cursor : Cursor, (∀ char ∈ cursor.rest, keep char = true) →
      first cursor = second cursor ∧
        ∀ next ∈ second cursor, ∀ char ∈ next.1.rest, keep char = true) (greedy : Bool)
    (bound : Nat) {cursor : Cursor} (hkeep : ∀ char ∈ cursor.rest, keep char = true) :
    rounds first greedy bound cursor = rounds second greedy bound cursor := by
  induction bound generalizing cursor with
  | zero => rfl
  | succ bound ih =>
    obtain ⟨hstep, hrest⟩ := hsame cursor hkeep
    have hmore : (((first cursor).filter fun next =>
          next.1.rest.length < cursor.rest.length).flatMap fun next =>
        (rounds first greedy bound next.1).map fun last => (last.1, next.2 ++ last.2)) =
        ((second cursor).filter fun next =>
          next.1.rest.length < cursor.rest.length).flatMap fun next =>
        (rounds second greedy bound next.1).map fun last => (last.1, next.2 ++ last.2) := by
      rw [hstep]
      refine flatMap_congr fun next hnext => ?_
      rw [ih (hrest next (mem_filter.mp hnext).1)]
    simp only [rounds, hmore]

theorem results_restrict (regex : Regex) {cursor : Cursor}
    (hkeep : ∀ char ∈ cursor.rest, keep char = true) :
    (regex.restrict keep).results cursor = regex.results cursor := by
  induction regex generalizing cursor with
  | one accepts =>
    rw [restrict, results, results]
    cases hrest : cursor.rest with
    | nil => rfl
    | cons char rest => simp [hkeep char (by simp [hrest])]
  | seq first second hfirst hsecond =>
    rw [restrict, results, results, hfirst hkeep]
    refine flatMap_congr fun middle hmiddle => ?_
    rw [hsecond fun char hchar => hkeep char
      ((way_of_mem hmiddle).mem_rest char hchar)]
  | alt left right hleft hright => rw [restrict, results, results, hleft hkeep, hright hkeep]
  | star greedy body hbody =>
    rw [restrict, results, results]
    refine rounds_congr (fun cursor hkeep => ⟨hbody hkeep, fun next hnext char hchar => ?_⟩)
      greedy _ hkeep
    exact hkeep char ((way_of_mem hnext).mem_rest char hchar)
  | group index body hbody => rw [restrict, results, results, hbody hkeep]
  | _ => rfl

theorem scan_restrict (regex : Regex) (bound : Nat) {cursor : Cursor}
    (hkeep : ∀ char ∈ cursor.rest, keep char = true) :
    (regex.restrict keep).scan bound cursor = regex.scan bound cursor := by
  induction bound generalizing cursor with
  | zero => rfl
  | succ bound ih =>
    have hmatch : (regex.restrict keep).matchAt cursor = regex.matchAt cursor := by
      rw [matchAt, matchAt, results_restrict regex hkeep]
    rw [scan, scan, hmatch]
    cases hrest : cursor.rest with
    | nil => rfl
    | cons char rest =>
      have hskip : (regex.restrict keep).scan bound ⟨some char, rest⟩ =
          regex.scan bound ⟨some char, rest⟩ :=
        ih fun other hother => hkeep other (by simp [hrest, show other ∈ rest from hother])
      dsimp only
      cases hfound : regex.matchAt cursor with
      | none => rw [hskip]
      | some result =>
        dsimp only
        rw [hskip, ih fun other hother =>
          hkeep other ((way_of_matchAt hfound).mem_rest other hother)]

/-- Two expressions that are the same on the characters of a text match it alike. -/
theorem isMatch_congr {first second : Regex} {text : String}
    (hsame : first.restrict keep = second.restrict keep)
    (hkeep : ∀ char ∈ text.toList, keep char = true) :
    first.isMatch text = second.isMatch text := by
  unfold isMatch capturesIter scanText
  rw [← scan_restrict first _ hkeep, hsame, scan_restrict second _ hkeep]

end Regex

end Lib
