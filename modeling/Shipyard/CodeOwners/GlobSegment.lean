import Shipyard.Lib.Wildcard

/-!
# Globs of one path segment

`glob_segment` reads the pattern and the text side by side and goes back to the last star
when they differ. Going back to the last star is enough. A pattern character is compared
with the text before it is read as a star, so a star in the text is taken for a literal
one: the segments the code reads right are those without a star.
-/

namespace Shipyard.CodeOwners

open Lib List

/-- The text one character after a star, since which the given characters were read. -/
def restart (since text : List Char) : List Char := (since.reverse ++ text).tail

/-- The loop, over what is left of the pattern and of the text. A star is remembered by the
pattern after it and the characters read since, the last one first. -/
def globLoop (pattern : List Char) : List Char → Option (List Char × List Char) → Bool
  | [], _ => pattern.all (· = '*')
  | char :: text, star =>
    if pattern.head? = some '?' ∨ pattern.head? = some char then
      globLoop pattern.tail text (star.map fun (afterStar, since) => (afterStar, char :: since))
    else if pattern.head? = some '*' then
      globLoop pattern.tail (char :: text) (some (pattern.tail, []))
    else
      match star with
      | some (afterStar, since) =>
        globLoop afterStar (restart since (char :: text)) (some (afterStar, []))
      | none => false
termination_by text star => (text.length + (star.elim 0 fun star => star.2.length), pattern.length)
decreasing_by
  · cases pattern with
    | nil => simp at *
    | cons first rest => cases star <;> simp [Prod.lex_def]; omega
  · cases pattern with
    | nil => simp at *
    | cons first rest => rcases star with _ | ⟨_, _ | _⟩ <;> simp [Prod.lex_def]
  · simp [restart, Prod.lex_def]
    omega

/-- `*` (any run of characters) and `?` (one character) within one segment. -/
def globSegment (pattern text : String) : Bool := globLoop pattern.toList text.toList none

/-! ## The rule -/

def globItem (char : Char) : WildItem Char :=
  if char = '*' then .run else .one fun other => char = '?' ∨ char = other

/-- The words a pattern stands for. -/
def globWords (pattern : List Char) : Language Char := wildLanguage (pattern.map globItem)

variable {text rest pattern part : List Char}

theorem mem_globWords_star :
    text ∈ globWords ('*' :: rest) ↔ ∃ tail ∈ text.tails, tail ∈ globWords rest :=
  mem_wildLanguage_run

theorem mem_globWords_cons {first : Char} (hfirst : first ≠ '*') :
    text ∈ globWords (first :: rest) ↔ ∃ char tail, text = char :: tail ∧
      (first = '?' ∨ first = char) ∧ tail ∈ globWords rest := by
  rw [globWords, map_cons, globItem, if_neg hfirst]
  exact mem_wildLanguage_one

theorem nil_mem_globWords : [] ∈ globWords pattern ↔ pattern.all (· = '*') = true := by
  induction pattern with
  | nil => simp [globWords, mem_wildLanguage_nil]
  | cons first rest ih =>
    by_cases hfirst : first = '*'
    · simp [hfirst, mem_globWords_star, ih]
    · simp [mem_globWords_cons hfirst, hfirst]

/-- A part of a pattern without a star takes one character for each of its own. -/
theorem drop_mem_globWords (hpart : '*' ∉ part) (htext : text ∈ globWords (part ++ rest)) :
    text.drop part.length ∈ globWords rest := by
  induction part generalizing text with
  | nil => exact htext
  | cons first part ih =>
    obtain ⟨hfirst, hpart⟩ := not_or.mp (mt mem_cons.mpr hpart)
    obtain ⟨char, tail, rfl, -, htail⟩ := (mem_globWords_cons (Ne.symm hfirst)).mp htext
    exact ih hpart htail

/-- The pattern neither takes the next character nor goes on with a star. -/
theorem not_mem_globWords {char : Char}
    (htakes : ¬(pattern.head? = some '?' ∨ pattern.head? = some char))
    (hrun : pattern.head? ≠ some '*') : char :: text ∉ globWords pattern := by
  obtain _ | ⟨first, rest⟩ := pattern
  · simp [globWords, mem_wildLanguage_nil]
  · rw [mem_globWords_cons (by simpa using hrun)]
    simp_all

/-! ## The loop -/

/-- What going back to the star can still read: the pattern after it, from a later place. -/
def AfterStar (text : List Char) : Option (List Char × List Char) → Prop
  | none => False
  | some (afterStar, since) => ∃ tail ∈ (restart since text).tails, tail ∈ globWords afterStar

/-- The characters since the star were read by as many of the pattern, without a star. -/
def SinceStar (pattern : List Char) : Option (List Char × List Char) → Prop
  | none => True
  | some (afterStar, since) => '*' ∉ since ∧
    ∃ part, '*' ∉ part ∧ part.length = since.length ∧ afterStar = part ++ pattern

theorem exists_tail_iff {p : List Char → Prop} :
    (∃ tail ∈ text.tails, p tail) ↔ p text ∨ ∃ tail ∈ text.tail.tails, p tail := by
  cases text <;> simp

theorem globLoop_iff {star : Option (List Char × List Char)} (htext : '*' ∉ text)
    (hstar : SinceStar pattern star) :
    globLoop pattern text star = true ↔ text ∈ globWords pattern ∨ AfterStar text star := by
  fun_induction globLoop pattern text star with
  | case1 pattern star =>
    rw [← nil_mem_globWords, iff_self_or]
    intro hafter
    obtain _ | ⟨afterStar, since⟩ := star
    · exact hafter.elim
    -- from a later place nothing is left for the rest of the pattern
    obtain ⟨-, part, hpart, hlength, rfl⟩ := hstar
    obtain ⟨tail, htail, hmem⟩ := hafter
    have hle := ((mem_tails _ _).mp htail).length_le
    simp only [restart, append_nil, length_tail, length_reverse] at hle
    have hdrop := drop_mem_globWords hpart hmem
    rwa [drop_eq_nil_of_le (by omega)] at hdrop
  | case2 pattern char text star hhead ih =>
    obtain _ | ⟨first, rest⟩ := pattern
    · simp at hhead
    obtain ⟨hchar, htext⟩ := not_or.mp (mt mem_cons.mpr htext)
    have haccepts : first = '?' ∨ first = char := by simpa using hhead
    have hfirst : first ≠ '*' := by
      rintro rfl
      simp_all
    have hstar' : SinceStar rest
        (star.map fun (afterStar, since) => (afterStar, char :: since)) := by
      obtain _ | ⟨afterStar, since⟩ := star
      · trivial
      obtain ⟨hsince, part, hpart, hlength, rfl⟩ := hstar
      exact ⟨by simp [hchar, hsince], part ++ [first], by simp [hpart, Ne.symm hfirst],
        by simp [hlength], by simp⟩
    refine (ih htext hstar').trans (or_congr ?_ ?_)
    · simp [mem_globWords_cons hfirst, haccepts]
    · obtain _ | ⟨afterStar, since⟩ := star <;> simp [AfterStar, restart]
  | case3 pattern char text star hhead hrun ih =>
    obtain _ | ⟨first, rest⟩ := pattern
    · simp at hrun
    cases (Option.some.inj hrun : first = '*')
    have hnew : SinceStar rest (some (rest, [])) := ⟨by simp, [], by simp, rfl, rfl⟩
    refine (ih htext hnew).trans ?_
    have hreads : char :: text ∈ globWords rest ∨ AfterStar (char :: text) (some (rest, [])) ↔
        char :: text ∈ globWords ('*' :: rest) :=
      (mem_globWords_star.trans (exists_tail_iff (p := (· ∈ globWords rest)))).symm
    rw [tail_cons, hreads, iff_self_or]
    intro hafter
    obtain _ | ⟨afterStar, since⟩ := star
    · exact hafter.elim
    -- what the older star can read from a later place, the newer one can
    obtain ⟨-, part, hpart, hlength, rfl⟩ := hstar
    obtain ⟨tail, htail, hmem⟩ := hafter
    obtain ⟨count, rfl⟩ : ∃ count, tail = (restart since (char :: text)).drop count :=
      ⟨_, suffix_iff_eq_drop.mp ((mem_tails _ _).mp htail)⟩
    have hdrop := drop_mem_globWords hpart hmem
    rw [restart, ← drop_one, drop_drop, drop_drop, hlength, ← Nat.add_assoc, Nat.add_comm,
      ← length_reverse, drop_length_add_append] at hdrop
    obtain ⟨later, hlater, hmem⟩ := mem_globWords_star.mp hdrop
    exact mem_globWords_star.mpr ⟨later, (mem_tails _ _).mpr
      (((mem_tails _ _).mp hlater).trans (drop_suffix _ _)), hmem⟩
  | case4 pattern char text hhead hrun afterStar since ih =>
    obtain ⟨hsince, part, hpart, hlength, rfl⟩ := hstar
    have hnew : SinceStar (part ++ pattern) (some (part ++ pattern, [])) :=
      ⟨by simp, [], by simp, rfl, rfl⟩
    have hrest : '*' ∉ restart since (char :: text) := by
      intro hmem
      have := mem_of_mem_tail hmem
      simp_all
    rw [ih hrest hnew, or_iff_right (not_mem_globWords hhead hrun)]
    exact (exists_tail_iff (p := (· ∈ globWords (part ++ pattern)))).symm
  | case5 pattern char text hhead hrun =>
    exact iff_of_false Bool.false_ne_true
      (not_or.mpr ⟨not_mem_globWords hhead hrun, id⟩)

/-! ## Stars in the text -/

theorem globLoop_append (part pattern text : List Char) :
    globLoop (part ++ pattern) (part ++ text) none = globLoop pattern text none := by
  induction part with
  | nil => rfl
  | cons char part ih => rw [cons_append, cons_append, globLoop, if_pos (.inr rfl)]; exact ih

theorem append_mem_globWords (hpart : '*' ∉ part) (htext : text ∈ globWords pattern) :
    part ++ text ∈ globWords (part ++ pattern) := by
  induction part with
  | nil => exact htext
  | cons char part ih =>
    obtain ⟨hchar, hpart⟩ := not_or.mp (mt mem_cons.mpr hpart)
    exact (mem_globWords_cons (Ne.symm hchar)).mpr ⟨char, _, rfl, .inr rfl, ih hpart⟩

end Shipyard.CodeOwners
