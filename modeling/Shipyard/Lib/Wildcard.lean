import Mathlib.Computability.Language

/-!
# Wildcard patterns

A pattern is a list of items, of which each stands for any run of symbols or for one
symbol with a property. Its language is the product of the languages of its items. A
matcher that tries every tail of the text for a run decides it.
-/

namespace Lib

variable {α : Type}

/-- What an item of a pattern stands for. -/
inductive WildItem (α : Type) where
  | run
  | one (accepts : α → Prop)

def WildItem.language : WildItem α → Language α
  | .run => ⊤
  | .one accepts => {word | ∃ symbol, accepts symbol ∧ word = [symbol]}

def wildLanguage (items : List (WildItem α)) : Language α :=
  (items.map WildItem.language).prod

variable {word : List α} {items : List (WildItem α)}

theorem mem_wildLanguage_nil : word ∈ wildLanguage [] ↔ word = [] :=
  Language.mem_one word

theorem mem_wildLanguage_run :
    word ∈ wildLanguage (.run :: items) ↔ ∃ tail ∈ word.tails, tail ∈ wildLanguage items := by
  rw [wildLanguage, List.map_cons, List.prod_cons, Language.mem_mul]
  constructor
  · rintro ⟨start, -, tail, htail, rfl⟩
    exact ⟨tail, (List.mem_tails _ _).mpr (List.suffix_append start tail), htail⟩
  · rintro ⟨tail, hsuffix, htail⟩
    obtain ⟨start, hword⟩ := (List.mem_tails _ _).mp hsuffix
    exact ⟨start, trivial, tail, htail, hword⟩

theorem mem_wildLanguage_one {accepts : α → Prop} : word ∈ wildLanguage (.one accepts :: items) ↔
      ∃ symbol rest, word = symbol :: rest ∧ accepts symbol ∧ rest ∈ wildLanguage items := by
  rw [wildLanguage, List.map_cons, List.prod_cons, Language.mem_mul]
  constructor
  · rintro ⟨_, ⟨symbol, haccepts, rfl⟩, rest, hrest, rfl⟩
    exact ⟨symbol, rest, rfl, haccepts, hrest⟩
  · rintro ⟨symbol, rest, rfl, haccepts, hrest⟩
    exact ⟨[symbol], ⟨symbol, haccepts, rfl⟩, rest, hrest, rfl⟩

end Lib
