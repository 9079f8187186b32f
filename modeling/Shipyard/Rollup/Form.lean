import Shipyard.Lib.Greedy
import Shipyard.Rollup.Accept

/-!
# Forming a rollup

`rollup::form` takes the candidates, the oldest first, and chooses each that may land
together with the ones chosen before it.
-/

namespace Shipyard.Rollup

open Lib List
open HeadApproval (carryExcluded globMatch)

/-- A pull request that might join a rollup. -/
structure Candidate where
  pr : Nat
  files : List String
  blocked : Option String

def Candidate.hot (candidate : Candidate) (pattern : String) : Bool :=
  candidate.files.any (globMatch pattern)

variable (config : Config) (excluded : List String)

/-- Why a candidate cannot join the chosen ones. -/
def leftOut (chosen : List Candidate) (candidate : Candidate) : Option String :=
  let members := config.maxMembers
  candidate.blocked <|>
  (if chosen.length = members then some s!"the rollup is full ({members} members)" else none) <|>
  carryExcluded candidate.files config.excludePaths <|>
  carryExcluded candidate.files excluded <|>
  (chosen.findSome? fun other =>
    let number := other.pr
    (candidate.files.find? (· ∈ other.files)).map fun name => s!"#{number} also changes {name}") <|>
  config.hotFiles.findSome? fun pattern =>
    if candidate.hot pattern then (chosen.find? (·.hot pattern)).map fun other =>
      let number := other.pr
      s!"#{number} already changes a hot file ({pattern})" else none

def form (candidates : List Candidate) : List Nat × List (Nat × String) :=
  let (chosen, skipped) := greedy (leftOut config excluded)
    (candidates.insertionSort fun left right => left.pr ≤ right.pr)
  (chosen.map Candidate.pr, skipped.map fun entry => (entry.1.pr, entry.2))

/-- Two candidates that change no file and no hot pattern both. -/
@[mk_iff]
structure Candidate.Apart (older newer : Candidate) : Prop where
  files : ∀ name ∈ newer.files, name ∉ older.files
  hot : ∀ pattern ∈ config.hotFiles, newer.hot pattern = true → older.hot pattern = false

/-- The candidates may land as one rollup. -/
@[mk_iff]
structure MayLand (chosen : List Candidate) : Prop where
  each : ∀ candidate ∈ chosen, candidate.blocked = none ∧
    carryExcluded candidate.files config.excludePaths = none ∧
    carryExcluded candidate.files excluded = none
  size : chosen.length ≤ config.maxMembers
  apart : chosen.Pairwise (Candidate.Apart config)

variable {config excluded}

theorem leftOut_eq_none_iff {chosen : List Candidate} {candidate : Candidate}
    (hchosen : MayLand config excluded chosen) :
    leftOut config excluded chosen candidate = none ↔
      MayLand config excluded (chosen ++ [candidate]) := by
  -- each check that passes is the clause of the rule that the candidate adds
  obtain ⟨heach, hsize, hapart⟩ := hchosen
  simp [leftOut, mayLand_iff, Candidate.apart_iff, pairwise_append, or_imp, forall_and]
    at heach hapart ⊢
  grind

/-- What is chosen may land as one rollup, and nothing left out could join it. -/
theorem form_is_maximal (config : Config) (excluded : List String)
    (candidates : List Candidate) :
    ∃ (chosen : List Candidate) (skipped : List (Candidate × String)),
      form config excluded candidates =
        (chosen.map Candidate.pr, skipped.map fun entry => (entry.1.pr, entry.2)) ∧
      (chosen ++ skipped.map Prod.fst).Perm candidates ∧ chosen.Pairwise (·.pr ≤ ·.pr) ∧
      MayLand config excluded chosen ∧
      ∀ candidate ∈ skipped.map Prod.fst, ¬ MayLand config excluded (chosen ++ [candidate]) := by
  have hselects : Selects (MayLand config excluded) _ _ _ :=
    selects_greedy ⟨by simp, Nat.zero_le _, .nil⟩
      (fun hpart hland => ⟨fun candidate hmem => hland.each candidate (hpart.subset hmem),
        hpart.length_le.trans hland.size, hland.apart.sublist hpart⟩)
      leftOut_eq_none_iff (candidates.insertionSort fun left right => left.pr ≤ right.pr)
  exact ⟨_, _, rfl, hselects.split.trans (perm_insertionSort _ _),
    (pairwise_insertionSort _ _).sublist hselects.order, hselects.holds, hselects.maximal⟩

end Shipyard.Rollup
