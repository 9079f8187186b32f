import Mathlib.Algebra.Group.Int.Defs
import Shipyard.Config.Layers
import Shipyard.HeadApproval.Text
import Shipyard.Lib.Worklist

/-!
# Branch protection rules

The rules a configuration declares for a branch: those of its profile, with the
overrides of every glob the branch matches. A glob's overrides may extend those of
another one.
-/

namespace Shipyard.Governance

open Lib
open Config (Table TomlLeaf TomlValue tableGet)

structure BranchProtectionRules where
  requirePr : Bool := false
  requireStatusChecks : List String := []
  requireStrictStatus : Bool := false
  requireReviewCount : UInt64 := 0
  enforceAdmins : Bool := false
  dismissStaleReviews : Bool := false
  requireCodeOwnerReviews : Bool := false
  allowForcePush : Bool := false
  allowDeletions : Bool := false
  requireLinearHistory : Bool := false
  requiredConversationResolution : Bool := false
deriving DecidableEq, Repr

/-! ## TOML values -/

def asStr? : TomlValue → Option String
  | .leaf (.string value) => some value
  | _ => none

def asBool? : TomlValue → Option Bool
  | .leaf (.boolean value) => some value
  | _ => none

def asU64? : TomlValue → Option UInt64
  | .leaf (.integer value) =>
    if 0 ≤ value ∧ value < 2 ^ 64 then some (UInt64.ofNat value.toNat) else none
  | _ => none

def asArray? : TomlValue → Option (List TomlValue)
  | .leaf (.array items) => some items
  | _ => none

def asTable? : TomlValue → Option (List (String × TomlValue))
  | .table entries => some entries
  | _ => none

def asStrings (items : List TomlValue) : List String := items.filterMap asStr?

/-! ## Profiles -/

variable (data : Table)

def profileName : String :=
  ((tableGet data "project.profile").bind asStr?).getD "solo"

def requiredStatusChecks : List String :=
  asStrings ((((tableGet data "governance.required_status_checks").bind asArray?).or
    ((tableGet data "merge.require_platforms").bind asArray?)).getD [])

def profileForName (name : String) (checks : List String) : Except String BranchProtectionRules :=
  match name with
  | "solo" => .ok { requirePr := true, requireStatusChecks := checks }
  | "multi" => .ok {
      requirePr := true
      requireStatusChecks := checks
      requireStrictStatus := true
      requireReviewCount := 1
      enforceAdmins := true
      dismissStaleReviews := true
      requiredConversationResolution := true }
  | "custom" => .ok { requireStatusChecks := checks }
  | other =>
    .error (s!"Unknown governance profile '{other}'. Expected one of: solo, multi, custom")

/-! ## Overrides -/

/-- Only `*`, 42, stands for other bytes. -/
def globMatchesBytes : List UInt8 → List UInt8 → Bool
  | [], [] => true
  | [], _ :: _ => false
  | byte :: pattern, [] => byte = 42 && globMatchesBytes pattern []
  | byte :: pattern, head :: text =>
    if byte = 42 then
      globMatchesBytes pattern (head :: text) || globMatchesBytes (byte :: pattern) text
    else byte = head && globMatchesBytes pattern text

def globMatches (pattern text : String) : Bool :=
  globMatchesBytes (HeadApproval.utf8 pattern) (HeadApproval.utf8 text)

/-- The entries of a table over those merged so far, but for what it extends. -/
def insertOverrides (merged : SortedMap String TomlValue) (entries : List (String × TomlValue)) :
    SortedMap String TomlValue :=
  (entries.filter fun entry => entry.1 ≠ "extends").foldl
    (fun acc entry => acc.insert entry.1 entry.2) merged

/-- The glob that a table of overrides extends, where there is one. -/
def extendedBy (overrides entries : List (String × TomlValue)) : Option String :=
  ((Tree.find entries "extends").bind asStr?).filter fun parent =>
    (Tree.find overrides parent).isSome

/-- The overrides of a glob over those it extends. A glob is visited once. -/
def flattenExtendsChain (overrides : List (String × TomlValue)) (glob : String)
    (visited : List String) : Except String (SortedMap String TomlValue) :=
  if hvisited : glob ∈ visited then .ok .empty
  else
    match hfind : Tree.find overrides glob with
    | some (.table entries) => do
      let merged ←
        match extendedBy overrides entries with
        | some parent => flattenExtendsChain overrides parent (visited ++ [glob])
        | none => .ok .empty
      return insertOverrides merged entries
    | _ => .ok .empty
termination_by ((overrides.map Prod.fst).filter (· ∉ visited)).length
decreasing_by
  obtain ⟨entry, hentry, -⟩ := Option.map_eq_some_iff.mp hfind
  have hname := List.find?_some hentry
  have hmem := List.mem_map_of_mem (f := Prod.fst) (List.mem_of_find?_eq_some hentry)
  rw [of_decide_eq_true hname] at hmem
  exact Worklist.unseen_lt hmem hvisited

/-- One glob's overrides over those merged so far. -/
def addOverrides (overrides : List (String × TomlValue)) (branch : String)
    (merged : SortedMap String TomlValue) (entry : String × TomlValue) :
    Except String (SortedMap String TomlValue) :=
  if globMatches entry.1 branch then
    match entry.2 with
    | .table entries => do
      let flattened ← flattenExtendsChain overrides entry.1 []
      return insertOverrides (insertOverrides merged flattened.entries) entries
    | .leaf _ => .ok merged
  else .ok merged

def resolveOverridesFor (branch : String) : Except String (SortedMap String TomlValue) :=
  match (Tree.find data.entries "branch_protection").bind asTable? with
  | none => .ok .empty
  | some overrides => overrides.foldlM (addOverrides overrides branch) .empty

def applyOverride (rules : BranchProtectionRules) (entry : String × TomlValue) :
    BranchProtectionRules :=
  let flag := asBool? entry.2
  match entry.1 with
  | "require_pr" => { rules with requirePr := flag.getD rules.requirePr }
  | "require_status_checks" => { rules with
      requireStatusChecks := ((asArray? entry.2).map asStrings).getD rules.requireStatusChecks }
  | "require_strict_status" => { rules with
      requireStrictStatus := flag.getD rules.requireStrictStatus }
  | "require_review_count" => { rules with
      requireReviewCount := (asU64? entry.2).getD rules.requireReviewCount }
  | "enforce_admins" => { rules with enforceAdmins := flag.getD rules.enforceAdmins }
  | "dismiss_stale_reviews" => { rules with
      dismissStaleReviews := flag.getD rules.dismissStaleReviews }
  | "require_code_owner_reviews" => { rules with
      requireCodeOwnerReviews := flag.getD rules.requireCodeOwnerReviews }
  | "allow_force_push" => { rules with allowForcePush := flag.getD rules.allowForcePush }
  | "allow_deletions" => { rules with allowDeletions := flag.getD rules.allowDeletions }
  | "require_linear_history" => { rules with
      requireLinearHistory := flag.getD rules.requireLinearHistory }
  | "required_conversation_resolution" => { rules with
      requiredConversationResolution := flag.getD rules.requiredConversationResolution }
  | _ => rules

def applyOverrides (rules : BranchProtectionRules) (overrides : SortedMap String TomlValue) :
    BranchProtectionRules :=
  overrides.entries.foldl applyOverride rules

def resolveProfileRules : Except String BranchProtectionRules :=
  profileForName (profileName data) (requiredStatusChecks data)

def resolveBranchRules (branch : String) : Except String BranchProtectionRules := do
  let profile ← resolveProfileRules data
  let overrides ← resolveOverridesFor data branch
  return applyOverrides profile overrides

end Shipyard.Governance
