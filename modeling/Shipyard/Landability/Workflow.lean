import Mathlib.Data.List.Sort
import Shipyard.Lib.Worklist
import Shipyard.MergeSteward.Checks

/-!
# Where a job runs

The jobs read out of workflow files: which contexts a job may produce, which jobs it
needs, and what its `runs-on` expression says. An expression is read by bytes, and
slicing a text inside a character panics: such a reading has no result.
-/

namespace Shipyard.Landability

open Lib List
open MergeSteward (trim)

/-- One job as read out of a workflow file. Jobs of different files may share an id. -/
structure WorkflowJob where
  id : String
  nameExpr : Option String
  needs : List String
  runsOnExpr : Option String
  /-- The `vars.NAME` referenced in the job's body, in order of first appearance. -/
  varRefs : List String
deriving DecidableEq, Repr

/-! ## Texts -/

def apostrophe : Char := Char.ofNat 39

def isQuote (char : Char) : Bool := char = apostrophe || char = '"'

/-- `trim_matches` -/
def trimMatches (strips : Char → Bool) (text : List Char) : List Char :=
  ((text.dropWhile strips).reverse.dropWhile strips).reverse

def stripPrefix (start text : List Char) : Option (List Char) :=
  if start.isPrefixOf text then some (text.drop start.length) else none

def stripSuffix (ending text : List Char) : Option (List Char) :=
  if ending.isSuffixOf text then some (text.take (text.length - ending.length)) else none

/-- What stands before and after the first occurrence of a pattern. -/
def splitFirst (pattern : List Char) : List Char → Option (List Char × List Char)
  | [] => if pattern.isEmpty then some ([], []) else none
  | char :: rest =>
    if pattern.isPrefixOf (char :: rest) then some ([], (char :: rest).drop pattern.length)
    else (splitFirst pattern rest).map fun found => (char :: found.1, found.2)

/-- What stands before and after the last occurrence of a pattern. -/
def splitLast (pattern : List Char) : List Char → Option (List Char × List Char)
  | [] => if pattern.isEmpty then some ([], []) else none
  | char :: rest =>
    match splitLast pattern rest with
    | some found => some (char :: found.1, found.2)
    | none =>
      if pattern.isPrefixOf (char :: rest) then some ([], (char :: rest).drop pattern.length)
      else none

/-- Every string literal inside an expression. A quote that nothing closes is skipped. -/
def stringLiterals : List Char → List (List Char)
  | [] => []
  | char :: rest =>
    if isQuote char && rest.contains char then
      rest.takeWhile (· ≠ char) :: stringLiterals (rest.dropWhile (· ≠ char)).tail
    else stringLiterals rest
termination_by text => text.length
decreasing_by
  · have hdrop := (dropWhile_sublist (l := rest) (· ≠ char)).length_le
    simp only [length_tail, length_cons]
    omega
  · exact Nat.lt_succ_self _

def openExpression : List Char := "$\x7b\x7b".toList

def closeExpression : List Char := "\x7d\x7d".toList

/-- Whether the job may render to a context. In an expression any string literal may
be the name. -/
def WorkflowJob.produces (job : WorkflowJob) (context : String) : Bool :=
  match job.nameExpr with
  | none => job.id = context
  | some expr =>
    if (splitFirst openExpression expr.toList).isSome then
      (stringLiterals expr.toList).contains context.toList
    else trimMatches isQuote (trim expr).toList = context.toList

/-! ## Expressions -/

/-- What a `runs-on` expression resolves to, statically. -/
inductive RunsOnResolution where
  | literal (value : String)
  | fromVariable (name : String) (fallback : Option String)
  | dynamic (origin : String) (fromJobs : List String)
  | unparsable (raw : String)
deriving DecidableEq, Repr

/-- The inside of a text that is one expression. -/
def stripExpression (text : List Char) : Option (List Char) :=
  (splitFirst openExpression text).bind fun (before, rest) =>
    (splitLast closeExpression rest).bind fun (inner, after) =>
      if inner.isEmpty then none
      else if trim (String.ofList before) = "" ∧ trim (String.ofList after) = "" then some inner
      else none

def stripCall (text function : List Char) : Option (List Char) :=
  (stripPrefix function text).bind fun rest =>
    (stripPrefix ['('] (rest.dropWhile isWhitespace)).bind (stripSuffix [')'])

def isNameChar (char : Char) : Bool := char.isAlphanum || char = '_'

def stripPrefixIdent (text start : List Char) : Option (List Char) :=
  (stripPrefix start text).bind fun rest =>
    if rest.isEmpty || !rest.all isNameChar then none else some rest

/-- Splits a text at a separator outside of quotes. It is read by bytes: outside of
quotes, the second byte of a character is no place to slice at, and the code panics. -/
def splitTopLevel (separator : List Char) :
    Option Char → List Char → Option (Option (List Char × List Char))
  | _, [] => some none
  | some quote, char :: rest =>
    (splitTopLevel separator (if char = quote then none else some quote) rest).map
      (Option.map fun found => (char :: found.1, found.2))
  | none, char :: rest =>
    if isQuote char then
      (splitTopLevel separator (some char) rest).map
        (Option.map fun found => (char :: found.1, found.2))
    else if separator.isPrefixOf (char :: rest) then
      some (some ([], (char :: rest).drop separator.length))
    else if 1 < char.utf8Size then none
    else
      (splitTopLevel separator none rest).map
        (Option.map fun found => (char :: found.1, found.2))

def trimList (text : List Char) : List Char := (trim (String.ofList text)).toList

/-- The argument of `fromJSON`, once it is known not to be a choice. -/
def resolveArgument (expr : String) (arg : List Char) : RunsOnResolution :=
  match stripPrefixIdent arg "vars.".toList with
  | some name => .fromVariable (String.ofList name) none
  | none =>
    match stripPrefix "needs.".toList arg with
    | some rest =>
      let job := String.ofList (rest.takeWhile (· ≠ '.'))
      if job = "" then .unparsable expr else .dynamic s!"needs.{job} output" [job]
    | none =>
      -- The caller says which job builds the matrix.
      if "matrix.".toList.isPrefixOf arg then .dynamic (String.ofList arg) []
      else .unparsable expr

/-- The resolution, unless the code panics. -/
def resolveRunsOnExpr (expr : String) : Option RunsOnResolution :=
  let trimmed := trim expr
  if trimmed = "" then some (.unparsable expr)
  else
    match stripExpression trimmed.toList with
    | none => some (.literal trimmed)
    | some inner =>
      match stripCall (trimList inner) "fromJSON".toList with
      | none => some (.unparsable expr)
      | some arg =>
        let arg := trimList arg
        (splitTopLevel "||".toList none arg).map fun choice =>
          match choice with
          | none => resolveArgument expr arg
          | some (left, right) =>
            match stripPrefixIdent (trimList left) "vars.".toList with
            | some name => .fromVariable (String.ofList name)
                (some (String.ofList (trimMatches (· = apostrophe) (trimList right))))
            | none => .unparsable expr

/-! ## Needs -/

/-- The first job with an id. -/
def jobNamed (jobs : List WorkflowJob) (id : String) : Option WorkflowJob :=
  jobs.find? fun job => job.id = id

def needsOf (jobs : List WorkflowJob) (id : String) : List String :=
  ((jobNamed jobs id).map WorkflowJob.needs).getD []

/-- The closure of some roots under `needs`, with the roots, sorted. -/
def transitiveNeeds (jobs : List WorkflowJob) (roots : List String) : List String :=
  (Worklist.run (jobs.map WorkflowJob.id) (fun id => (needsOf jobs id).reverse) []
    roots.reverse).insertionSort (· ≤ ·)

section Lookup

variable {jobs : List WorkflowJob} {id : String} {job : WorkflowJob}

theorem jobNamed_id (hfound : jobNamed jobs id = some job) : job.id = id := by
  have hid := find?_some hfound
  exact of_decide_eq_true hid

theorem jobNamed_mem (hfound : jobNamed jobs id = some job) : job ∈ jobs :=
  mem_of_find?_eq_some hfound

/-- One id leads to another: the first job with it needs the other. -/
def Leads (jobs : List WorkflowJob) (id other : String) : Prop :=
  ∃ job, jobNamed jobs id = some job ∧ other ∈ job.needs

theorem mem_transitiveNeeds {roots : List String} :
    id ∈ transitiveNeeds jobs roots ↔
      ∃ root ∈ roots, Relation.ReflTransGen (Leads jobs) root id := by
  have hstep : Worklist.Step (jobs.map WorkflowJob.id) (fun id => (needsOf jobs id).reverse) =
      Leads jobs := by
    funext id other
    rw [Worklist.Step, Leads, mem_reverse, needsOf, eq_iff_iff]
    cases hfound : jobNamed jobs id with
    | none => simp
    | some job =>
      have hid : id ∈ jobs.map WorkflowJob.id :=
        mem_map.mpr ⟨job, jobNamed_mem hfound, jobNamed_id hfound⟩
      simp [hid]
  rw [transitiveNeeds, mem_insertionSort, Worklist.mem_run_iff, hstep]
  simp only [mem_reverse]

end Lookup

end Shipyard.Landability
