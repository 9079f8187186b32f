import Shipyard.Lib.Regex
import Shipyard.MergeSteward.Checks
import Shipyard.PrQueue.ArmGuard

/-!
# The texts of verdict comments

What `head_approval.rs` reads in the body of a review or comment: the verdict on
its last line, the stamps that `ghapp` adds, and the signer and session lines that
a reviewer writes. The patterns are those of the source, part by part.
-/

namespace Shipyard.HeadApproval

open Lib
open MergeSteward (trim)
open PrQueue (eqIgnoreAsciiCase toAsciiLowercase toAsciiUppercase)

inductive Verdict where
  | approve
  | hold
deriving DecidableEq, Repr

/-! ## Character classes -/

variable (char : Char)

/-- `[ \t]` -/
def isBlank : Bool := char = ' ' || char = '\t'

/-- `[0-9a-f]` -/
def isLowerHex : Bool := char.isDigit || ('a' ≤ char && char ≤ 'f')

/-- `[!-~]` -/
def isPrintable : Bool := '!' ≤ char && char ≤ '~'

/-- `[!-.0-~]`: printable, and no slash. -/
def isHostChar : Bool := isPrintable char && char ≠ '/'

/-- `[A-Za-z0-9._-]` -/
def isNameChar : Bool := char.isAlphanum || char = '.' || char = '_' || char = '-'

def blanks : Regex := .star true (.one isBlank)

/-! ## The verdict line -/

/-- The line boundaries of Python's `str.splitlines`. -/
def isLineBreak : Bool :=
  char ∈ ['\n', '\r', '\x0b', '\x0c', '\x1c', '\x1d', '\x1e', '\u0085', '\u2028', '\u2029']

def pythonLines (body : String) : List String :=
  (body.toList.splitOnP isLineBreak).map String.ofList

/-- `^[ \t]*(?:reviewed:[ \t]*([0-9a-f]{40})|verdict:[ \t]*(APPROVE|HOLD)[ \t]+head:[ \t]*`
`([0-9a-f]{40}))[ \t]*$` -/
def markerPattern : Regex :=
  let sha (index : Nat) : Regex := .group index (.times 40 (.one isLowerHex))
  .concat [.start, blanks,
    .alt (.concat [.text "reviewed:", blanks, sha 1])
      (.concat [.text "verdict:", blanks, .group 2 (.alt (.text "APPROVE") (.text "HOLD")),
        .plus true (.one isBlank), .text "head:", blanks, sha 3]),
    blanks, .stop]

/-- The groups of the marker on one line. -/
def markerCaptures (line : String) : Option Regex.Captures :=
  (markerPattern.matchAt ⟨none, line.toList⟩).map Prod.snd

def lastLine (body : String) : Option String :=
  (pythonLines body).reverse.find? fun line => trim line ≠ ""

def wordVerdict : String → Option Verdict
  | "APPROVE" => some .approve
  | "HOLD" => some .hold
  | _ => none

/-- The verdict of a body, and the head it names. -/
def markerVerdict (body : String) : Option (Verdict × String) :=
  match (lastLine body).bind markerCaptures with
  | none => none
  | some captures =>
    match Regex.capture captures 1 with
    | some head => some (.approve, toAsciiLowercase head)
    | none =>
      (Regex.capture captures 2).bind fun word =>
        (wordVerdict (toAsciiUppercase word)).bind fun verdict =>
          (Regex.capture captures 3).map fun head => (verdict, toAsciiLowercase head)

def markerNamesHead (body head : String) : Bool :=
  (markerVerdict body).any fun (verdict, markerHead) =>
    verdict = .approve && eqIgnoreAsciiCase markerHead head

/-! ## Stamps -/

/-- `<!-- session: ([!-.0-~]+)/([!-~]+?)(?: agent: ([!-~]+?))? -->` -/
def stampPattern : Regex :=
  .concat [.text "<!-- session: ", .group 1 (.plus true (.one isHostChar)), .text "/",
    .group 2 (.plus false (.one isPrintable)),
    .optional (.concat [.text " agent: ", .group 3 (.plus false (.one isPrintable))]),
    .text " -->"]

/-- The characters that `(?i)` takes for a lower-case letter of `session`: either
case, and the long s for an s. -/
def foldsTo (letter char : Char) : Bool := char.toLower = letter || (letter = 's' && char = 'ſ')

/-- `(?i)<!--\s*session\s*:`, with the characters of `\s`. -/
def stampVariant (isSpace : Char → Bool) : Regex :=
  .concat [.text "<!--", .star true (.one isSpace), .litBy foldsTo "session".toList,
    .star true (.one isSpace), .text ":"]

/-- Text like a stamp that is not one. -/
def noncanonicalStamp (body : String) : Bool :=
  (stampVariant isWhitespace).isMatch (stampPattern.removeAll body)

def lastStamp (body : String) : Option Regex.Captures := (stampPattern.capturesIter body).getLast?

def stampedSession (body : String) : Option String :=
  (lastStamp body).bind fun captures => Regex.capture captures 2

def stampedAgent (body : String) : Option String :=
  (lastStamp body).bind fun captures => Regex.capture captures 3

/-- The `host agent:id` identity of the last stamp. -/
def stampedIdentity (body : String) : Option String :=
  (lastStamp body).bind fun captures =>
    match Regex.capture captures 1, Regex.capture captures 3 with
    | some host, some agent => some (toAsciiLowercase (host ++ " agent:" ++ agent))
    | _, _ => none

/-! ## Signer and session lines -/

/-- `(?m)^[ \t]*reviewer:[ \t]*([A-Za-z0-9._-]+)[ \t]*$` -/
def signerPattern : Regex :=
  .concat [.start, blanks, .text "reviewer:", blanks, .group 1 (.plus true (.one isNameChar)),
    blanks, .stop]

/-- The names on the signer lines, in lower case. -/
def signedNames (body : String) : List String :=
  (signerPattern.capturesIter body).filterMap fun captures =>
    (Regex.capture captures 1).map toAsciiLowercase

/-- `(?m)^[ \t]*session:[ \t]*(.*?)[ \t]*$` -/
def sessionPattern : Regex :=
  .concat [.start, blanks, .text "session:", blanks,
    .group 1 (.star false (.one (· ≠ '\n'))), blanks, .stop]

/-- A session line without a leading `session:`. -/
def sessionValue (line : String) : String :=
  let text := trim line
  if eqIgnoreAsciiCase (String.ofList (text.toList.take 8)) "session:" then
    trim (String.ofList (text.toList.drop 8))
  else text

/-- `\bhost[ \t]+([^\s,()]+)[ \t]*\)?[ \t]*$`, with the word characters of `\b`. -/
def sessionHostPattern (isWord : Char → Bool) : Regex :=
  .concat [.wordBoundary isWord, .text "host", .plus true (.one isBlank),
    .group 1 (.plus true (.one fun char =>
      !isWhitespace char && char ≠ ',' && char ≠ '(' && char ≠ ')')),
    blanks, .optional (.text ")"), blanks, .stop]

/-! ## Logins and globs -/

/-- The text without a leading part, when it starts with it. -/
def stripStart (start text : List Char) : List Char :=
  if start.isPrefixOf text then text.drop start.length else text

/-- A login without the marks of an App. -/
def plainLogin (value : String) : String :=
  let name := stripStart "app/".toList value.toList
  String.ofList (stripStart "[bot]".toList.reverse name.reverse).reverse

def normalizedLogin (value : String) : String := toAsciiLowercase (plainLogin value)

def isFleetAuthor (login : String) : Bool := normalizedLogin login = "shipyard-local"

/-- `*` is any run of symbols of one segment and `?` one symbol. -/
def segmentMatch {α : Type} [DecidableEq α] (any one : α) : List α → List α → Bool
  | [], text => text.isEmpty
  | symbol :: pattern, text =>
    if symbol = any then text.tails.any (segmentMatch any one pattern)
    else
      match text with
      | [] => false
      | head :: rest => (symbol = one || symbol = head) && segmentMatch any one pattern rest

/-- `**` is any number of segments. -/
def segmentsMatch (segment : String → String → Bool) : List String → List String → Bool
  | [], parts => parts.isEmpty
  | pattern :: rest, parts =>
    if pattern = "**" then parts.tails.any (segmentsMatch segment rest)
    else
      match parts with
      | [] => false
      | part :: others => segment pattern part && segmentsMatch segment rest others

def pathSegments (path : String) : List String := (path.toList.splitOn '/').map String.ofList

def utf8 (text : String) : List UInt8 := text.toList.flatMap String.utf8EncodeChar

def globMatch (pattern path : String) : Bool :=
  segmentsMatch (fun pattern part => segmentMatch 42 63 (utf8 pattern) (utf8 part))
    (pathSegments pattern) (pathSegments path)

example : globMatch "src/**/*.rs" "src/app/ship_cmd/auto_arm.rs" = true := by decide +kernel

end Shipyard.HeadApproval
