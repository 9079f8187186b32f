import Mathlib.Algebra.Group.Int.Defs
import Mathlib.Data.List.Basic

/-!
# JSON values and the reading of their fields

A value read field by field: each accessor gives nothing where the field is
absent or of another kind. Numbers that are not whole are left out.
-/

namespace Lib

inductive Json where
  | null
  | bool (value : Bool)
  | number (value : Int)
  | str (value : String)
  | arr (items : List Json)
  | obj (fields : List (String × Json))

namespace Json

/-- The field of an object. -/
def get? : Json → String → Option Json
  | .obj fields, name => fields.lookup name
  | _, _ => none

/-- The value at a path of field names. -/
def pointer : Json → List String → Option Json
  | json, [] => some json
  | json, name :: path =>
    match json.get? name with
    | some child => pointer child path
    | none => none

def asStr? : Json → Option String
  | .str value => some value
  | _ => none

def asBool? : Json → Option Bool
  | .bool value => some value
  | _ => none

def asArr? : Json → Option (List Json)
  | .arr items => some items
  | _ => none

/-- A number as an unsigned integer of 64 bits. -/
def asU64? : Json → Option Nat
  | .number value => if 0 ≤ value ∧ value < 2 ^ 64 then some value.toNat else none
  | _ => none

def isObj : Json → Bool
  | .obj _ => true
  | _ => false

def isNull : Json → Bool
  | .null => true
  | _ => false

/-- The text of a field. -/
def textAt (json : Json) (path : List String) : Option String := (json.pointer path).bind asStr?

/-- The elements of a list field. -/
def itemsAt (json : Json) (path : List String) : Option (List Json) :=
  (json.pointer path).bind asArr?

theorem get?_of_not_isObj {json : Json} (hkind : json.isObj = false) (name : String) :
    json.get? name = none := by
  cases json with
  | obj fields => cases hkind
  | _ => rfl

variable (json : Json) (name : String) (path : List String)

theorem pointer_pair (first second : String) :
    json.pointer [first, second] = (json.get? first).bind fun child => child.get? second := by
  unfold pointer
  cases json.get? first with
  | none => rfl
  | some child =>
    simp only [pointer, Option.bind_some]
    cases child.get? second <;> rfl

theorem textAt_cons :
    json.textAt (name :: path) = (json.get? name).bind fun child => child.textAt path := by
  rw [textAt, pointer]
  cases json.get? name <;> rfl

theorem itemsAt_cons :
    json.itemsAt (name :: path) = (json.get? name).bind fun child => child.itemsAt path := by
  rw [itemsAt, pointer]
  cases json.get? name <;> rfl

theorem pointer_append (first second : List String) :
    json.pointer (first ++ second) = (json.pointer first).bind fun child =>
      child.pointer second := by
  induction first generalizing json with
  | nil => rfl
  | cons name path ih =>
    rw [List.cons_append, pointer, pointer]
    cases json.get? name with
    | none => rfl
    | some child => exact ih child

theorem itemsAt_append (first second : List String) :
    json.itemsAt (first ++ second) = (json.pointer first).bind fun child =>
      child.itemsAt second := by
  rw [itemsAt, pointer_append, Option.bind_assoc]
  rfl

end Json

end Lib
