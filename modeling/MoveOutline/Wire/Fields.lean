import MoveOutline.Json.Basic
/-!
# Reading records from JSON

A record is written as an object whose keys are the names of its fields, or as an array of their
values in the order of the fields. In an object, members with other keys are passed over and a
field may not occur twice. `slots?` brings both forms to the same shape, a list that has for
every field its value or the information that it is missing. What a missing or a `null` value
means is up to the field.
-/
namespace MoveOutline.Json

/-- The value of a field in an object, if it occurs; there is no answer if it occurs twice. -/
def slot? (members : List (Option String × Json)) (name : String) : Option (Option Json) :=
  match members.filter (·.1 = some name) with
  | [] => some none
  | [(_, v)] => some (some v)
  | _ => none

/-- Whether the array form of a record may end before its last field. -/
inductive ArrayForm where
  | complete
  | mayEndEarly
  deriving DecidableEq, Repr

/-- The values of the named fields, each if it occurs. -/
def slots? (names : List String) (form : ArrayForm) : Json → Option (List (Option Json))
  | .object members =>
    if members.all (·.1.isSome) then names.mapM (slot? members) else none
  | .array items =>
    if items.length = names.length ∨ form = .mayEndEarly ∧ items.length ≤ names.length then
      some (items.map some ++ List.replicate (names.length - items.length) none)
    else none
  | _ => none

/-! ## Fields -/

section Fields

variable {α : Type}

/-- A field that must occur. -/
def required (read : Json → Option α) (slot : Option Json) : Option α :=
  slot.bind read

/-- A field that may be missing or `null`. -/
def optional (read : Json → Option α) : Option Json → Option (Option α)
  | none => some none
  | some .null => some none
  | some v => (read v).map some

/-- A field that may be missing and then has a default. -/
def defaulted (read : Json → Option α) (default : α) : Option Json → Option α
  | none => some default
  | some v => read v

end Fields

/-! ## Values of fields -/

/-- Words have 64 bits. -/
def wordLimit : Nat := UInt64.size

/-- A natural number that fits a word. -/
def word? : Json → Option Nat
  | .natural n => if n < wordLimit then some n else none
  | _ => none

/-- A truth value. -/
def bool? : Json → Option Bool
  | .bool b => some b
  | _ => none

/-- A string that denotes a text. -/
def text? : Json → Option String
  | .string text => text
  | _ => none

/-- A list of values that are all read in the same way. -/
def list? {α : Type} (read : Json → Option α) : Json → Option (List α)
  | .array items => items.mapM read
  | _ => none

/-- The name of an alternative, written as a string or as an object that gives it the value
`null`. -/
def alternative? : Json → Option String
  | .string text => text
  | .object [(k, .null)] => k
  | _ => none

end MoveOutline.Json
