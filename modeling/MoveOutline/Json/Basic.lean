/-!
# JSON values

A JSON value as far as the wire format of this library tells values apart. All numbers that it
uses are natural numbers written with digits alone; of a number with a sign, a fraction or an
exponent nothing is kept but that it is a number, since no field has such a value. A string
literal may denote no text at all (see `MoveOutline.Json.Literal`), which only matters where the
text is needed.
-/
namespace MoveOutline

/-- A JSON value. -/
inductive Json where
  | null
  | bool (b : Bool)
  /-- A number written with digits alone. -/
  | natural (n : Nat)
  /-- A number written with a sign, a fraction or an exponent. -/
  | otherNumber
  /-- A string, by the text that it denotes. -/
  | string (text : Option String)
  | array (items : List Json)
  /-- The members in the order in which they are written; a key may occur more than once. -/
  | object (members : List (Option String × Json))
  deriving Inhabited, Repr

namespace Json

/-- The string with a given text. -/
def ofText (text : String) : Json :=
  .string (some text)

/-- The array of strings with given texts. -/
def ofTexts (texts : List String) : Json :=
  .array (texts.map ofText)

/-- What there is, or `null`. -/
def ofOption {α : Type} (write : α → Json) : Option α → Json
  | none => .null
  | some a => write a

/-- The object with given keys and values. -/
def record (members : List (String × Json)) : Json :=
  .object (members.map fun m => (some m.1, m.2))

end Json

end MoveOutline
