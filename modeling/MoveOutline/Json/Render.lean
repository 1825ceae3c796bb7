import MoveOutline.Json.Basic
import MoveOutline.Json.Literal
/-!
# Writing JSON

Values are written without white space. Strings escape the quote, the backslash and the control
characters, and nothing else. Where a value does not say what was written, a representative is:
negative zero for a number that is not natural, and half of a surrogate pair for a string that
denotes no text.
-/
namespace MoveOutline.Json

/-- The literal for a text. -/
def literal : Option String → List Char
  | some text => '"' :: (Literal.body text.toList ++ ['"'])
  | none => ['"', '\\', 'u', 'd', '8', '0', '0', '"']

mutual

/-- The characters of a value. -/
def chars : Json → List Char
  | .null => ['n', 'u', 'l', 'l']
  | .bool true => ['t', 'r', 'u', 'e']
  | .bool false => ['f', 'a', 'l', 's', 'e']
  | .natural n => Nat.toDigits 10 n
  | .otherNumber => ['-', '0']
  | .string text => literal text
  | .array items => '[' :: (itemChars items ++ [']'])
  | .object members => '\x7b' :: (memberChars members ++ ['\x7d'])

/-- The characters of the items of an array. -/
def itemChars : List Json → List Char
  | [] => []
  | [v] => v.chars
  | v :: vs => v.chars ++ ',' :: itemChars vs

/-- The characters of the members of an object. -/
def memberChars : List (Option String × Json) → List Char
  | [] => []
  | [(k, v)] => literal k ++ ':' :: v.chars
  | (k, v) :: ms => literal k ++ ':' :: (v.chars ++ ',' :: memberChars ms)

end

/-- The text of a value. -/
def render (v : Json) : String :=
  String.ofList v.chars

end MoveOutline.Json
