import MoveOutline.Json.Token
/-!
# Reading JSON

The tokens of a text are read from left to right. A **state** says what may come next, and keeps
the containers that are still open, the innermost first, so the depth of a text is not limited.
-/
namespace MoveOutline.Json

/-- A container that is still open, with the items or members before the current one, the latest
first. -/
inductive Container where
  | array (items : List Json)
  | object (members : List (Option String × Json)) (key : Option String)
  deriving Repr

/-- What may come next. -/
inductive State where
  /-- A value. -/
  | value (around : List Container)
  /-- The first item of an array, or its end. -/
  | firstItem (around : List Container)
  /-- The first key of an object, or its end. -/
  | firstKey (around : List Container)
  /-- A further key of an object. -/
  | key (members : List (Option String × Json)) (around : List Container)
  /-- The colon behind a key. -/
  | colon (members : List (Option String × Json)) (key : Option String) (around : List Container)
  /-- What follows a finished value. -/
  | after (v : Json) (around : List Container)
  deriving Repr

namespace State

/-- The state after a token that starts a value. -/
def begin? (around : List Container) : Token → Option State
  | .openBracket => some (firstItem around)
  | .openBrace => some (firstKey around)
  | .string text => some (after (.string text) around)
  | .plain v => some (after v around)
  | _ => none

/-- The state after a token. -/
def step? : State → Token → Option State
  | value around, t => begin? around t
  | firstItem around, .closeBracket => some (after (.array []) around)
  | firstItem around, t => begin? (.array [] :: around) t
  | firstKey around, .closeBrace => some (after (.object []) around)
  | firstKey around, .string k => some (colon [] k around)
  | key members around, .string k => some (colon members k around)
  | colon members k around, .colon => some (value (.object members k :: around))
  | after v (.array items :: around), .comma => some (value (.array (v :: items) :: around))
  | after v (.array items :: around), .closeBracket =>
    some (after (.array (v :: items).reverse) around)
  | after v (.object members k :: around), .comma => some (key ((k, v) :: members) around)
  | after v (.object members k :: around), .closeBrace =>
    some (after (.object ((k, v) :: members).reverse) around)
  | _, _ => none

/-- The value that has been read, if nothing is open. -/
def finish? : State → Option Json
  | after v [] => some v
  | _ => none

end State

/-- The value that a sequence of tokens writes. -/
def ofTokens? (ts : List Token) : Option Json :=
  (ts.foldlM State.step? (State.value [])).bind State.finish?

/-- The value that a text writes. -/
def parse? (text : String) : Option Json :=
  (tokens? text.toList).bind ofTokens?

end MoveOutline.Json
