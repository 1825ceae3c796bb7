import MoveOutline.Scope.Context
import MoveOutline.Syntax.Error
import MoveOutline.Syntax.Point
import MoveOutline.Text.Edit
/-!
# Events

Analyses report what they do as a list of **events**, next to their answer. An event is a
warning when an answer may be less than was asked for, and otherwise it is there for debugging.
-/
namespace MoveOutline

/-- Something that an analysis reports. -/
inductive Event where
  | documentOpened (uri : String)
  | documentChanged (uri : String)
  | documentClosed (uri : String)
  /-- The parser had no tree for the document's text. -/
  | notParsed (uri : String) (cause : SyntaxError)
  /-- The document was parsed, and there is text in it that could not be read. -/
  | parsedWithErrors (uri : String)
  | extracted (modules : Nat) (uri : String)
  | reextracted (documents : Nat)
  /-- The search for declarations ran out of its budget. -/
  | extractionStopped (budget : Nat) (modules : Nat)
  /-- The way from a point to the root ran out of its budget. -/
  | scopeStopped (point : Point)
  | scopeResolved (point : Point) (scope : Scope)
  deriving DecidableEq, Repr

/-- How much an event matters. -/
inductive EventLevel where
  | debug
  | warning
  deriving DecidableEq, Repr

/-- The name of a level in a report. -/
def EventLevel.name : EventLevel → String
  | debug => "DEBUG"
  | warning => "WARN"

namespace Event

/-- Warnings are the events that say why an answer is incomplete. -/
def level : Event → EventLevel
  | notParsed .. | extractionStopped .. | scopeStopped .. => .warning
  | _ => .debug

/-- The name of a module in a message. -/
def nameText : Option String → String
  | none => "None"
  | some name => "Some(" ++ Text.quoted name ++ ")"

/-- A list of contexts in a message. -/
def contextsText (contexts : List Context) : String :=
  "[" ++ String.intercalate ", " (contexts.map Context.name) ++ "]"

/-- The event in words. -/
def message : Event → String
  | documentOpened uri => "Document opened: " ++ uri
  | documentChanged uri => "Document changed: " ++ uri
  | documentClosed uri => "Document closed: " ++ uri
  | notParsed uri cause => "Unable to parse " ++ uri ++ ": " ++ cause.message
  | parsedWithErrors uri => uri ++ " parsed with syntax errors"
  | extracted modules uri => "Extracted " ++ toString modules ++ " module(s) from " ++ uri
  | reextracted documents => "Re-extracted " ++ toString documents ++ " open document(s)"
  | extractionStopped budget modules =>
    "Declaration walk stopped after Some(" ++ toString budget ++ ") nodes, returning " ++
      toString modules ++ " module(s) found so far"
  | scopeStopped point => "Scope walk at " ++ point.text ++ " ran out of node budget"
  | scopeResolved point scope =>
    "Scope at " ++ point.text ++ ": module " ++ nameText scope.moduleName ++ ", stack " ++
      contextsText scope.contexts

/-- Level and message in one line. -/
def line (e : Event) : String :=
  e.level.name ++ " " ++ e.message

end Event

/-- An answer, with the events on the way to it in the order in which they happened. -/
structure Logged (α : Type) where
  value : α
  events : List Event := []
  deriving DecidableEq, Repr

end MoveOutline
