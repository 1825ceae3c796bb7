/-!
# Lexical contexts

The syntactic regions that can enclose a point, and the **scope** of a point: the regions that
do, together with the name of the module around it.

**Results.**
* `Context.ofName?_eq_some_iff`: a name is read as the context that it spells.
-/
namespace MoveOutline

/-- A syntactic region that a point can lie in. -/
inductive Context where
  | structField
  | structGeneric
  | structDefinition
  | moduleBody
  | scriptBlock
  | importDecl
  | functionDefinition
  | functionArguments
  | functionBody
  deriving DecidableEq, Repr

namespace Context

/-- The name of a context in data. -/
def name : Context → String
  | structField => "StructField"
  | structGeneric => "StructGeneric"
  | structDefinition => "StructDefinition"
  | moduleBody => "Module"
  | scriptBlock => "Script"
  | importDecl => "Import"
  | functionDefinition => "FunctionDefinition"
  | functionArguments => "FunctionArguments"
  | functionBody => "FunctionBody"

/-- The context in words. -/
def describe : Context → String
  | structField => "struct field"
  | structGeneric => "struct generics"
  | structDefinition => "struct definition"
  | moduleBody => "module"
  | scriptBlock => "script"
  | importDecl => "import"
  | functionDefinition => "function definition"
  | functionArguments => "function arguments"
  | functionBody => "function body"

/-- All contexts. -/
def all : List Context :=
  [structField, structGeneric, structDefinition, moduleBody, scriptBlock, importDecl,
    functionDefinition, functionArguments, functionBody]

/-- The context with a given name. -/
def ofName? (text : String) : Option Context :=
  all.find? fun c => c.name == text

theorem ofName?_name (c : Context) : ofName? c.name = some c := by
  cases c <;> rfl

theorem ofName?_eq_some_iff {text : String} {c : Context} :
    ofName? text = some c ↔ text = c.name := by
  constructor
  · intro h
    have := List.find?_some h
    exact (by simpa using this : c.name = text).symm
  · rintro rfl
    exact ofName?_name c

end Context

/-- What encloses a point. -/
structure Scope where
  /-- The name of the module around the point. -/
  moduleName : Option String := none
  /-- The regions around the point, the innermost first. -/
  contexts : List Context := []
  deriving DecidableEq, Repr

namespace Scope

/-- The region closest to the point. -/
def innermost? (s : Scope) : Option Context :=
  s.contexts.head?

/-- Whether the point lies in a region of a given sort. -/
def isInside (s : Scope) (c : Context) : Bool :=
  s.contexts.contains c

/-- Whether neither a region nor a module encloses the point. -/
def isEmpty (s : Scope) : Bool :=
  s.contexts.isEmpty && s.moduleName.isNone

end Scope

end MoveOutline
