import MoveOutline.Outline.Decl
import MoveOutline.Settings
import MoveOutline.Syntax.Symbol
import MoveOutline.Text.Edit
/-!
# Reading a function definition

A function is defined in the **ordinary** form, with a body, or in the **native** form, without
one. Its record is filled in from the direct children of the definition, in order; where two
children give the same field, the later one counts.

The two forms differ in three fields.
* The signature of an ordinary function is its text before the first opening brace, trimmed; a
  native function is all signature.
* An ordinary function is public if `public` is its first child. The keywords `native` and
  `public` may come in either order, so a native function is public if `public` stands before
  `fun`.
* The acquired resources of an ordinary function are given without the keyword in front of them.
-/
namespace MoveOutline

/-- The two forms of a function definition. -/
inductive FunctionForm where
  | ordinary
  | native
  deriving DecidableEq, Repr

/-- The form that a node defines a function in, if it does. -/
def FunctionForm.ofSymbol? : Symbol → Option FunctionForm
  | .usualFunctionDefinition => some ordinary
  | .nativeFunctionDefinition => some native
  | _ => none

namespace FunctionDecl

/-- The text before the body, which starts at the first opening brace, without blanks around it. -/
def signatureOf (text : String) : String :=
  String.ofList (Text.trim (Text.before '\x7b' text.toList))

/-- The keyword that comes before the acquired resources. -/
def acquiresKeyword : String := "acquires"

/-- The clause without its keyword and without blanks around it. -/
def resourcesOf (clause : String) : String :=
  String.ofList (Text.trim (Text.eraseFirst acquiresKeyword.toList clause.toList))

/-- The signature, given the text of the whole definition. -/
def signature : FunctionForm → String → String
  | .ordinary, text => signatureOf text
  | .native, text => text

/-- The acquired resources, given the text of the clause that names them. -/
def acquires : FunctionForm → String → String
  | .ordinary, clause => resourcesOf clause
  | .native, clause => clause

/-- Whether a definition with the given children is public. -/
def hasPublic : FunctionForm → List Label → Bool
  | .ordinary, children => children.head?.any (·.is .publicKeyword)
  | .native, children => (children.takeWhile (!·.is .funKeyword)).any (·.is .publicKeyword)

/-- Fills in what one child of the definition tells. -/
def note (source : String) (form : FunctionForm) (f : FunctionDecl) (child : Label) :
    FunctionDecl :=
  match child.symbol? with
  | some .functionIdentifier => { f with name := child.text source }
  | some .funcParams => { f with parametersText := child.text source }
  | some .typeParameters => { f with generics := child.text source }
  | some .applyType => { f with returnTypeText := child.text source }
  | some .tupleType => { f with returnTypeText := child.text source }
  | some .resourceAcquires => { f with acquiresText := acquires form (child.text source) }
  | _ => f

/-- The function that a definition of the given form declares. -/
def read (settings : Settings) (source : String) (form : FunctionForm) (d : Tree) : FunctionDecl :=
  let children := d.childLabels
  children.foldl (note source form)
    { isPublic := hasPublic form children
      isNative := settings.nativePolicy.isNative (form == .native)
      signatureText := signature form (d.label.text source) }

end FunctionDecl

end MoveOutline
