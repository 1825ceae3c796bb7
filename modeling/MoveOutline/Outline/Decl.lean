/-!
# Declarations of a source file

The **outline** of a file is a list of modules with their imports, constants, types and
functions, as far as they can be told from the syntax tree. All texts are parts of the source. A
field for which the tree has nothing keeps its default.
-/
namespace MoveOutline

/-- A `use` declaration. -/
structure ImportDecl where
  /-- The address that the module is taken from. -/
  sourceAddress : String := ""
  moduleName : String := ""
  /-- The imported members, in source order. -/
  importedMembers : List String := []
  /-- The whole declaration. -/
  rawText : String := ""
  deriving DecidableEq, Repr

/-- A function, ordinary or native. -/
structure FunctionDecl where
  name : String := ""
  generics : String := ""
  isPublic : Bool := false
  isNative : Bool := false
  parametersText : String := ""
  /-- The declaration without its body. -/
  signatureText : String := ""
  returnTypeText : String := ""
  /-- The resources that the function acquires. -/
  acquiresText : String := ""
  deriving DecidableEq, Repr

/-- A module with its members, each kind of them in source order. -/
structure ModuleDecl where
  /-- Empty when the module has no identifier where one belongs. -/
  name : String := ""
  /-- The literal of the last address block that was met before the module. -/
  address : Option String := none
  /-- The text of every constant. -/
  constants : List String := []
  imports : List ImportDecl := []
  /-- The text of every struct definition. -/
  types : List String := []
  functions : List FunctionDecl := []
  deriving DecidableEq, Repr

namespace ModuleDecl

/-- Whether the module's name is known. -/
def isResolved (m : ModuleDecl) : Bool :=
  m.name != ""

/-- The first function with a given name. -/
def function? (m : ModuleDecl) (name : String) : Option FunctionDecl :=
  m.functions.find? (·.name == name)

end ModuleDecl

end MoveOutline
