import MoveOutline.Json.Parse
import MoveOutline.Json.Render
import MoveOutline.Outline.Decl
import MoveOutline.Scope.Context
import MoveOutline.Settings
import MoveOutline.Syntax.Point
import MoveOutline.Wire.Fields
/-!
# The wire format

Settings come from an editor and declarations, scopes and points go to it, all as JSON. Every
record has a list of field names in a fixed order, a `toJson` and an `ofJson?`. Only the fields
of the settings may all be missing; the address of a module and the name of a scope may be
missing or `null`.
-/
namespace MoveOutline

/-! ## Points -/

namespace Point

def fields : List String := ["row", "column"]

def toJson (p : Point) : Json :=
  .record [("row", .natural p.row), ("column", .natural p.column)]

def ofJson? (v : Json) : Option Point :=
  match v.slots? fields .complete with
  | some [row, column] => do
    return ⟨← Json.required Json.word? row, ← Json.required Json.word? column⟩
  | _ => none

end Point

/-! ## Settings -/

namespace NamePolicy

def name : NamePolicy → String
  | outermost => "outermost"
  | nearest => "nearest"

def ofName? (text : String) : Option NamePolicy :=
  [outermost, nearest].find? fun p => p.name == text

def toJson (p : NamePolicy) : Json :=
  .ofText p.name

def ofJson? (v : Json) : Option NamePolicy :=
  v.alternative?.bind ofName?

end NamePolicy

namespace NativePolicy

def name : NativePolicy → String
  | byDeclarationKind => "byDeclarationKind"
  | alwaysNative => "alwaysNative"

def ofName? (text : String) : Option NativePolicy :=
  [byDeclarationKind, alwaysNative].find? fun p => p.name == text

def toJson (p : NativePolicy) : Json :=
  .ofText p.name

def ofJson? (v : Json) : Option NativePolicy :=
  v.alternative?.bind ofName?

end NativePolicy

namespace Settings

def fields : List String :=
  ["moduleNamePolicy", "nativeFlag", "nodeBudget", "functionDefinitionContext"]

def toJson (s : Settings) : Json :=
  .record
    [("moduleNamePolicy", s.namePolicy.toJson),
      ("nativeFlag", s.nativePolicy.toJson),
      ("nodeBudget", .ofOption .natural s.nodeBudget),
      ("functionDefinitionContext", .bool s.functionContexts)]

def ofJson? (v : Json) : Option Settings :=
  match v.slots? fields .mayEndEarly with
  | some [namePolicy, nativePolicy, nodeBudget, functionContexts] => do
    return {
      namePolicy := ← Json.defaulted NamePolicy.ofJson? .outermost namePolicy
      nativePolicy := ← Json.defaulted NativePolicy.ofJson? .byDeclarationKind nativePolicy
      nodeBudget := ← Json.optional Json.word? nodeBudget
      functionContexts := ← Json.defaulted Json.bool? false functionContexts }
  | _ => none

end Settings

/-! ## Declarations -/

namespace ImportDecl

def fields : List String :=
  ["sourceAddress", "moduleName", "importedMembers", "rawText"]

def toJson (d : ImportDecl) : Json :=
  .record
    [("sourceAddress", .ofText d.sourceAddress),
      ("moduleName", .ofText d.moduleName),
      ("importedMembers", .ofTexts d.importedMembers),
      ("rawText", .ofText d.rawText)]

def ofJson? (v : Json) : Option ImportDecl :=
  match v.slots? fields .complete with
  | some [sourceAddress, moduleName, importedMembers, rawText] => do
    return {
      sourceAddress := ← Json.required Json.text? sourceAddress
      moduleName := ← Json.required Json.text? moduleName
      importedMembers := ← Json.required (Json.list? Json.text?) importedMembers
      rawText := ← Json.required Json.text? rawText }
  | _ => none

end ImportDecl

namespace FunctionDecl

def fields : List String :=
  ["name", "generics", "isPublic", "isNative", "parametersText", "signatureText", "returnTypeText",
    "acquiresText"]

def toJson (d : FunctionDecl) : Json :=
  .record
    [("name", .ofText d.name),
      ("generics", .ofText d.generics),
      ("isPublic", .bool d.isPublic),
      ("isNative", .bool d.isNative),
      ("parametersText", .ofText d.parametersText),
      ("signatureText", .ofText d.signatureText),
      ("returnTypeText", .ofText d.returnTypeText),
      ("acquiresText", .ofText d.acquiresText)]

def ofJson? (v : Json) : Option FunctionDecl :=
  match v.slots? fields .complete with
  | some [name, generics, isPublic, isNative, parametersText, signatureText, returnTypeText,
      acquiresText] => do
    return {
      name := ← Json.required Json.text? name
      generics := ← Json.required Json.text? generics
      isPublic := ← Json.required Json.bool? isPublic
      isNative := ← Json.required Json.bool? isNative
      parametersText := ← Json.required Json.text? parametersText
      signatureText := ← Json.required Json.text? signatureText
      returnTypeText := ← Json.required Json.text? returnTypeText
      acquiresText := ← Json.required Json.text? acquiresText }
  | _ => none

end FunctionDecl

namespace ModuleDecl

def fields : List String :=
  ["name", "address", "constants", "imports", "types", "functions"]

def toJson (d : ModuleDecl) : Json :=
  .record
    [("name", .ofText d.name),
      ("address", .ofOption .ofText d.address),
      ("constants", .ofTexts d.constants),
      ("imports", .array (d.imports.map ImportDecl.toJson)),
      ("types", .ofTexts d.types),
      ("functions", .array (d.functions.map FunctionDecl.toJson))]

/-- In an array the address has a place of its own, so only `null` stands for no address there. -/
def ofJson? (v : Json) : Option ModuleDecl :=
  match v.slots? fields .complete with
  | some [name, address, constants, imports, types, functions] => do
    return {
      name := ← Json.required Json.text? name
      address := ← Json.optional Json.text? address
      constants := ← Json.required (Json.list? Json.text?) constants
      imports := ← Json.required (Json.list? ImportDecl.ofJson?) imports
      types := ← Json.required (Json.list? Json.text?) types
      functions := ← Json.required (Json.list? FunctionDecl.ofJson?) functions }
  | _ => none

end ModuleDecl

/-! ## Scopes -/

namespace Context

def toJson (c : Context) : Json :=
  .ofText c.name

def ofJson? (v : Json) : Option Context :=
  v.alternative?.bind ofName?

end Context

namespace Scope

def fields : List String :=
  ["enclosingModuleName", "contextStack"]

def toJson (s : Scope) : Json :=
  .record
    [("enclosingModuleName", .ofOption .ofText s.moduleName),
      ("contextStack", .array (s.contexts.map Context.toJson))]

def ofJson? (v : Json) : Option Scope :=
  match v.slots? fields .complete with
  | some [moduleName, contexts] => do
    return {
      moduleName := ← Json.optional Json.text? moduleName
      contexts := ← Json.required (Json.list? Context.ofJson?) contexts }
  | _ => none

end Scope

end MoveOutline
