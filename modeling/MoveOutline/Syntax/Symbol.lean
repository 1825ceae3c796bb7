import MoveOutline.Syntax.Tree
/-!
# The symbols of the Move grammar

The tags that the grammar of the Move language gives to the nodes that analyses look at. A node
with any other tag has no symbol and is passed over.

**Results.**
* `Symbol.ofKind?_eq_some_iff`: a tag is read as the symbol that it spells.
-/
namespace MoveOutline

/-- A kind of node that analyses look at. -/
inductive Symbol where
  | address
  | addressLiteral
  | moduleDefinition
  | moduleIdentifier
  | moduleBody
  | scriptBlock
  | constant
  | useDecl
  | useMember
  | structDefinition
  | structDefFields
  | annotatedField
  | typeParameters
  | usualFunctionDefinition
  | nativeFunctionDefinition
  | functionIdentifier
  | funcParams
  | applyType
  | tupleType
  | resourceAcquires
  | block
  | publicKeyword
  | funKeyword
  deriving DecidableEq, Repr

namespace Symbol

/-- The grammar's spelling of a symbol. -/
def kind : Symbol → String
  | address => "address"
  | addressLiteral => "address_literal"
  | moduleDefinition => "module_definition"
  | moduleIdentifier => "module_identifier"
  | moduleBody => "module_body"
  | scriptBlock => "script_block"
  | constant => "constant"
  | useDecl => "use_decl"
  | useMember => "use_member"
  | structDefinition => "struct_definition"
  | structDefFields => "struct_def_fields"
  | annotatedField => "field_annotation"
  | typeParameters => "type_parameters"
  | usualFunctionDefinition => "usual_function_definition"
  | nativeFunctionDefinition => "native_function_definition"
  | functionIdentifier => "function_identifier"
  | funcParams => "func_params"
  | applyType => "apply_type"
  | tupleType => "tuple_type"
  -- the grammar has the letter c twice
  | resourceAcquires => "resource_accquires"
  | block => "block"
  | publicKeyword => "public"
  | funKeyword => "fun"

/-- All symbols. -/
def all : List Symbol :=
  [address, addressLiteral, moduleDefinition, moduleIdentifier, moduleBody, scriptBlock, constant,
    useDecl, useMember, structDefinition, structDefFields, annotatedField, typeParameters,
    usualFunctionDefinition, nativeFunctionDefinition, functionIdentifier, funcParams, applyType,
    tupleType, resourceAcquires, block, publicKeyword, funKeyword]

/-- The symbol with a given spelling. -/
def ofKind? (tag : String) : Option Symbol :=
  all.find? fun s => s.kind == tag

theorem ofKind?_kind (s : Symbol) : ofKind? s.kind = some s := by
  cases s <;> rfl

theorem ofKind?_eq_some_iff {tag : String} {s : Symbol} : ofKind? tag = some s ↔ tag = s.kind := by
  constructor
  · intro h
    have := List.find?_some h
    exact (by simpa using this : s.kind = tag).symm
  · rintro rfl
    exact ofKind?_kind s

end Symbol

/-- The symbol that the node's tag spells. -/
def Label.symbol? (l : Label) : Option Symbol :=
  Symbol.ofKind? l.kind

/-- Whether the node stands for a given symbol. -/
def Label.is (l : Label) (s : Symbol) : Bool :=
  l.kind == s.kind

theorem Label.is_iff {l : Label} {s : Symbol} : l.is s ↔ l.symbol? = some s := by
  simp [is, symbol?, Symbol.ofKind?_eq_some_iff]

theorem Label.is_eq (l : Label) (s : Symbol) : l.is s = decide (l.symbol? = some s) := by
  rw [Bool.eq_iff_iff, decide_eq_true_iff]
  exact l.is_iff

end MoveOutline
