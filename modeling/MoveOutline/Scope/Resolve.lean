import MoveOutline.Budget
import MoveOutline.Event
import MoveOutline.Settings
import MoveOutline.Syntax.Locate
import MoveOutline.Syntax.Symbol
/-!
# The scope of a point

The scope is read off the path from the innermost node at the point up to the root. Each node on
it is paid for and classified by its symbol, some by their parent's as well, and a module
definition may give the scope its name. The root is not classified: a point that hits nothing
else is in no context.
-/
namespace MoveOutline

/-- The context that a node makes for what is in it, given its parent. -/
def Context.of? (settings : Settings) (label parent : Label) : Option Context :=
  match label.symbol? with
  | some .annotatedField => if parent.is .structDefFields then some structField else none
  | some .structDefFields => some structField
  | some .structDefinition => some structDefinition
  | some .moduleBody => some moduleBody
  | some .scriptBlock => some scriptBlock
  | some .useDecl => some importDecl
  | some .usualFunctionDefinition =>
    if settings.functionContexts then some functionDefinition else none
  | some .nativeFunctionDefinition =>
    if settings.functionContexts then some functionDefinition else none
  | some .block => if parent.is .usualFunctionDefinition then some functionBody else none
  | some .funcParams => if parent.is .usualFunctionDefinition then some functionArguments else none
  | some .typeParameters => if parent.is .structDefinition then some structGeneric else none
  | _ => none

namespace Scope

/-- The name that a module definition gives to scopes: that of its first identifier behind the
keyword. -/
def nameIn? (source : String) (d : Tree) : Option String :=
  ((d.childLabels.drop 1).find? (·.is .moduleIdentifier)).map (·.text source)

/-- The name of the scope so far and the name of a module further out, of which the policy keeps
one. -/
def pickName : NamePolicy → Option String → Option String → Option String
  | .outermost, inner, outer => outer.or inner
  | .nearest, inner, outer => inner.or outer

/-- The scope so far, extended by a node further out. -/
def enter (settings : Settings) (source : String) (here : Level) (parent : Label) (s : Scope) :
    Scope :=
  { moduleName :=
      if here.label.is .moduleDefinition then
        pickName settings.namePolicy s.moduleName (nameIn? source ⟨here.label, here.below⟩)
      else s.moduleName
    contexts := s.contexts ++ (Context.of? settings here.label parent).toList }

/-- Climbs from a node along the path above it, up to the root or the end of the budget. -/
def climb (settings : Settings) (source : String) :
    Level → List Level → Budget → Scope → Scope × Budget
  | _, [], budget, s => (s, budget)
  | here, parent :: above, budget, s =>
    match budget.spend with
    | (false, budget) => (s, budget)
    | (true, budget) =>
      climb settings source parent above budget (s.enter settings source here parent.label)

end Scope

/-- The scope of a point, given the text of a file and the tree of it. -/
def scopeAt (settings : Settings) (t : Tree) (source : String) (p : Point) : Logged Scope :=
  let n := t.descendantAt p
  let (s, budget) := Scope.climb settings source n.here n.above (.ofLimit settings.nodeBudget) {}
  { value := s
    events := (if budget = .overdrawn then [.scopeStopped p] else []) ++ [.scopeResolved p s] }

end MoveOutline
