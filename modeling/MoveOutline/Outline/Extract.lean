import MoveOutline.Budget
import MoveOutline.Event
import MoveOutline.Outline.Function
import MoveOutline.Outline.Import
/-!
# The outline of a file

The modules of a file are searched for everywhere below the root, in pre-order. On the way the
last `address` that is followed by a literal is remembered; it is the address of the modules
after it. A module's own subtree is read for members and not searched for further modules, so an
address inside it says nothing about later ones.

Each node below the root is paid for once, by the search or by the reading of a module. When the
budget is overdrawn both stop, and the outline holds what was found so far.
-/
namespace MoveOutline

namespace ModuleDecl

/-- The name in a module definition: its second child, behind the keyword, if that is an
identifier. -/
def nameIn (source : String) (d : Tree) : String :=
  (((d.childLabels[1]?).filter (·.is .moduleIdentifier)).map (·.text source)).getD ""

/-- Puts what one node inside the module declares in front of the module's later members. -/
def note (settings : Settings) (source : String) (d : Tree) (m : ModuleDecl) : ModuleDecl :=
  match d.label.symbol? with
  | some .constant => { m with constants := d.label.text source :: m.constants }
  | some .useDecl => { m with imports := .read source d :: m.imports }
  | some .structDefinition => { m with types := d.label.text source :: m.types }
  | some .usualFunctionDefinition =>
    { m with functions := .read settings source .ordinary d :: m.functions }
  | some .nativeFunctionDefinition =>
    { m with functions := .read settings source .native d :: m.functions }
  | _ => m

/-- The module that a definition declares, as far as the budget pays for its nodes, and what is
left of the budget. -/
def read (settings : Settings) (source : String) (address : Option String) (d : Tree)
    (budget : Budget) : ModuleDecl × Budget :=
  let (paid, budget) := budget.take d.below.preorder
  (paid.foldr (note settings source) { name := nameIn source d, address }, budget)

end ModuleDecl

/-- What the search for modules carries along. -/
structure Search where
  budget : Budget
  /-- The literal of the last address. -/
  address : Option String := none
  deriving DecidableEq, Repr

namespace Search

/-- The address that a node starts, if it is an `address` with a literal for its next sibling. -/
def addressAt (source : String) (label : Label) (after : Forest) : Option String :=
  if label.is .address then
    (after.firstLabel?.filter (·.is .addressLiteral)).map (·.text source)
  else none

/-- The modules in a forest, and the search after it. -/
def modules (settings : Settings) (source : String) : Forest → Search → List ModuleDecl × Search
  | .nil, s => ([], s)
  | .cons label below rest, s =>
    match s.budget.spend with
    | (false, budget) => ([], { s with budget })
    | (true, budget) =>
      let address := (addressAt source label rest).or s.address
      if label.is .moduleDefinition then
        let (found, budget) := ModuleDecl.read settings source address ⟨label, below⟩ budget
        let (later, s) := modules settings source rest { budget, address }
        (found :: later, s)
      else
        let (inside, s) := modules settings source below { budget, address }
        let (later, s) := modules settings source rest s
        (inside ++ later, s)

end Search

/-- The outline of a file, given its text and the tree of it. An empty text has no modules,
whatever the tree. -/
def outline (settings : Settings) (t : Tree) (source : String) : Logged (List ModuleDecl) :=
  if source = "" then ⟨[], []⟩
  else
    let (found, s) := Search.modules settings source t.below
      { budget := .ofLimit settings.nodeBudget }
    match s.budget, settings.nodeBudget with
    | .overdrawn, some limit => ⟨found, [.extractionStopped limit found.length]⟩
    | _, _ => ⟨found, []⟩

end MoveOutline
