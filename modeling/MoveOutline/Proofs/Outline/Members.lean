import MoveOutline.Outline.Extract
import MoveOutline.Proofs.Budget
import MoveOutline.Proofs.Syntax.Ancestry
/-!
# What a module declares

The record of a module, made from its node, its address and a list of nodes in it
(`ModuleDecl.ofMembers`): each of the four lists is that list of nodes, cut down to the symbols
that belong there and read one by one. Reading a module makes this record, from the nodes in its
subtree that the budget pays for.

Results:
* `ModuleDecl.read_before`: which nodes the reading of a module takes, and what it leaves.
* `ModuleDecl.ofMembers_isStartOf`: fewer nodes make the start of a record.
-/
namespace MoveOutline

/-- The form that a node defines a function in, if it does. -/
def Node.functionForm? (n : Node) : Option FunctionForm :=
  n.label.symbol?.bind FunctionForm.ofSymbol?

/-- The function that a node defines, if it does. -/
def Node.function? (settings : Settings) (source : String) (n : Node) : Option FunctionDecl :=
  n.functionForm?.map fun form => .read settings source form n.tree

namespace ModuleDecl

/-- The record of the module at a node, as far as some of the nodes in it tell. -/
def ofMembers (settings : Settings) (source : String) (address : Option String) (m : Node)
    (members : List Node) : ModuleDecl :=
  { name := nameIn source m.tree
    address
    constants := (members.filter (·.label.is .constant)).map (·.text source)
    imports := (members.filter (·.label.is .useDecl)).map fun d => .read source d.tree
    types := (members.filter (·.label.is .structDefinition)).map (·.text source)
    functions := members.filterMap (·.function? settings source) }

/-- A record that has the name and the address of another, and the first entries of each of its
lists. -/
structure IsStartOf (d d' : ModuleDecl) : Prop where
  name : d.name = d'.name
  address : d.address = d'.address
  constants : d.constants <+: d'.constants
  imports : d.imports <+: d'.imports
  types : d.types <+: d'.types
  functions : d.functions <+: d'.functions

/-! ## Reading a module -/

variable (settings : Settings) (source : String) (address : Option String) (m : Node)

theorem ofMembers_cons (n : Node) (ns : List Node) :
    ofMembers settings source address m (n :: ns) =
      note settings source n.tree (ofMembers settings source address m ns) := by
  have his (s : Symbol) : n.label.is s = decide (n.label.symbol? = some s) := n.label.is_eq s
  unfold note ofMembers
  rw [show n.tree.label = n.label from rfl]
  simp only [List.filter_cons, List.filterMap_cons, Node.function?, Node.functionForm?, his]
  cases n.label.symbol? with
  | none => rfl
  | some s => cases s <;> rfl

theorem foldr_note (ns : List Node) :
    (ns.map Node.tree).foldr (note settings source) { name := nameIn source m.tree, address } =
      ofMembers settings source address m ns := by
  induction ns with
  | nil => rfl
  | cons n ns ih => rw [List.map_cons, List.foldr_cons, ih, ofMembers_cons]

/-- A module takes the nodes below it that are within the limit, and is done before the first node
behind its subtree. -/
theorem read_before (limit : Option Nat) :
    read settings source address m.tree (.before limit (m.id + 1)) =
      (ofMembers settings source address m (m.below.filter fun n => Budget.within limit n.id),
        .before limit (m.id + m.size)) := by
  have htake := Budget.take_before limit Node.id m.below (m.id + 1) m.map_id_below
  have hsize : m.id + 1 + m.below.length = m.id + m.size := by
    rw [m.length_below, m.size_eq]; omega
  rw [hsize] at htake
  have hpre : m.tree.below.preorder = m.below.map Node.tree := (Node.map_tree_nodes ..).symm
  unfold read
  rw [hpre, Budget.take_map, htake]
  simp only [foldr_note]

theorem ofMembers_isStartOf {ns ns' : List Node} (h : ns <+: ns') :
    (ofMembers settings source address m ns).IsStartOf
      (ofMembers settings source address m ns') where
  name := rfl
  address := rfl
  constants := (h.filter _).map _
  imports := (h.filter _).map _
  types := (h.filter _).map _
  functions := h.filterMap _

end ModuleDecl

end MoveOutline
