import MoveOutline.Outline.Decl
import MoveOutline.Syntax.Symbol
/-!
# Reading an import

The address and the module of an import may stand beside its members or be nested in path nodes,
depending on the revision of the grammar. So the whole subtree of a `use` declaration is
searched in pre-order. The first address literal and the first module identifier count, and
every member is collected. A member is taken as a whole: nothing below it is looked at.

The search keeps a stack of the trees that are still to be searched, with the next one on top,
at the end of the list. A tree that is taken off leaves the trees right below it there, unless it
is a member. The measure of the search is the number of nodes on the stack.
-/
namespace MoveOutline

/-- A search for the parts of an import. -/
structure ImportSearch where
  /-- The trees that are still to be searched, the next one last. -/
  stack : List Tree
  /-- The first address literal so far. -/
  address : Option Label := none
  /-- The first module identifier so far. -/
  moduleIdentifier : Option Label := none
  /-- The members so far, in order. -/
  members : List Label := []
  deriving DecidableEq, Repr

namespace ImportSearch

/-- Puts trees on a stack. They are appended and then turned round where they are, which brings
the first of them to the top. -/
def push (stack trees : List Tree) : List Tree :=
  let mark := stack.length
  let stack := stack ++ trees
  stack.take mark ++ (stack.drop mark).reverse

theorem push_eq (stack trees : List Tree) : push stack trees = stack ++ trees.reverse := by
  simp [push]

/-- Looks at a tree that has been taken off the stack. -/
def visit (s : ImportSearch) (t : Tree) : ImportSearch :=
  let stack := push s.stack t.below.trees
  match t.label.symbol? with
  | some .useMember => { s with members := s.members ++ [t.label] }
  | some .addressLiteral => { s with stack, address := s.address.or (some t.label) }
  | some .moduleIdentifier =>
    { s with stack, moduleIdentifier := s.moduleIdentifier.or (some t.label) }
  | _ => { s with stack }

/-- The number of nodes on the stack. -/
def remaining (s : ImportSearch) : Nat :=
  (Forest.ofTrees s.stack).size

theorem remaining_visit (s : ImportSearch) (t : Tree) :
    (s.visit t).remaining ≤ s.remaining + t.below.size := by
  unfold visit remaining
  split <;> simp [push_eq]

/-- The search when nothing is left to be searched. -/
def run (s : ImportSearch) : ImportSearch :=
  match _h : s.stack.getLast? with
  | none => s
  | some t => (visit { s with stack := s.stack.dropLast } t).run
termination_by s.remaining
decreasing_by
  have hvisit := remaining_visit { s with stack := s.stack.dropLast } t
  obtain ⟨rest, hstack⟩ := List.getLast?_eq_some_iff.1 _h
  simp only [remaining, hstack, List.dropLast_concat, Forest.size_ofTrees_append,
    Forest.ofTrees, Forest.size_cons, Forest.size_nil] at hvisit ⊢
  omega

end ImportSearch

namespace ImportDecl

/-- The import that a `use` declaration makes. -/
def read (source : String) (d : Tree) : ImportDecl :=
  let found := ImportSearch.run { stack := ImportSearch.push [] d.below.trees }
  { sourceAddress := (found.address.map (·.text source)).getD ""
    moduleName := (found.moduleIdentifier.map (·.text source)).getD ""
    importedMembers := found.members.map (·.text source)
    rawText := d.label.text source }

end ImportDecl

end MoveOutline
