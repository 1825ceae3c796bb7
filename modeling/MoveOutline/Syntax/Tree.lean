import MoveOutline.Syntax.Point
import MoveOutline.Text.Slice
/-!
# Concrete syntax trees

A parser hands over an ordered tree whose nodes carry a **label**: the grammar's tag for the
node, a flag that tells grammar symbols from bare tokens, and the range of the source that the
node covers. Nothing is promised about ranges. They may be reversed, overlap, leave their
parent's range or belong to an older text.

A **forest** is the list of trees below one node, written so that one induction reaches every
node: a label, the forest below it, and the forest beside it. Everything that a walk over the
tree needs is a recursion on forests.

**Results.**
* `Tree.length_subtrees`: the pre-order of a tree has as many entries as the tree has nodes.
* `Forest.ofTrees_trees`, `Forest.trees_ofTrees`: a forest is a list of trees.
-/
namespace MoveOutline

/-- What a node says about itself. -/
structure Label where
  /-- The grammar's tag for the node. -/
  kind : String
  /-- Whether the node stands for a symbol of the grammar and not for a bare token. -/
  named : Bool
  start : Position
  stop : Position
  deriving DecidableEq, Repr

namespace Label

/-- The tag of the nodes that stand for text which the parser could not read. -/
def errorKind : String := "ERROR"

/-- Whether the node stands for text which the parser could not read. -/
def isError (l : Label) : Bool :=
  l.kind == errorKind

/-- The part of the source that the node covers, empty if its range does not fit the source. -/
def text (source : String) (l : Label) : String :=
  Text.slice l.start.byte l.stop.byte source

/-- Tag and range, as messages show them. -/
def summary (l : Label) : String :=
  l.kind ++ " [" ++ toString l.start.byte ++ ".." ++ toString l.stop.byte ++ "] (" ++
    l.start.point.text ++ " - " ++ l.stop.point.text ++ ")"

end Label

/-- Ordered trees side by side: the first one's label, the forest below it, and the trees after
it. -/
inductive Forest where
  | nil
  | cons (label : Label) (below : Forest) (rest : Forest)
  deriving DecidableEq, Repr

/-- An ordered tree: its root's label and the forest of its subtrees. -/
structure Tree where
  label : Label
  below : Forest
  deriving DecidableEq, Repr

namespace Forest

/-- The number of nodes. -/
def size : Forest → Nat
  | nil => 0
  | cons _ below rest => 1 + below.size + rest.size

/-- The trees side by side. -/
def trees : Forest → List Tree
  | nil => []
  | cons label below rest => ⟨label, below⟩ :: rest.trees

/-- The forest of a list of trees. -/
def ofTrees : List Tree → Forest
  | [] => nil
  | t :: ts => cons t.label t.below (ofTrees ts)

/-- The subtrees at every node, each node before the nodes below it and those before the nodes
beside it. -/
def preorder : Forest → List Tree
  | nil => []
  | cons label below rest => ⟨label, below⟩ :: (below.preorder ++ rest.preorder)

/-- The label of the first tree. -/
def firstLabel? : Forest → Option Label
  | nil => none
  | cons label _ _ => some label

@[simp] theorem size_nil : nil.size = 0 := rfl

@[simp] theorem size_cons (l : Label) (below rest : Forest) :
    (cons l below rest).size = 1 + below.size + rest.size := rfl

@[simp] theorem trees_ofTrees (ts : List Tree) : (ofTrees ts).trees = ts := by
  induction ts with
  | nil => rfl
  | cons t ts ih => simp [ofTrees, trees, ih]

@[simp] theorem ofTrees_trees (f : Forest) : ofTrees f.trees = f := by
  induction f with
  | nil => rfl
  | cons l below rest _ ih => simp [ofTrees, trees, ih]

@[simp] theorem size_ofTrees_append (ts us : List Tree) :
    (ofTrees (ts ++ us)).size = (ofTrees ts).size + (ofTrees us).size := by
  induction ts with
  | nil => simp [ofTrees]
  | cons t ts ih => simp [ofTrees, ih]; omega

@[simp] theorem size_ofTrees_reverse (ts : List Tree) :
    (ofTrees ts.reverse).size = (ofTrees ts).size := by
  induction ts with
  | nil => rfl
  | cons t ts ih => simp [ofTrees, ih]; omega

@[simp] theorem length_preorder (f : Forest) : f.preorder.length = f.size := by
  induction f with
  | nil => rfl
  | cons l below rest ih ih' => simp [preorder, ih, ih']; omega

end Forest

namespace Tree

/-- The number of nodes. -/
def size (t : Tree) : Nat :=
  1 + t.below.size

/-- The subtrees at every node, in pre-order, the tree itself first. -/
def subtrees (t : Tree) : List Tree :=
  t :: t.below.preorder

/-- The labels of the root's children. -/
def childLabels (t : Tree) : List Label :=
  t.below.trees.map (·.label)

/-- Whether the parser could not read some part of the source. -/
def hasErrors (t : Tree) : Bool :=
  t.subtrees.any (·.label.isError)

@[simp] theorem length_subtrees (t : Tree) : t.subtrees.length = t.size := by
  simp [subtrees, size]; omega

end Tree

end MoveOutline
