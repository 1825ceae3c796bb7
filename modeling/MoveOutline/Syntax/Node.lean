import MoveOutline.Syntax.Tree
/-!
# Nodes in their tree

A **node** is a place in a tree: what stands there, and the path back to the root. One **level**
of that path holds a node's label, the forest below it, the siblings after it, and its **id**,
which is its index in the pre-order of the tree. Ids are not stored with the tree. They follow
from its shape: a first child's id is one more than its parent's, and a next sibling's is larger
by the number of nodes in between.

**Results.**
* `Node.parent?_of_mem_children`: every child of a node has that node for its parent.
* `Node.size_lt_of_mem_children`: a node is larger than its children, which bounds walks downwards.
* `Node.below_eq`: the nodes below a node are the subtrees of its children, in child order, which
  bounds walks over a whole subtree.
* `Tree.map_id_nodes`: in pre-order the ids are the numbers from zero on.
-/
namespace MoveOutline

/-- One node of a path. -/
structure Level where
  /-- The index of the node in the pre-order of its tree. -/
  id : Nat
  label : Label
  below : Forest
  /-- The siblings that follow. -/
  after : Forest
  deriving DecidableEq, Repr

/-- A place in a tree: the level of the node and those of its ancestors, the parent's first. -/
structure Node where
  here : Level
  above : List Level
  deriving DecidableEq, Repr

/-- The roots of a forest of which the first has the given id. -/
def Forest.levels : Nat → Forest → List Level
  | _, .nil => []
  | id, .cons label below rest =>
    ⟨id, label, below, rest⟩ :: rest.levels (id + 1 + below.size)

/-- The nodes of a forest in pre-order, when the first has the given id and `above` is the path
from their common parent to the root. -/
def Forest.nodes (above : List Level) : Nat → Forest → List Node
  | _, .nil => []
  | id, .cons label below rest =>
    let here : Level := ⟨id, label, below, rest⟩
    ⟨here, above⟩ ::
      (below.nodes (here :: above) (id + 1) ++ rest.nodes above (id + 1 + below.size))

namespace Node

def id (n : Node) : Nat :=
  n.here.id

def label (n : Node) : Label :=
  n.here.label

def kind (n : Node) : String :=
  n.label.kind

/-- The point where the node starts. -/
def start (n : Node) : Point :=
  n.label.start.point

/-- The point where the node ends, which is the first one behind it. -/
def stop (n : Node) : Point :=
  n.label.stop.point

/-- The tree that hangs at the node. -/
def tree (n : Node) : Tree :=
  ⟨n.here.label, n.here.below⟩

/-- The number of nodes at and below the node. -/
def size (n : Node) : Nat :=
  n.tree.size

/-- The part of the source that the node covers, empty if its range does not fit the source. -/
def text (source : String) (n : Node) : String :=
  n.label.text source

/-- The path from the node to the root, the node's own level first. -/
def path (n : Node) : List Level :=
  n.here :: n.above

/-- The parent, which only the root lacks. -/
def parent? (n : Node) : Option Node :=
  match n.above with
  | [] => none
  | level :: above => some ⟨level, above⟩

/-- The children in source order. -/
def children (n : Node) : List Node :=
  (n.here.below.levels (n.id + 1)).map fun level => ⟨level, n.path⟩

def childCount (n : Node) : Nat :=
  n.here.below.trees.length

/-- The child with a given index. -/
def child? (n : Node) (index : Nat) : Option Node :=
  n.children[index]?

def firstChild? (n : Node) : Option Node :=
  n.children.head?

/-- The sibling behind the node, if it is not the last one. -/
def nextSibling? (n : Node) : Option Node :=
  (n.here.after.levels (n.id + n.size)).head?.map fun level => ⟨level, n.above⟩

/-- The nodes below the node, in pre-order. -/
def below (n : Node) : List Node :=
  n.here.below.nodes n.path (n.id + 1)

/-- The node and the nodes below it, in pre-order. -/
def preorder (n : Node) : List Node :=
  n :: n.here.below.nodes n.path (n.id + 1)

end Node

namespace Tree

/-- The root, which has id 0. -/
def root (t : Tree) : Node :=
  ⟨⟨0, t.label, t.below, .nil⟩, []⟩

/-- All nodes in pre-order, which is the order of their ids. -/
def nodes (t : Tree) : List Node :=
  t.root.preorder

/-- The node with a given id. -/
def node? (t : Tree) (id : Nat) : Option Node :=
  t.nodes[id]?

end Tree

/-- An id was used that the tree does not have. -/
structure UnknownNode where
  id : Nat
  deriving DecidableEq, Repr

/-- The error in words. -/
def UnknownNode.message (e : UnknownNode) : String :=
  "node NodeId(" ++ toString e.id ++ ") is not in this tree"

/-- The node with a given id, which the caller takes to be there. -/
def Tree.node (t : Tree) (id : Nat) : Except UnknownNode Node :=
  match t.node? id with
  | some n => .ok n
  | none => .error ⟨id⟩

/-! ## Children and sizes -/

namespace Forest

theorem length_levels (f : Forest) (id : Nat) : (f.levels id).length = f.trees.length := by
  induction f generalizing id with
  | nil => rfl
  | cons l below rest _ ih => simp [levels, trees, ih]

theorem size_lt_of_mem_levels {f : Forest} {id : Nat} {level : Level} (h : level ∈ f.levels id) :
    level.below.size < f.size := by
  induction f generalizing id with
  | nil => cases h
  | cons l below rest _ ih =>
    rw [size_cons]
    rcases List.mem_cons.1 h with rfl | h
    · simp only; omega
    · have := ih h
      omega

theorem length_nodes (f : Forest) (above : List Level) (id : Nat) :
    (f.nodes above id).length = f.size := by
  induction f generalizing above id with
  | nil => rfl
  | cons l below rest ih ih' => simp [nodes, ih, ih']; omega

/-- The ids of a forest's nodes are consecutive. -/
theorem map_id_nodes (f : Forest) (above : List Level) (id : Nat) :
    (f.nodes above id).map Node.id = List.range' id f.size := by
  induction f generalizing above id with
  | nil => rfl
  | cons l below rest ih ih' =>
    have hsize : (cons l below rest).size = below.size + rest.size + 1 := by
      simp only [size_cons]; omega
    rw [hsize, List.range'_succ, ← List.range'_append_1]
    simp [nodes, Node.id, ih, ih']

end Forest

namespace Node

theorem size_eq (n : Node) : n.size = 1 + n.here.below.size := rfl

theorem length_children (n : Node) : n.children.length = n.childCount := by
  simp [children, childCount, Forest.length_levels]

theorem parent?_of_mem_children {n c : Node} (h : c ∈ n.children) : c.parent? = some n := by
  simp only [children, List.mem_map] at h
  obtain ⟨level, -, rfl⟩ := h
  rfl

theorem size_lt_of_mem_children {n c : Node} (h : c ∈ n.children) : c.size < n.size := by
  obtain ⟨level, hlevel, rfl⟩ := List.mem_map.1 h
  have := Forest.size_lt_of_mem_levels hlevel
  simp only [size_eq]; omega

theorem preorder_eq (n : Node) : n.preorder = n :: n.below := rfl

theorem nodes_eq_flatMap (f : Forest) (above : List Level) (id : Nat) :
    f.nodes above id = (f.levels id).flatMap fun level => (Node.mk level above).preorder := by
  induction f generalizing id with
  | nil => rfl
  | cons label below rest _ ih =>
    rw [Forest.nodes, Forest.levels, List.flatMap_cons, ← ih]
    rfl

theorem below_eq (n : Node) : n.below = n.children.flatMap preorder := by
  rw [below, nodes_eq_flatMap, children, List.flatMap_map]

theorem length_below (n : Node) : n.below.length = n.here.below.size :=
  Forest.length_nodes ..

theorem firstChild?_eq (n : Node) : n.firstChild? = n.child? 0 := by
  simp [firstChild?, child?, List.head?_eq_getElem?]

end Node

theorem Tree.length_nodes (t : Tree) : t.nodes.length = t.size := by
  simp [nodes, Node.preorder, root, Forest.length_nodes, size]; omega

theorem Tree.map_id_nodes (t : Tree) : t.nodes.map Node.id = List.range t.size := by
  rw [List.range_eq_range', size, Nat.add_comm, List.range'_succ]
  simp [nodes, Node.preorder, root, Node.id, Forest.map_id_nodes]

end MoveOutline
