import MoveOutline.Syntax.Error
import MoveOutline.Syntax.Tree
/-!
# Building a tree in pre-order

A **builder** is told about the nodes of a tree in pre-order: `start` opens a node below the
innermost open node, `finish` closes that one again, and `token` adds a leaf. Ids are handed out
in the same order, so they are the indices of the pre-order. `build` asks for the tree.

An open node is kept as a **frame**, with the finished trees below it; the frames form the path
from the innermost open node outwards. What is finished with no node open is a root.

**Results.**
* `Builder.finish_eq_error_iff`: finishing fails exactly when no node is open.
* `Builder.depth_start`, `Builder.depth_token`, `Builder.depth_finish`: the effect of a step on
  the number of open nodes.
-/
namespace MoveOutline

/-- A tree is a forest with one root. -/
def Tree.ofForest : Forest → Except SyntaxError Tree
  | .nil => .error .empty
  | .cons label below .nil => .ok ⟨label, below⟩
  | .cons _ _ (.cons ..) => .error .multipleRoots

/-- An open node: where it starts, and the finished trees below it, the latest first. -/
structure Frame where
  id : Nat
  kind : String
  named : Bool
  start : Position
  finished : List Tree
  deriving DecidableEq, Repr

/-- The tree of an open node that ends here. -/
def Frame.close (f : Frame) (stop : Position) : Tree :=
  ⟨⟨f.kind, f.named, f.start, stop⟩, Forest.ofTrees f.finished.reverse⟩

/-- A tree under construction. -/
structure Builder where
  /-- How many nodes there are so far, which is the id of the next one. -/
  count : Nat
  /-- The open nodes, the innermost first. -/
  frames : List Frame
  /-- The finished trees that lie in no open node, the latest first. -/
  roots : List Tree
  deriving DecidableEq, Repr

namespace Builder

/-- The builder that has been told nothing. -/
def empty : Builder :=
  ⟨0, [], []⟩

/-- The number of open nodes. -/
def depth (b : Builder) : Nat :=
  b.frames.length

/-- The builder with one more finished tree in the innermost open node. -/
def push (b : Builder) (t : Tree) : Builder :=
  match b.frames with
  | [] => { b with roots := t :: b.roots }
  | f :: frames => { b with frames := { f with finished := t :: f.finished } :: frames }

/-- Opens a node and answers its id. -/
def start (b : Builder) (kind : String) (named : Bool) (start : Position) : Nat × Builder :=
  let frame : Frame := ⟨b.count, kind, named, start, []⟩
  (b.count, { b with count := b.count + 1, frames := frame :: b.frames })

/-- Adds a leaf and answers its id. -/
def token (b : Builder) (label : Label) : Nat × Builder :=
  (b.count, { b.push ⟨label, .nil⟩ with count := b.count + 1 })

/-- Closes the innermost open node and answers its id. -/
def finish (b : Builder) (stop : Position) : Except SyntaxError (Nat × Builder) :=
  match b.frames with
  | [] => .error .nothingToFinish
  | f :: frames => .ok (f.id, { b with frames }.push (f.close stop))

/-- The finished tree. Open nodes are reported first, then a missing root, then a second one. -/
def build (b : Builder) : Except SyntaxError Tree :=
  if b.depth ≠ 0 then .error (.unbalanced b.depth)
  else Tree.ofForest (Forest.ofTrees b.roots.reverse)

/-! ## Steps and open nodes -/

@[simp] theorem depth_push (b : Builder) (t : Tree) : (b.push t).depth = b.depth := by
  unfold push depth; split <;> simp [*]

@[simp] theorem depth_start (b : Builder) (kind : String) (named : Bool) (pos : Position) :
    (b.start kind named pos).2.depth = b.depth + 1 := by
  simp [start, depth]

@[simp] theorem depth_token (b : Builder) (label : Label) :
    (b.token label).2.depth = b.depth := b.depth_push _

theorem depth_finish {b b' : Builder} {stop : Position} {id : Nat}
    (h : b.finish stop = .ok (id, b')) : b.depth = b'.depth + 1 := by
  unfold finish at h
  split at h
  · simp at h
  · next f frames hf =>
    obtain ⟨-, rfl⟩ : f.id = id ∧ _ = b' := by simpa using h
    rw [depth_push]
    simp [depth, hf]

theorem finish_eq_error_iff {b : Builder} {stop : Position} {e : SyntaxError} :
    b.finish stop = .error e ↔ b.depth = 0 ∧ e = .nothingToFinish := by
  unfold finish depth
  split
  · next h => simp [h, eq_comm]
  · next h => simp [h]

end Builder

end MoveOutline
