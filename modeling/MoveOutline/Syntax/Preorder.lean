import MoveOutline.Syntax.Node
/-!
# Walking a subtree in order

A **walk** keeps the nodes that are still to be visited. Each step takes the first of them and
puts its children in front of the others, so a node comes before the nodes below it, and these
before its next sibling. A step needs no recursion and can be the last one at any time.

The measure of a walk is the number of nodes at and below the pending ones; each step takes one
off (`Walk.remaining_next?`).
-/
namespace MoveOutline

/-- A walk under way: the nodes whose subtrees are still to be visited, in order. -/
structure Walk where
  pending : List Node
  deriving DecidableEq, Repr

namespace Walk

/-- The next node, and the walk after it. -/
def next? (w : Walk) : Option (Node × Walk) :=
  match w.pending with
  | [] => none
  | n :: pending => some (n, ⟨n.children ++ pending⟩)

/-- The number of nodes still to come. -/
def remaining (w : Walk) : Nat :=
  (w.pending.flatMap Node.preorder).length

theorem remaining_next? {w w' : Walk} {n : Node} (h : w.next? = some (n, w')) :
    w.remaining = w'.remaining + 1 := by
  unfold next? at h
  split at h
  · simp at h
  · next m pending hw =>
    obtain ⟨rfl, rfl⟩ : m = n ∧ Walk.mk (m.children ++ pending) = w' := by simpa using h
    rw [remaining, remaining, hw, List.flatMap_cons, List.flatMap_append, ← m.below_eq,
      m.preorder_eq]
    simp only [List.length_append, List.length_cons]; omega

/-- All nodes still to come. -/
def toList (w : Walk) : List Node :=
  match _h : w.next? with
  | none => []
  | some (n, w') => n :: w'.toList
termination_by w.remaining
decreasing_by have := remaining_next? _h; omega

end Walk

/-- The walk over the node and everything below it. -/
def Node.walk (n : Node) : Walk :=
  ⟨[n]⟩

/-- The node and the nodes below it, as a walk meets them. -/
def Node.descendants (n : Node) : List Node :=
  n.walk.toList

end MoveOutline
