import MoveOutline.Syntax.Node
/-!
# The node at a point

Looking up a point goes down from the root. At each node the children are scanned in order, up
to the first that starts after the point. The first of these that ends after the point is
entered. If none does, a child that ends exactly at the point is entered, so that a cursor right
behind an identifier still belongs to it; but only the first such child counts, and it must not
be empty.

The way down ends because a child is smaller than its parent, whatever the ranges say.
-/
namespace MoveOutline

namespace Node

/-- The children that start at or before the point, up to the first that does not. -/
def reached (n : Node) (p : Point) : List Node :=
  n.children.takeWhile fun c => c.start ≤ p

/-- The child through which the search for a point goes on. -/
def toward? (n : Node) (p : Point) : Option Node :=
  match (n.reached p).find? fun c => p < c.stop with
  | some c => some c
  | none => ((n.reached p).find? fun c => p = c.stop).filter fun c => c.start < c.stop

theorem mem_children_of_toward? {n c : Node} {p : Point} (h : n.toward? p = some c) :
    c ∈ n.children := by
  have hsub {d : Node} (hd : d ∈ n.reached p) : d ∈ n.children :=
    (List.takeWhile_sublist _).subset hd
  unfold toward? at h
  split at h
  · next d hd =>
    cases h
    exact hsub (List.mem_of_find?_eq_some hd)
  · obtain ⟨hd, -⟩ := Option.filter_eq_some_iff.1 h
    exact hsub (List.mem_of_find?_eq_some hd)

/-- The end of the way down to a point. -/
def descendTo (n : Node) (p : Point) : Node :=
  match _h : n.toward? p with
  | none => n
  | some c => c.descendTo p
termination_by n.size
decreasing_by exact size_lt_of_mem_children (mem_children_of_toward? _h)

end Node

/-- The innermost node at a point. Points outside the root belong to the root. -/
def Tree.descendantAt (t : Tree) (p : Point) : Node :=
  t.root.descendTo p

end MoveOutline
