import MoveOutline.Syntax.Arena
/-!
# Copying a tree through a cursor

The tree of an outside parser is read through a cursor that stands on one node at a time and can
move to the first child, to the next sibling and to the parent. `Tree.copy` leads such a cursor
over the whole tree and tells every node to an arena, once on the way down and once on the
way up. Error nodes and bare tokens are copied like all others.

The measure of the walk charges three units for each node still to be entered and one for each
open node; every move takes some of it.
-/
namespace MoveOutline

/-- A step that an arena was told, and the id that it answered. -/
structure Told where
  step : BuildStep
  id : Nat
  deriving DecidableEq, Repr

/-- A copy under way: the arena, and all that it was told so far. -/
structure Copying where
  arena : Arena
  told : List Told
  deriving DecidableEq, Repr

/-- A finished copy: the records, and all that the arena was told. -/
structure Copy where
  records : List Record
  told : List Told
  deriving DecidableEq, Repr

namespace Copying

/-- The copy of which nothing has been told. -/
def empty : Copying :=
  ⟨.empty, []⟩

/-- Tells the arena one step. -/
def tell (c : Copying) (s : BuildStep) : Except SyntaxError Copying :=
  match c.arena.perform s with
  | (.ok id, arena) => .ok ⟨arena, c.told ++ [⟨s, id⟩]⟩
  | (.error e, _) => .error e

end Copying

namespace Node

/-- What is left to do after the subtree of the node: its later siblings, those of its ancestors,
and the closing of the path. -/
def outstanding (n : Node) : Nat :=
  n.path.foldr (fun level later => 3 * level.after.size + 1 + later) 0

theorem outstanding_firstChild? {n c : Node} (h : n.firstChild? = some c) :
    3 * c.here.below.size + c.outstanding + 2 = 3 * n.here.below.size + n.outstanding := by
  simp only [firstChild?, children] at h
  cases hb : n.here.below with
  | nil => simp [hb, Forest.levels] at h
  | cons l below rest =>
    simp only [hb, Forest.levels, List.map_cons, List.head?_cons, Option.some.injEq] at h
    subst h
    simp [outstanding, path]; omega

theorem outstanding_nextSibling? {n s : Node} (h : n.nextSibling? = some s) :
    3 * s.here.below.size + s.outstanding + 3 = n.outstanding := by
  simp only [nextSibling?] at h
  cases ha : n.here.after with
  | nil => simp [ha, Forest.levels] at h
  | cons l below rest =>
    simp only [ha, Forest.levels, List.head?_cons, Option.map_some, Option.some.injEq] at h
    subst h
    simp [outstanding, path, ha]; omega

theorem outstanding_parent? {n p : Node} (h : n.parent? = some p) :
    p.outstanding < n.outstanding := by
  unfold parent? at h
  split at h
  · simp at h
  · next level above ha =>
    cases h
    simp [outstanding, path, ha]

mutual

/-- Tells the subtree of the node under the cursor, and then all that is outstanding. -/
def enter (n : Node) (c : Copying) : Except SyntaxError Copying := do
  let c ← c.tell (.start n.kind n.label.named n.label.start)
  match _h : n.firstChild? with
  | some child => child.enter c
  | none => n.leave c
termination_by 3 * n.here.below.size + n.outstanding + 2
decreasing_by
  · have := outstanding_firstChild? _h; omega
  · omega

/-- Tells the end of the node under the cursor, and then all that is outstanding. -/
def leave (n : Node) (c : Copying) : Except SyntaxError Copying := do
  let c ← c.tell (.finish n.label.stop)
  match _hs : n.nextSibling? with
  | some s => s.enter c
  | none =>
    match _hp : n.parent? with
    | some p => p.leave c
    | none => return c
termination_by n.outstanding
decreasing_by
  · have := outstanding_nextSibling? _hs; omega
  · exact outstanding_parent? _hp

end

end Node

/-- The copy of a tree that a cursor's walk leaves in an arena. -/
def Tree.copy (t : Tree) : Except SyntaxError Copy := do
  let c ← t.root.enter .empty
  return ⟨← c.arena.build, c.told⟩

end MoveOutline
