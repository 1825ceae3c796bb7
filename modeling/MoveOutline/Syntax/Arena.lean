import MoveOutline.Syntax.Node
import MoveOutline.Syntax.Script
/-!
# Arenas

An **arena** is a tree in one flat list: the **record** of a node holds its label, the id of its
parent and the ids of its children, and stands in the list at the node's own id. Such a list can
be written while the nodes are told, with nothing else to remember than which nodes are open. A
new node is entered into the record of the innermost open one and gets a record of its own at the
end, where it ends at its start until it is finished.

The tree is read off again by going from the record of the root to those of its children and on.
Only as many nodes in a row can be read as there are records, so a list that leads round in a
circle is no tree.
-/
namespace MoveOutline

/-- What an arena holds of a node. -/
structure Record where
  label : Label
  parent : Option Nat
  children : List Nat
  deriving DecidableEq, Repr

/-- The record of a node in a tree. -/
def Node.record (n : Node) : Record :=
  ⟨n.label, n.parent?.map Node.id, n.children.map Node.id⟩

/-- The records of a tree, in the order of the ids. -/
def Tree.records (t : Tree) : List Record :=
  t.nodes.map Node.record

/-! ## Writing an arena -/

/-- An arena that is being written. -/
structure Arena where
  records : List Record
  /-- The ids of the open nodes, the innermost first. -/
  opened : List Nat
  deriving DecidableEq, Repr

namespace Arena

/-- The arena without nodes. -/
def empty : Arena :=
  ⟨[], []⟩

/-- Adds a record for a new node in the innermost open one. -/
def add (a : Arena) (label : Label) : Arena :=
  let id := a.records.length
  let linked :=
    match a.opened with
    | [] => a.records
    | parent :: _ => a.records.modify parent fun r => { r with children := r.children ++ [id] }
  { a with records := linked ++ [⟨label, a.opened.head?, []⟩] }

/-- Performs a step of a script, as `Builder.perform` does. -/
def perform (a : Arena) : BuildStep → Except SyntaxError Nat × Arena
  | .start kind named start =>
    let id := a.records.length
    (.ok id, { a.add ⟨kind, named, start, start⟩ with opened := id :: a.opened })
  | .token label => (.ok a.records.length, a.add label)
  | .finish stop =>
    match a.opened with
    | [] => (.error .nothingToFinish, a)
    | id :: opened =>
      (.ok id, ⟨a.records.modify id fun r => { r with label := { r.label with stop } }, opened⟩)

/-- The arena after a script. -/
def run (a : Arena) (steps : List BuildStep) : Arena :=
  steps.foldl (fun a s => (a.perform s).2) a

/-- The records, if they are those of a tree. -/
def build (a : Arena) : Except SyntaxError (List Record) :=
  if a.opened ≠ [] then .error (.unbalanced a.opened.length)
  else if a.records = [] then .error .empty
  else if (a.records.drop 1).any (·.parent.isNone) then .error .multipleRoots
  else .ok a.records

end Arena

/-! ## Reading a tree off -/

/-- The forest whose roots have the given ids, if no more than so many nodes come in a row. -/
def Forest.ofRecords? (rs : List Record) : Nat → List Nat → Option Forest
  | _, [] => some .nil
  | 0, _ :: _ => none
  | inRow + 1, id :: ids => do
    let r ← rs[id]?
    return .cons r.label (← ofRecords? rs inRow r.children) (← ofRecords? rs inRow ids)

/-- The tree that starts at the first record. -/
def Tree.ofRecords? (rs : List Record) : Option Tree := do
  let r ← rs[0]?
  return ⟨r.label, ← Forest.ofRecords? rs rs.length r.children⟩

end MoveOutline
