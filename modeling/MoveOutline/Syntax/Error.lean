/-!
# What can go wrong with a syntax tree

The causes for which there is no tree, each with the text that a user is shown.
-/
namespace MoveOutline

/-- Why there is no tree. -/
inductive SyntaxError where
  /-- The parser refused the grammar, for the reason that it gives in its own words. -/
  | grammarRefused (reason : String)
  /-- The parser gave up without a tree. -/
  | noTree
  /-- Nodes were still unfinished when the tree was asked for. -/
  | unbalanced (unfinished : Nat)
  /-- There is no node at all. -/
  | empty
  /-- More than one node has no parent. -/
  | multipleRoots
  /-- A node was to be finished and none was unfinished. -/
  | nothingToFinish
  deriving DecidableEq, Repr

namespace SyntaxError

/-- The cause in words. -/
def message : SyntaxError → String
  | grammarRefused reason => "failed to load grammar: " ++ reason
  | noTree => "parser produced no syntax tree"
  | unbalanced unfinished =>
    "syntax tree is unbalanced: " ++ toString unfinished ++ " node(s) left open"
  | empty => "syntax tree has no root node"
  | multipleRoots => "syntax tree has more than one root node"
  | nothingToFinish => "no open node to finish"

end SyntaxError

end MoveOutline
