import MoveOutline.Syntax.Builder
/-!
# Scripts for a builder

A **script** is a list of steps for a builder. `Forest.script` tells a forest in pre-order; a
leaf may be told by one step or by two, and the caller chooses which leaves are tokens.
-/
namespace MoveOutline

/-- One call of a builder. -/
inductive BuildStep where
  | start (kind : String) (named : Bool) (start : Position)
  | token (label : Label)
  | finish (stop : Position)
  deriving DecidableEq, Repr

namespace Builder

/-- Performs a step: the id of the node that it is about, and the builder after it. A step that
fails leaves the builder as it was. -/
def perform (b : Builder) : BuildStep → Except SyntaxError Nat × Builder
  | .start kind named start =>
    let (id, b) := b.start kind named start
    (.ok id, b)
  | .token label =>
    let (id, b) := b.token label
    (.ok id, b)
  | .finish stop =>
    match b.finish stop with
    | .ok (id, b) => (.ok id, b)
    | .error e => (.error e, b)

/-- The builder after a script. -/
def run (b : Builder) (steps : List BuildStep) : Builder :=
  steps.foldl (fun b s => (b.perform s).2) b

@[simp] theorem run_nil (b : Builder) : b.run [] = b := rfl

@[simp] theorem run_cons (b : Builder) (s : BuildStep) (steps : List BuildStep) :
    b.run (s :: steps) = (b.perform s).2.run steps := rfl

theorem run_append (b : Builder) (steps steps' : List BuildStep) :
    b.run (steps ++ steps') = (b.run steps).run steps' :=
  List.foldl_append ..

end Builder

/-- The steps that tell a forest of which the first node has the given id. The leaves that
`asToken` picks are told as tokens. -/
def Forest.script (asToken : Nat → Bool) : Nat → Forest → List BuildStep
  | _, .nil => []
  | id, .cons label below rest =>
    let steps : List BuildStep :=
      if below = .nil ∧ asToken id then [.token label]
      else
        .start label.kind label.named label.start ::
          (below.script asToken (id + 1) ++ [.finish label.stop])
    steps ++ rest.script asToken (id + 1 + below.size)

end MoveOutline
