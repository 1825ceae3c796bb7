import MoveOutline.Workspace.Basic
/-!
# Sessions

An editor drives a workspace by **commands**, one after the other. `run` is the workspace after
a list of commands, and `transcript` is what they answered and reported on the way.
-/
namespace MoveOutline

/-- What an editor can ask for. Whoever asks for a parse brings the parser along. -/
inductive Command where
  | openDocument (uri text : String) (parse : Parser)
  | changeDocument (uri text : String) (parse : Parser)
  | closeDocument (uri : String)
  | reconfigure (settings : Settings)

/-- What a command answers. -/
inductive Reply where
  /-- The number of modules in the document, or the reason why it has not been analyzed. -/
  | analyzed (modules : Except WorkspaceError Nat)
  | closed (wasOpen : Bool)
  | reconfigured
  deriving Repr

/-- The document that a command names, if it names one. -/
def Command.uri? : Command → Option String
  | openDocument uri .. => some uri
  | changeDocument uri .. => some uri
  | closeDocument uri => some uri
  | reconfigure _ => none

namespace Outcome

/-- The outcome with another form of its result. -/
def map {α β : Type} (f : α → β) (o : Outcome α) : Outcome β :=
  ⟨f o.result, o.workspace, o.events⟩

end Outcome

namespace Workspace

/-- Performs a command. -/
def perform (w : Workspace) : Command → Outcome Reply
  | .openDocument uri text parse => (w.openDocument parse uri text).map .analyzed
  | .changeDocument uri text parse => (w.changeDocument parse uri text).map .analyzed
  | .closeDocument uri => (w.closeDocument uri).map .closed
  | .reconfigure settings => (w.reconfigure settings).map fun _ => .reconfigured

/-- The workspace after a session. -/
def run (w : Workspace) (cs : List Command) : Workspace :=
  cs.foldl (fun w c => (w.perform c).workspace) w

/-- Answers and events of a session, command by command. -/
def transcript (w : Workspace) : List Command → List (Reply × List Event)
  | [] => []
  | c :: cs =>
    let o := w.perform c
    (o.result, o.events) :: o.workspace.transcript cs

@[simp] theorem run_nil (w : Workspace) : w.run [] = w := rfl

@[simp] theorem run_cons (w : Workspace) (c : Command) (cs : List Command) :
    w.run (c :: cs) = (w.perform c).workspace.run cs := rfl

theorem run_append (w : Workspace) (cs cs' : List Command) :
    w.run (cs ++ cs') = (w.run cs).run cs' :=
  List.foldl_append ..

theorem run_concat (w : Workspace) (cs : List Command) (c : Command) :
    w.run (cs ++ [c]) = ((w.run cs).perform c).workspace :=
  w.run_append cs [c]

end Workspace

end MoveOutline
