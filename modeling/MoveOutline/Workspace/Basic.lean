import MoveOutline.Outline.Extract
import MoveOutline.Scope.Resolve
import MoveOutline.Workspace.Documents
/-!
# The workspace of an editor

A **workspace** holds the documents that are open in an editor. Opening or changing a document
parses its text and replaces text, tree and modules together, so no reader sees the tree of one
edit beside the modules of another. A change that cannot be parsed leaves the document as it
was, because stale modules are of more use than none. New settings are applied to the trees at
hand; nothing is parsed again.

The parser is outside: whoever opens or changes a document brings along what the parser does.
The workspace counts how often it is called.
-/
namespace MoveOutline

/-- What a parser makes of a text. -/
abbrev Parser := String → Except SyntaxError Tree

/-- Why a document has not been analyzed. -/
inductive WorkspaceError where
  /-- The document was not opened, or it has been closed. -/
  | unknownDocument (uri : String)
  /-- The parser had no tree for the document's text. -/
  | notParsed (uri : String) (cause : SyntaxError)
  deriving DecidableEq, Repr

/-- The error in words. -/
def WorkspaceError.message : WorkspaceError → String
  | unknownDocument uri => "document `" ++ uri ++ "` is not open"
  | notParsed uri cause => "failed to parse `" ++ uri ++ "`: " ++ cause.message

/-- The open documents, and the settings that they are analyzed with. -/
structure Workspace where
  /-- What the modules of a document are found with. -/
  outlineSettings : Settings
  /-- What the scope of a point is resolved with. -/
  scopeSettings : Settings
  documents : Documents
  /-- How often the parser was called. -/
  parses : Nat
  deriving DecidableEq, Repr

/-- What a step answers, the workspace after it, and what it reports. -/
structure Outcome (α : Type) where
  result : α
  workspace : Workspace
  events : List Event
  deriving DecidableEq, Repr

namespace Document

/-- A text that could not be parsed. -/
def unparsed (text : String) : Document :=
  ⟨text, none, []⟩

/-- The document with the modules that its tree has under given settings. -/
def reextract (settings : Settings) (d : Document) : Logged Document :=
  match d.tree with
  | none => ⟨d, []⟩
  | some t =>
    let found := outline settings t d.text
    ⟨{ d with modules := found.value }, found.events⟩

/-- The scope of a point. There is none to speak of in a document without a tree. -/
def scopeAt (settings : Settings) (d : Document) (p : Point) : Logged Scope :=
  match d.tree with
  | none => ⟨{}, []⟩
  | some t => MoveOutline.scopeAt settings t d.text p

end Document

namespace Workspace

/-- The workspace without documents. -/
def new (settings : Settings) : Workspace :=
  ⟨settings, settings, .empty, 0⟩

/-- The document under a URI, if it is open. -/
def document? (w : Workspace) (uri : String) : Option Document :=
  w.documents.get? uri

/-- The modules of a document, if it is open. -/
def modules? (w : Workspace) (uri : String) : Option (List ModuleDecl) :=
  (w.document? uri).map (·.modules)

/-- The scope of a point in a document, if the document is open. -/
def scopeAt? (w : Workspace) (uri : String) (p : Point) : Option (Logged Scope) :=
  (w.document? uri).map (·.scopeAt w.scopeSettings p)

def contains (w : Workspace) (uri : String) : Bool :=
  w.documents.contains uri

/-- The number of open documents. -/
def size (w : Workspace) : Nat :=
  w.documents.size

def isEmpty (w : Workspace) : Bool :=
  w.documents.isEmpty

/-- The workspace after one more call of the parser. -/
def counted (w : Workspace) : Workspace :=
  { w with parses := w.parses + 1 }

/-- Calls the parser. This is the one place where a parser is called. -/
def parseText (w : Workspace) (parse : Parser) (text : String) :
    Except SyntaxError Tree × Workspace :=
  (parse text, w.counted)

/-- Parses a text and finds its modules. -/
def analyze (w : Workspace) (parse : Parser) (uri text : String) :
    Outcome (Except SyntaxError Document) :=
  let (parsed, w) := w.parseText parse text
  match parsed with
  | .error cause => ⟨.error cause, w, [.notParsed uri cause]⟩
  | .ok t =>
    let found := outline w.outlineSettings t text
    { result := .ok ⟨text, some t, found.value⟩
      workspace := w
      events := (if t.hasErrors then [.parsedWithErrors uri] else []) ++ found.events ++
        [.extracted found.value.length uri] }

/-- The workspace with a document put under a URI. -/
def store (w : Workspace) (uri : String) (d : Document) : Workspace :=
  { w with documents := w.documents.insert uri d }

/-- Opens a document, whether it was open before or not, and answers the number of its modules.
If it cannot be parsed it is open nevertheless, without a tree and without modules. -/
def openDocument (w : Workspace) (parse : Parser) (uri text : String) :
    Outcome (Except WorkspaceError Nat) :=
  let ⟨analyzed, w, events⟩ := w.analyze parse uri text
  let events := .documentOpened uri :: events
  match analyzed with
  | .ok d => ⟨.ok d.modules.length, w.store uri d, events⟩
  | .error cause => ⟨.error (.notParsed uri cause), w.store uri (.unparsed text), events⟩

/-- Gives an open document a new text and answers the number of its modules. If the text cannot
be parsed the document stays as it was. -/
def changeDocument (w : Workspace) (parse : Parser) (uri text : String) :
    Outcome (Except WorkspaceError Nat) :=
  if w.contains uri then
    let ⟨analyzed, w, events⟩ := w.analyze parse uri text
    let events := .documentChanged uri :: events
    match analyzed with
    | .ok d => ⟨.ok d.modules.length, w.store uri d, events⟩
    | .error cause => ⟨.error (.notParsed uri cause), w, events⟩
  else ⟨.error (.unknownDocument uri), w, [.documentChanged uri]⟩

/-- Closes a document and answers whether it was open. -/
def closeDocument (w : Workspace) (uri : String) : Outcome Bool :=
  ⟨w.contains uri, { w with documents := w.documents.erase uri }, [.documentClosed uri]⟩

/-- Takes new settings and finds the modules of every open document again. -/
def reconfigure (w : Workspace) (settings : Settings) : Outcome Unit :=
  { result := ()
    workspace :=
      { w with
        outlineSettings := settings
        scopeSettings := settings
        documents := w.documents.map fun d => (d.reextract settings).value }
    events := (w.documents.entries.flatMap fun e => (e.2.reextract settings).events) ++
      [.reextracted w.size] }

end Workspace

end MoveOutline
