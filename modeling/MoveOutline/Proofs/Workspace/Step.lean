import MoveOutline.Workspace.Command
/-!
# What one command does

A command acts on the document that it names, or on all of them alike. So it is enough to say what
becomes of the document under one URI, given what was there before (`Command.revise`), what the
settings are afterwards, and whether the parser was called. Everything about sessions is derived
from these three and from one equation for each way that a command can end.

Results:
* `Workspace.openDocument_of_ok` and the equations after it: each command, by what the parser
  answers.
* `Workspace.document?_perform`: what is under a URI after a command.
* `Workspace.outlineSettings_perform`, `Workspace.scopeSettings_perform`,
  `Workspace.parses_perform`: the rest of the workspace after a command.
-/
namespace MoveOutline

variable {w : Workspace} {parse : Parser} {uri text : String} {t : Tree} {cause : SyntaxError}

/-! ## The analysis of one document -/

namespace Document

/-- A text with the tree parsed from it and the modules found in that tree. -/
def parsed (settings : Settings) (text : String) (t : Tree) : Document :=
  ⟨text, some t, (outline settings t text).value⟩

/-- What the analysis of a parsed text reports. -/
def parsedEvents (settings : Settings) (uri text : String) (t : Tree) : List Event :=
  (if t.hasErrors then [.parsedWithErrors uri] else []) ++ (outline settings t text).events ++
    [.extracted (outline settings t text).value.length uri]

theorem text_reextract (settings : Settings) (d : Document) :
    (d.reextract settings).value.text = d.text := by
  obtain ⟨text, tree, modules⟩ := d
  cases tree <;> rfl

theorem tree_reextract (settings : Settings) (d : Document) :
    (d.reextract settings).value.tree = d.tree := by
  obtain ⟨text, tree, modules⟩ := d
  cases tree <;> rfl

end Document

/-! ## Each command, by what the parser answers -/

namespace Workspace

theorem analyze_of_ok (h : parse text = .ok t) (uri : String) : w.analyze parse uri text =
    { result := .ok (Document.parsed w.outlineSettings text t)
      workspace := w.counted
      events := Document.parsedEvents w.outlineSettings uri text t } := by
  rw [analyze, parseText, h]; rfl

theorem analyze_of_error (h : parse text = .error cause) (uri : String) :
    w.analyze parse uri text = ⟨.error cause, w.counted, [.notParsed uri cause]⟩ := by
  rw [analyze, parseText, h]

theorem openDocument_of_ok (h : parse text = .ok t) : w.openDocument parse uri text =
    { result := .ok (Document.parsed w.outlineSettings text t).modules.length
      workspace := w.counted.store uri (.parsed w.outlineSettings text t)
      events := .documentOpened uri :: Document.parsedEvents w.outlineSettings uri text t } := by
  rw [openDocument, analyze_of_ok h]

theorem openDocument_of_error (h : parse text = .error cause) : w.openDocument parse uri text =
    { result := .error (.notParsed uri cause)
      workspace := w.counted.store uri (.unparsed text)
      events := [.documentOpened uri, .notParsed uri cause] } := by
  rw [openDocument, analyze_of_error h]

theorem changeDocument_of_not_contains (hw : w.contains uri = false) :
    w.changeDocument parse uri text =
      ⟨.error (.unknownDocument uri), w, [.documentChanged uri]⟩ := by
  rw [changeDocument, hw]; rfl

theorem changeDocument_of_ok (hw : w.contains uri = true) (h : parse text = .ok t) :
    w.changeDocument parse uri text =
      { result := .ok (Document.parsed w.outlineSettings text t).modules.length
        workspace := w.counted.store uri (.parsed w.outlineSettings text t)
        events := .documentChanged uri :: Document.parsedEvents w.outlineSettings uri text t } := by
  rw [changeDocument, if_pos hw, analyze_of_ok h]

theorem changeDocument_of_error (hw : w.contains uri = true) (h : parse text = .error cause) :
    w.changeDocument parse uri text =
      { result := .error (.notParsed uri cause)
        workspace := w.counted
        events := [.documentChanged uri, .notParsed uri cause] } := by
  rw [changeDocument, if_pos hw, analyze_of_error h]

end Workspace

/-! ## The document under one URI -/

namespace Command

/-- Whether a command can do something to the document under a URI: it names that URI, or none. -/
def concerns (uri : String) (c : Command) : Bool :=
  c.uri?.all (· == uri)

theorem concerns_of_uri? {c : Command} {u : String} (h : c.uri? = some u) (uri : String) :
    c.concerns uri = (u == uri) := by
  rw [concerns, h, Option.all_some]

/-- What a command makes of the document that it concerns, given what was open before. -/
def revise (settings : Settings) : Command → Option Document → Option Document
  | openDocument _ text parse, _ =>
    match parse text with
    | .ok t => some (.parsed settings text t)
    | .error _ => some (.unparsed text)
  | changeDocument _ text parse, old =>
    match parse text with
    | .ok t => old.map fun _ => .parsed settings text t
    | .error _ => old
  | closeDocument _, _ => none
  | reconfigure new, old => old.map fun d => (d.reextract new).value

/-- The settings that a command brings. -/
def settings? : Command → Option Settings
  | reconfigure settings => some settings
  | _ => none

theorem eq_reconfigure_of_settings? {c : Command} {settings : Settings}
    (h : c.settings? = some settings) : c = reconfigure settings := by
  cases c with
  | openDocument u text parse => cases h
  | changeDocument u text parse => cases h
  | closeDocument u => cases h
  | reconfigure new => rw [Option.some.inj h]

theorem settings?_of_not_concerns {c : Command} {uri : String} (h : c.concerns uri = false) :
    c.settings? = none := by
  cases c with
  | openDocument u text parse => rfl
  | changeDocument u text parse => rfl
  | closeDocument u => rfl
  | reconfigure settings => cases h

/-- Whether a command has its text parsed, given which documents are open. -/
def callsParser (isOpen : String → Bool) : Command → Bool
  | openDocument .. => true
  | changeDocument uri .. => isOpen uri
  | closeDocument _ => false
  | reconfigure _ => false

end Command

/-- The last of the values that a list gives, after one more item. -/
theorem getLastD_filterMap_concat {α β : Type} (f : α → Option β) (xs : List α) (x : α) (b : β) :
    ((xs ++ [x]).filterMap f).getLastD b = (f x).getD ((xs.filterMap f).getLastD b) := by
  rw [List.filterMap_append]
  cases h : f x with
  | none => rw [List.filterMap_cons_none h, List.filterMap_nil, List.append_nil]; rfl
  | some y => rw [List.filterMap_cons_some h, List.filterMap_nil, List.getLastD_concat]; rfl

namespace Workspace

theorem contains_eq_isSome (w : Workspace) (uri : String) :
    w.contains uri = (w.document? uri).isSome := rfl

theorem document?_counted (w : Workspace) (uri : String) :
    w.counted.document? uri = w.document? uri := rfl

theorem document?_store (w : Workspace) (uri uri' : String) (d : Document) :
    (w.store uri d).document? uri' = if uri = uri' then some d else w.document? uri' := by
  rw [document?, store, Documents.get?_insert]
  simp only [eq_comm]
  rfl

theorem document?_openDocument (w : Workspace) (parse : Parser) (u text uri : String) :
    (w.openDocument parse u text).workspace.document? uri =
      if u = uri then
        (Command.openDocument u text parse).revise w.outlineSettings (w.document? uri)
      else w.document? uri := by
  cases h : parse text with
  | ok t => rw [openDocument_of_ok h, document?_store, document?_counted, Command.revise, h]
  | error cause =>
    rw [openDocument_of_error h, document?_store, document?_counted, Command.revise, h]

theorem document?_changeDocument (w : Workspace) (parse : Parser) (u text uri : String) :
    (w.changeDocument parse u text).workspace.document? uri =
      if u = uri then
        (Command.changeDocument u text parse).revise w.outlineSettings (w.document? uri)
      else w.document? uri := by
  cases hw : w.contains u with
  | false =>
    rw [changeDocument_of_not_contains hw]
    split
    · next hu =>
      have hnone : w.document? uri = none := by
        rw [hu, contains_eq_isSome] at hw
        simpa using hw
      rw [hnone, Command.revise]
      cases parse text <;> rfl
    · rfl
  | true =>
    cases h : parse text with
    | ok t =>
      rw [changeDocument_of_ok hw h, document?_store, Command.revise, h]
      split
      · next hu =>
        obtain ⟨d, hd⟩ := Option.isSome_iff_exists.1 (hu ▸ hw)
        rw [document?, hd]; rfl
      · rfl
    | error cause =>
      rw [changeDocument_of_error hw h, Command.revise, h, ite_self]
      rfl

theorem document?_closeDocument (w : Workspace) (u uri : String) :
    (w.closeDocument u).workspace.document? uri = if u = uri then none else w.document? uri := by
  rw [closeDocument, document?, Documents.get?_erase]
  simp only [eq_comm]
  rfl

theorem document?_reconfigure (w : Workspace) (settings : Settings) (uri : String) :
    (w.reconfigure settings).workspace.document? uri =
      (w.document? uri).map fun d => (d.reextract settings).value :=
  Documents.get?_map ..

/-- **What a command does to documents.** It revises those that it concerns, and no other. -/
theorem document?_perform (w : Workspace) (c : Command) (uri : String) :
    (w.perform c).workspace.document? uri =
      if c.concerns uri then c.revise w.outlineSettings (w.document? uri)
      else w.document? uri := by
  cases c with
  | openDocument u text parse =>
    rw [Command.concerns_of_uri? rfl]
    simp only [beq_iff_eq]
    exact w.document?_openDocument parse u text uri
  | changeDocument u text parse =>
    rw [Command.concerns_of_uri? rfl]
    simp only [beq_iff_eq]
    exact w.document?_changeDocument parse u text uri
  | closeDocument u =>
    rw [Command.concerns_of_uri? rfl]
    simp only [beq_iff_eq]
    exact w.document?_closeDocument u uri
  | reconfigure settings => exact w.document?_reconfigure settings uri

/-! ## Settings and calls of the parser -/

theorem rest_openDocument (w : Workspace) (parse : Parser) (u text : String) :
    ∃ ds, (w.openDocument parse u text).workspace =
      { w with documents := ds, parses := w.parses + 1 } := by
  cases h : parse text with
  | ok t => rw [openDocument_of_ok h]; exact ⟨_, rfl⟩
  | error cause => rw [openDocument_of_error h]; exact ⟨_, rfl⟩

theorem rest_changeDocument (w : Workspace) (parse : Parser) (u text : String) :
    ∃ ds, (w.changeDocument parse u text).workspace =
      { w with documents := ds, parses := w.parses + (w.contains u).toNat } := by
  cases hw : w.contains u with
  | false => rw [changeDocument_of_not_contains hw]; exact ⟨_, rfl⟩
  | true =>
    cases h : parse text with
    | ok t => rw [changeDocument_of_ok hw h]; exact ⟨_, rfl⟩
    | error cause => rw [changeDocument_of_error hw h]; exact ⟨_, rfl⟩

/-- What a command does to a workspace, the documents apart. -/
theorem rest_perform (w : Workspace) (c : Command) : ∃ ds, (w.perform c).workspace =
    { outlineSettings := c.settings?.getD w.outlineSettings
      scopeSettings := c.settings?.getD w.scopeSettings
      documents := ds
      parses := w.parses + (c.callsParser w.contains).toNat } := by
  cases c with
  | openDocument u text parse => exact w.rest_openDocument parse u text
  | changeDocument u text parse => exact w.rest_changeDocument parse u text
  | closeDocument u => exact ⟨_, rfl⟩
  | reconfigure settings => exact ⟨_, rfl⟩

theorem outlineSettings_perform (w : Workspace) (c : Command) :
    (w.perform c).workspace.outlineSettings = c.settings?.getD w.outlineSettings := by
  obtain ⟨ds, h⟩ := w.rest_perform c
  rw [h]

theorem scopeSettings_perform (w : Workspace) (c : Command) :
    (w.perform c).workspace.scopeSettings = c.settings?.getD w.scopeSettings := by
  obtain ⟨ds, h⟩ := w.rest_perform c
  rw [h]

theorem parses_perform (w : Workspace) (c : Command) :
    (w.perform c).workspace.parses = w.parses + (c.callsParser w.contains).toNat := by
  obtain ⟨ds, h⟩ := w.rest_perform c
  rw [h]

end Workspace

end MoveOutline
