import MoveOutline.Proofs.Outline.Modules
import MoveOutline.Proofs.Syntax.Links
import MoveOutline.Proofs.Workspace.History
import MoveOutline.Proofs.Workspace.InForce
/-!
# What the log tells

Every command reports what it does, and each report is an **entry** of a log: a level and a message.
What the log says of a text that is opened or changed follows from what the parser answers and from
the limit in force, and what it says of new settings from the texts and trees of the open documents.
Nothing need be known of how a tree is searched: a search that may be cut short warns exactly if the
tree has more nodes below its root than the limit admits.

New settings reach the open documents in an order that is nobody's concern. So the warnings that come
with them are described by the set of the documents that they are about.

Results:
* `map_entry_outline`: the entries of one search.
* `Document.map_entry_parsedEvents`, `Document.map_entry_reextract`: the entries about one text.
* `Workspace.log_openDocument`, `Workspace.log_changeDocument`, `Workspace.log_reconfigure`: the
  entries of one command.
* `Workspace.run_log`: all of it, after any session.
-/
namespace MoveOutline

/-- What an event says in a log. -/
def Event.entry (e : Event) : EventLevel × String :=
  (e.level, e.message)

/-- The entries that a command adds to the log. -/
def Outcome.log {α : Type} (o : Outcome α) : List (EventLevel × String) :=
  o.events.map Event.entry

/-- The warning that a search for modules was cut short. -/
def stoppedEntry (limit modules : Nat) : EventLevel × String :=
  (.warning, "Declaration walk stopped after Some(" ++ toString limit ++ ") nodes, returning " ++
    toString modules ++ " module(s) found so far")

/-- The warning about the search of a tree, if the limit admits fewer nodes than the tree has below
its root. A tree is not searched for an empty text. -/
def stoppedLog (limit : Option Nat) (text : String) (t : Tree) (modules : Nat) :
    List (EventLevel × String) :=
  match limit with
  | none => []
  | some b => if text ≠ "" ∧ b < t.size - 1 then [stoppedEntry b modules] else []

/-- The entries about a text with a tree in which some modules were found. -/
def parsedLog (limit : Option Nat) (uri text : String) (t : Tree) (modules : Nat) :
    List (EventLevel × String) :=
  (if ∃ n ∈ t.nodes, n.kind = "ERROR" then [(.debug, uri ++ " parsed with syntax errors")]
    else []) ++
    stoppedLog limit text t modules ++
    [(.debug, "Extracted " ++ toString modules ++ " module(s) from " ++ uri)]

/-- The entries about a text, given what the parser answers, beside the answer of the command. -/
inductive Analyzed (limit : Option Nat) (uri text : String) :
    Except SyntaxError Tree → Except WorkspaceError Nat → List (EventLevel × String) → Prop
  | failed (cause : SyntaxError) :
    Analyzed limit uri text (.error cause) (.error (.notParsed uri cause))
      [(.warning, "Unable to parse " ++ uri ++ ": " ++ cause.message)]
  | parsed (t : Tree) (modules : Nat) :
    Analyzed limit uri text (.ok t) (.ok modules) (parsedLog limit uri text t modules)

/-- Whether a document has a tree with more nodes below its root than a limit admits, and a text to
search it for. -/
def Document.exceeds (limit : Nat) (d : Document) : Bool :=
  d.tree.any fun t => d.text ≠ "" ∧ limit + 1 < t.size

/-! ## One text -/

theorem map_entry_outline (settings : Settings) (t : Tree) (text : String) :
    (outline settings t text).events.map Event.entry =
      stoppedLog settings.nodeBudget text t (outline settings t text).value.length := by
  cases hb : settings.nodeBudget with
  | none => rw [outline_events_unlimited settings t text hb]; rfl
  | some b =>
    by_cases hs : text = ""
    · subst hs
      rfl
    · rw [outline_events settings t text hs b hb, stoppedLog]
      by_cases h : b < t.size - 1
      · rw [if_pos h, if_pos ⟨hs, h⟩]
        rfl
      · rw [if_neg h, if_neg fun h' => h h'.2]
        rfl

namespace Document

theorem map_entry_parsedEvents (settings : Settings) (uri text : String) (t : Tree) :
    (parsedEvents settings uri text t).map Event.entry =
      parsedLog settings.nodeBudget uri text t (parsed settings text t).modules.length := by
  have herrors : (if t.hasErrors then [Event.parsedWithErrors uri] else []).map Event.entry =
      if ∃ n ∈ t.nodes, n.kind = "ERROR" then [(.debug, uri ++ " parsed with syntax errors")]
      else [] := by
    have hiff : t.hasErrors = true ↔ ∃ n ∈ t.nodes, n.kind = "ERROR" := by
      simp only [t.hasErrors_iff, Label.isError, Label.errorKind, beq_iff_eq]
      rfl
    by_cases h : ∃ n ∈ t.nodes, n.kind = "ERROR"
    · rw [if_pos h, if_pos (hiff.2 h)]
      rfl
    · rw [if_neg h, if_neg fun h' => h (hiff.1 h')]
      rfl
  rw [parsedEvents, List.map_append, List.map_append, herrors, map_entry_outline]
  rfl

theorem exceeds_iff {limit : Nat} {d : Document} :
    d.exceeds limit = true ↔ ∃ t, d.tree = some t ∧ d.text ≠ "" ∧ limit + 1 < t.size := by
  simp only [exceeds, Option.any_eq_true, decide_eq_true_eq]

theorem map_entry_reextract {settings : Settings} {b : Nat} (hb : settings.nodeBudget = some b)
    (d : Document) : (d.reextract settings).events.map Event.entry =
      if d.exceeds b then [stoppedEntry b (d.reextract settings).value.modules.length] else [] := by
  obtain ⟨text, tree, modules⟩ := d
  cases tree with
  | none => rfl
  | some t =>
    have hentries := map_entry_outline settings t text
    rw [hb, stoppedLog] at hentries
    refine hentries.trans (if_congr ?_ rfl rfl)
    rw [exceeds, Option.any_some, decide_eq_true_eq]
    exact and_congr_right fun _ => by omega

theorem events_reextract_unlimited {settings : Settings} (hb : settings.nodeBudget = none)
    (d : Document) : (d.reextract settings).events = [] := by
  obtain ⟨text, tree, modules⟩ := d
  cases tree with
  | none => rfl
  | some t => exact outline_events_unlimited settings t text hb

end Document

/-- The entries of a collection are what is found in it. -/
theorem Documents.mem_entries_iff {ds : Documents} {uri : String} {d : Document} :
    (uri, d) ∈ ds.entries ↔ ds.get? uri = some d := by
  constructor
  · intro h
    obtain ⟨front, back, hentries⟩ := List.append_of_mem h
    have hnodup := ds.nodup
    rw [hentries, List.map_append, List.map_cons, List.nodup_append] at hnodup
    rw [get?, List.lookup_eq_some_iff]
    refine ⟨front, back, hentries, fun e he => ?_⟩
    have hne := hnodup.2.2 e.1 (List.mem_map_of_mem he) uri List.mem_cons_self
    simpa using Ne.symm hne
  · intro h
    rw [get?, List.lookup_eq_some_iff] at h
    obtain ⟨front, back, hentries, -⟩ := h
    rw [hentries]
    exact List.mem_append_right _ List.mem_cons_self

/-- Items that add one entry or none. -/
theorem flatMap_singleton_or_nil {α β : Type} (p : α → Bool) (f : α → β) (xs : List α) :
    (xs.flatMap fun x => if p x then [f x] else []) = (xs.filter p).map f := by
  induction xs with
  | nil => rfl
  | cons x xs ih => cases h : p x <;> simp [h, ih]

/-! ## One command -/

namespace Workspace

variable (w : Workspace) (parse : Parser) (uri text : String)

theorem log_openDocument : ∃ later,
    (w.openDocument parse uri text).log = (.debug, "Document opened: " ++ uri) :: later ∧
      Analyzed w.outlineSettings.nodeBudget uri text (parse text)
        (w.openDocument parse uri text).result later := by
  cases h : parse text with
  | ok t =>
    rw [openDocument_of_ok h, Outcome.log, List.map_cons, Document.map_entry_parsedEvents]
    exact ⟨_, rfl, .parsed t _⟩
  | error cause =>
    rw [openDocument_of_error h]
    exact ⟨_, rfl, .failed cause⟩

theorem log_changeDocument : ∃ later,
    (w.changeDocument parse uri text).log = (.debug, "Document changed: " ++ uri) :: later ∧
      if w.contains uri then
        Analyzed w.outlineSettings.nodeBudget uri text (parse text)
          (w.changeDocument parse uri text).result later
      else later = [] := by
  cases hw : w.contains uri with
  | false =>
    rw [changeDocument_of_not_contains hw]
    exact ⟨_, rfl, rfl⟩
  | true =>
    simp only [if_true]
    cases h : parse text with
    | ok t =>
      rw [changeDocument_of_ok hw h, Outcome.log, List.map_cons, Document.map_entry_parsedEvents]
      exact ⟨_, rfl, .parsed t _⟩
    | error cause =>
      rw [changeDocument_of_error hw h]
      exact ⟨_, rfl, .failed cause⟩

/-- The entry that ends the log about new settings. -/
def reextractedEntry (documents : Nat) : EventLevel × String :=
  (.debug, "Re-extracted " ++ toString documents ++ " open document(s)")

theorem log_reconfigure_unlimited {settings : Settings} (hb : settings.nodeBudget = none) :
    (w.reconfigure settings).log = [reextractedEntry w.size] := by
  have hnone : (w.documents.entries.flatMap fun e => (e.2.reextract settings).events) = [] :=
    List.flatMap_eq_nil_iff.2 fun e _ => e.2.events_reextract_unlimited hb
  rw [Outcome.log, reconfigure, hnone]
  rfl

theorem log_reconfigure {settings : Settings} {b : Nat} (hb : settings.nodeBudget = some b) :
    ∃ warned : List String, warned.Nodup ∧
      (∀ u, u ∈ warned ↔ ∃ d, w.document? u = some d ∧ d.exceeds b = true) ∧
      (w.reconfigure settings).log =
        warned.map (fun u => stoppedEntry b
          (((w.reconfigure settings).workspace.modules? u).getD []).length) ++
          [reextractedEntry w.size] := by
  let exceeding := w.documents.entries.filter fun e => e.2.exceeds b
  refine ⟨exceeding.map Prod.fst, w.documents.nodup.sublist (List.filter_sublist.map _), ?_, ?_⟩
  · intro u
    rw [List.mem_map]
    constructor
    · rintro ⟨⟨v, d⟩, he, rfl⟩
      obtain ⟨hmem, hd⟩ := List.mem_filter.1 he
      exact ⟨d, Documents.mem_entries_iff.1 hmem, hd⟩
    · rintro ⟨d, hu, hd⟩
      exact ⟨(u, d), List.mem_filter.2 ⟨Documents.mem_entries_iff.2 hu, hd⟩, rfl⟩
  · have hwarnings : (w.documents.entries.flatMap fun e => (e.2.reextract settings).events).map
        Event.entry =
          exceeding.map fun e => stoppedEntry b (e.2.reextract settings).value.modules.length := by
      rw [List.map_flatMap]
      simp only [Document.map_entry_reextract hb]
      exact flatMap_singleton_or_nil _ _ _
    rw [Outcome.log, reconfigure, List.map_append, hwarnings, List.map_map]
    congr 1
    apply List.map_congr_left
    rintro ⟨u, d⟩ he
    have hu : w.document? u = some d := Documents.mem_entries_iff.1 (List.mem_of_mem_filter he)
    have hafter : (w.reconfigure settings).workspace.modules? u =
        some (d.reextract settings).value.modules := by
      rw [modules?, document?_reconfigure, hu]
      rfl
    show _ = stoppedEntry b (((w.reconfigure settings).workspace.modules? u).getD []).length
    rw [hafter]
    rfl

/-- **The log agrees with what happened.** After any session, the log of an opening or a change
starts with an entry that names the document. Nothing follows if the document is to be changed and is
not open. If the parser has no tree, one warning follows, with its error. Otherwise it is told in
this order whether there are error nodes in the tree, whether the limit in force admits fewer nodes
than the tree has below its root, and how many modules were found, which is the number that the
command answers and that the warning names. New settings bring one warning for each open document
that has a text and a tree with more nodes than the new limit admits, with the number of the modules
now found in it, and at the end the number of all open documents. -/
theorem run_log (settings : Settings) (cs : List Command) (parse : Parser) (uri text : String)
    (renewed : Settings) :
    let w := (new settings).run cs
    let inForce := (cs.filterMap (·.settings?)).getLastD settings
    let opened := w.openDocument parse uri text
    let changed := w.changeDocument parse uri text
    let after := w.reconfigure renewed
    (∃ later, opened.log = (.debug, "Document opened: " ++ uri) :: later ∧
      Analyzed inForce.nodeBudget uri text (parse text) opened.result later) ∧
    (∃ later, changed.log = (.debug, "Document changed: " ++ uri) :: later ∧
      if w.contains uri then
        Analyzed inForce.nodeBudget uri text (parse text) changed.result later
      else later = []) ∧
    {u | w.contains u = true}.encard = w.size ∧
    match renewed.nodeBudget with
    | none => after.log = [reextractedEntry w.size]
    | some b => ∃ warned : List String, warned.Nodup ∧
      (∀ u, u ∈ warned ↔ ∃ d t, w.document? u = some d ∧ d.tree = some t ∧ d.text ≠ "" ∧
        b + 1 < t.size) ∧
      after.log =
        warned.map (fun u => stoppedEntry b ((after.workspace.modules? u).getD []).length) ++
          [reextractedEntry w.size] := by
  intro w inForce opened changed after
  have hsettings : w.outlineSettings = inForce := outlineSettings_run settings cs
  rw [← hsettings]
  refine ⟨w.log_openDocument parse uri text, w.log_changeDocument parse uri text, w.encard_open, ?_⟩
  cases hb : renewed.nodeBudget with
  | none => exact w.log_reconfigure_unlimited hb
  | some b =>
    obtain ⟨warned, hnodup, hwarned, hlog⟩ := w.log_reconfigure hb
    refine ⟨warned, hnodup, fun u => ?_, hlog⟩
    simp only [hwarned, Document.exceeds_iff, exists_and_left]

/-- A document is parsed, with an error in it and beyond the limit, and another one is not. -/
example :
    let w := (new { nodeBudget := some 1 }).run
      [.openDocument "b" "" fun _ => .error .noTree]
    let opened := w.openDocument (fun _ => .ok unevenTree) "a" "word"
    opened.log =
      [(.debug, "Document opened: a"), (.debug, "a parsed with syntax errors"),
        (.warning, "Declaration walk stopped after Some(1) nodes, returning 0 module(s) found so far"),
        (.debug, "Extracted 0 module(s) from a")] ∧
    (opened.workspace.reconfigure { nodeBudget := some 3 }).log =
      [(.warning, "Declaration walk stopped after Some(3) nodes, returning 0 module(s) found so far"),
        (.debug, "Re-extracted 2 open document(s)")] ∧
    (opened.workspace.reconfigure { nodeBudget := some 4 }).log =
      [(.debug, "Re-extracted 2 open document(s)")] := by
  decide +kernel

end Workspace

end MoveOutline
