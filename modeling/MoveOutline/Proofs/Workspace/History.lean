import Mathlib.Data.Set.Card
import MoveOutline.Proofs.Workspace.Step
/-!
# What a session leaves behind

A **history** is the list of the commands of a session. From a history alone one can tell which
documents are open at its end, what text and tree each of them has, and how often the parser was
called: a document is open if it was last opened and not closed, its text and tree are the last
ones that were written since then, and only a change that could be parsed writes.

Results:
* `Workspace.contains_run`: the open documents are those that the history leaves open.
* `Workspace.version_run`: text and tree are those of the last write.
* `Workspace.parses_run`: the number of calls of the parser.
* `Workspace.run_lastWrite`: all of it, with the number of open documents.
-/
namespace MoveOutline

/-- Text and tree of a document. -/
def Document.version (d : Document) : String × Option Tree :=
  (d.text, d.tree)

namespace Command

/-- Whether the document under a URI is open after a command that opens or closes it. -/
def openness? (uri : String) : Command → Option Bool
  | openDocument u .. => if u = uri then some true else none
  | closeDocument u => if u = uri then some false else none
  | changeDocument .. => none
  | reconfigure _ => none

/-- The text and tree that a command writes to the document under a URI. Opening always writes,
changing only if there is a tree. -/
def write? (uri : String) : Command → Option (String × Option Tree)
  | openDocument u text parse => if u = uri then some (text, (parse text).toOption) else none
  | changeDocument u text parse =>
    if u = uri then (parse text).toOption.map fun t => (text, some t) else none
  | closeDocument _ => none
  | reconfigure _ => none

/-- Opening always writes. -/
theorem isSome_write?_of_openness? {c : Command} {uri : String}
    (h : c.openness? uri = some true) : (c.write? uri).isSome = true := by
  cases c with
  | openDocument u text parse =>
    by_cases hu : u = uri
    · rw [write?, if_pos hu, Option.isSome_some]
    · simp [openness?, hu] at h
  | closeDocument u => simp [openness?] at h
  | changeDocument u text parse => cases h
  | reconfigure settings => cases h

end Command

namespace History

/-- Whether the last command that opened or closed the document under a URI opened it. -/
def isOpen (cs : List Command) (uri : String) : Bool :=
  (cs.filterMap (·.openness? uri)).getLastD false

/-- The commands from the last opening of the document under a URI on. -/
def sinceOpened (uri : String) (cs : List Command) : List Command :=
  cs.foldl (fun since c => if c.openness? uri = some true then [c] else since ++ [c]) []

/-- What was written to the document under a URI since it was last opened. -/
def writes (cs : List Command) (uri : String) : List (String × Option Tree) :=
  (sinceOpened uri cs).filterMap (·.write? uri)

/-- How many of the commands had their text parsed: the openings, and the changes of documents
that were open at the time. -/
def parses (cs : List Command) : Nat :=
  (List.range cs.length).countP fun i => cs[i]?.any (·.callsParser (isOpen (cs.take i)))

/-! ## One more command -/

theorem isOpen_concat (cs : List Command) (c : Command) (uri : String) :
    isOpen (cs ++ [c]) uri = (c.openness? uri).getD (isOpen cs uri) :=
  getLastD_filterMap_concat ..

theorem writes_concat (cs : List Command) (c : Command) (uri : String) :
    writes (cs ++ [c]) uri =
      (if c.openness? uri = some true then [] else writes cs uri) ++ (c.write? uri).toList := by
  have hone : [c].filterMap (·.write? uri) = (c.write? uri).toList := by
    cases h : c.write? uri <;> simp [h]
  rw [writes, sinceOpened, List.foldl_append, List.foldl_cons, List.foldl_nil]
  split
  · rw [hone, List.nil_append]
  · rw [List.filterMap_append, hone]; rfl

theorem parses_concat (cs : List Command) (c : Command) :
    parses (cs ++ [c]) = parses cs + (c.callsParser (isOpen cs)).toNat := by
  have hbefore : ∀ i ∈ List.range cs.length,
      ((cs ++ [c])[i]?.any (·.callsParser (isOpen ((cs ++ [c]).take i))) = true ↔
        cs[i]?.any (·.callsParser (isOpen (cs.take i))) = true) := by
    intro i hi
    have hlt := List.mem_range.1 hi
    rw [List.getElem?_append_left hlt, List.take_append_of_le_length hlt.le]
  rw [parses, List.length_append, List.length_singleton, List.range_succ, List.countP_append,
    List.countP_congr hbefore, List.countP_singleton, List.getElem?_concat_length,
    List.take_left, Option.any_some]
  cases c.callsParser (isOpen cs) <;> rfl

end History

namespace Workspace

/-! ## One command -/

/-- Text and tree after a command are what it writes, if it writes, and nothing else changes
them while the document is open. -/
theorem version_perform (w : Workspace) (c : Command) (uri : String) :
    ((w.perform c).workspace.document? uri).map Document.version =
      match c.openness? uri with
      | some true => c.write? uri
      | some false => none
      | none => (w.document? uri).map fun d => (c.write? uri).getD d.version := by
  rw [document?_perform]
  cases c with
  | openDocument u text parse =>
    rw [Command.concerns_of_uri? rfl]
    by_cases hu : u = uri
    · cases h : parse text <;>
        simp [hu, Command.openness?, Command.write?, Command.revise, h, Document.version,
          Document.parsed, Document.unparsed, Except.toOption]
    · simp [hu, Command.openness?, Command.write?]
  | changeDocument u text parse =>
    rw [Command.concerns_of_uri? rfl]
    by_cases hu : u = uri
    · cases h : parse text <;> cases w.document? uri <;>
        simp [hu, Command.openness?, Command.write?, Command.revise, h, Document.version,
          Document.parsed, Except.toOption]
    · simp [hu, Command.openness?, Command.write?]
  | closeDocument u =>
    rw [Command.concerns_of_uri? rfl]
    by_cases hu : u = uri <;> simp [hu, Command.openness?, Command.write?, Command.revise]
  | reconfigure settings =>
    cases w.document? uri <;>
      simp [Command.concerns, Command.uri?, Command.openness?, Command.write?, Command.revise,
        Document.version, Document.text_reextract, Document.tree_reextract]

theorem contains_perform (w : Workspace) (c : Command) (uri : String) :
    (w.perform c).workspace.contains uri = (c.openness? uri).getD (w.contains uri) := by
  have h := congrArg Option.isSome (w.version_perform c uri)
  rw [Option.isSome_map] at h
  rw [contains_eq_isSome, contains_eq_isSome, h]
  rcases hc : c.openness? uri with _ | _ | _
  · rw [Option.isSome_map]; rfl
  · rfl
  · exact Command.isSome_write?_of_openness? hc

/-! ## Whole sessions -/

/-- A document is open at the end of a session if the history leaves it open. -/
theorem contains_run (settings : Settings) (cs : List Command) (uri : String) :
    ((new settings).run cs).contains uri = History.isOpen cs uri := by
  induction cs using List.reverseRecOn with
  | nil => rfl
  | append_singleton cs c ih => rw [run_concat, contains_perform, ih, History.isOpen_concat]

/-- Text and tree of an open document are those of the last write to it. -/
theorem version_run (settings : Settings) (cs : List Command) (uri : String) :
    (((new settings).run cs).document? uri).map Document.version =
      if History.isOpen cs uri then (History.writes cs uri).getLast? else none := by
  induction cs using List.reverseRecOn with
  | nil => rfl
  | append_singleton cs c ih =>
    have hopen := contains_run settings cs uri
    rw [contains_eq_isSome] at hopen
    rw [run_concat, version_perform, History.isOpen_concat, History.writes_concat]
    generalize ((new settings).run cs).document? uri = old at hopen ih ⊢
    rcases hc : c.openness? uri with _ | _ | _
    · -- An open document has been written to, so one more write takes the place of the last.
      cases old with
      | none =>
        rw [← hopen]; rfl
      | some d =>
        rw [← hopen] at ih ⊢
        have hlast : (History.writes cs uri).getLast? = some d.version := ih.symm
        cases hw : c.write? uri <;> simp [hlast]
    · rfl
    · obtain ⟨v, hv⟩ := Option.isSome_iff_exists.1 (Command.isSome_write?_of_openness? hc)
      simp [hv]

theorem parses_run (settings : Settings) (cs : List Command) :
    ((new settings).run cs).parses = History.parses cs := by
  induction cs using List.reverseRecOn with
  | nil => rfl
  | append_singleton cs c ih =>
    have hopen : ((new settings).run cs).contains = History.isOpen cs :=
      funext (contains_run settings cs)
    rw [run_concat, parses_perform, ih, hopen, History.parses_concat]

/-- The open documents, counted. -/
theorem encard_open (w : Workspace) : {u | w.contains u = true}.encard = w.size := by
  have hset : {u | w.contains u = true} = (w.documents.uris.toFinset : Set String) := by
    ext u
    rw [Finset.mem_coe, List.mem_toFinset, Documents.mem_uris_iff]
    rfl
  have hnodup : w.documents.uris.Nodup := w.documents.nodup
  have hcard : w.documents.uris.toFinset.card = w.size := by
    rw [List.toFinset_card_of_nodup hnodup]
    exact List.length_map ..
  rw [hset, Set.encard_coe_eq_coe_finsetCard, hcard]

/-- **The last write wins.** After any session from a new workspace a document is open exactly if
the last command that opened or closed it opened it. Its text and tree are then the last of those
written since, first by the opening and then by the changes that could be parsed. The size of the
workspace is the number of URIs so opened, and the parser was called once for every opening and
once for every change of a document that was open at the time. -/
theorem run_lastWrite (settings : Settings) (cs : List Command) (uri : String) :
    let w := (new settings).run cs
    (w.contains uri = true ↔ (cs.filterMap (·.openness? uri)).getLast? = some true) ∧
      (w.document? uri).map (fun d => (d.text, d.tree)) =
        (if History.isOpen cs uri then (History.writes cs uri).getLast? else none) ∧
      w.size = {u | History.isOpen cs u = true}.encard ∧
      (w.isEmpty = true ↔ w.size = 0) ∧
      w.parses = History.parses cs := by
  intro w
  have hopen (u : String) : w.contains u = History.isOpen cs u := contains_run settings cs u
  refine ⟨?_, version_run settings cs uri, ?_, ?_, parses_run settings cs⟩
  · rw [hopen, History.isOpen, List.getLastD_eq_getLast?]
    cases (cs.filterMap (·.openness? uri)).getLast? <;> simp
  · simp only [← hopen]
    exact w.encard_open.symm
  · rw [isEmpty, size, Documents.isEmpty, Documents.size, List.isEmpty_iff, List.length_eq_zero_iff]

end Workspace

/-- Closing forgets what was written, a failed opening writes its text, a failed change nothing. -/
example (t : Tree) :
    History.writes
      [.openDocument "a" "1" fun _ => .ok t, .closeDocument "a",
        .openDocument "a" "2" fun _ => .error .noTree,
        .changeDocument "a" "3" fun _ => .error .noTree,
        .changeDocument "a" "4" fun _ => .ok t] "a" = [("2", none), ("4", some t)] := rfl

end MoveOutline
