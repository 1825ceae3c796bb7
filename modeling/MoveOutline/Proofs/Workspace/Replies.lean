import MoveOutline.Proofs.Workspace.Independence
/-!
# What replies say of the documents

Opening and changing answer a number of modules or an error, and closing answers whether there was
something to close. Here it is shown that these answers are true of the workspace before and after
the command, and that a command that fails does no more than its error says: a failed change does
nothing to any document, and a failed opening leaves the text without tree and modules.

Results:
* `Workspace.openDocument_eq_error_iff`, `Workspace.changeDocument_eq_error_iff`: which errors are
  answered, and when.
* `Workspace.changeDocument_of_failed`: a failed change is a call of the parser at most.
* `Workspace.run_effective`: a session without its failed changes ends alike.
* `Workspace.replies_true`: opening, changing and closing, with what they answer.
-/
namespace MoveOutline

namespace Workspace

variable {w : Workspace} {parse : Parser} {uri text : String} {e : WorkspaceError} {n : Nat}

/-! ## Errors -/

theorem openDocument_eq_error_iff :
    (w.openDocument parse uri text).result = .error e ↔
      ∃ cause, parse text = .error cause ∧ e = .notParsed uri cause := by
  cases h : parse text with
  | ok t => simp [openDocument_of_ok h]
  | error cause => simp [openDocument_of_error h, eq_comm]

theorem changeDocument_eq_error_iff :
    (w.changeDocument parse uri text).result = .error e ↔
      w.contains uri = false ∧ e = .unknownDocument uri ∨
        w.contains uri = true ∧ ∃ cause, parse text = .error cause ∧ e = .notParsed uri cause := by
  cases hw : w.contains uri with
  | false => simp [changeDocument_of_not_contains hw, eq_comm]
  | true =>
    cases h : parse text with
    | ok t => simp [changeDocument_of_ok hw h]
    | error cause => simp [changeDocument_of_error hw h, eq_comm]

/-- A failed change is a call of the parser at most. -/
theorem changeDocument_of_failed (h : (w.changeDocument parse uri text).result = .error e) :
    (w.changeDocument parse uri text).workspace =
      { w with parses := w.parses + (w.contains uri).toNat } := by
  rcases changeDocument_eq_error_iff.1 h with ⟨hw, -⟩ | ⟨hw, cause, hparse, -⟩
  · rw [changeDocument_of_not_contains hw, hw]
    rfl
  · rw [changeDocument_of_error hw hparse, hw]
    rfl

/-- A failed opening leaves the text under the URI, and nothing more. -/
theorem openDocument_of_failed (h : (w.openDocument parse uri text).result = .error e) :
    (w.openDocument parse uri text).workspace = w.counted.store uri (.unparsed text) := by
  obtain ⟨cause, hparse, -⟩ := openDocument_eq_error_iff.1 h
  rw [openDocument_of_error hparse]

/-! ## Numbers of modules -/

theorem modules?_store (w : Workspace) (uri : String) (d : Document) :
    (w.store uri d).modules? uri = some d.modules := by
  rw [modules?, document?_store, if_pos rfl]
  rfl

theorem modules?_openDocument (h : (w.openDocument parse uri text).result = .ok n) :
    ((w.openDocument parse uri text).workspace.modules? uri).map List.length = some n := by
  cases hparse : parse text with
  | ok t =>
    rw [openDocument_of_ok hparse] at h ⊢
    rw [modules?_store]
    exact congrArg some (Except.ok.inj h)
  | error cause =>
    rw [openDocument_of_error hparse] at h
    cases h

theorem modules?_changeDocument (h : (w.changeDocument parse uri text).result = .ok n) :
    ((w.changeDocument parse uri text).workspace.modules? uri).map List.length = some n := by
  cases hw : w.contains uri with
  | false =>
    rw [changeDocument_of_not_contains hw] at h
    cases h
  | true =>
    cases hparse : parse text with
    | ok t =>
      rw [changeDocument_of_ok hw hparse] at h ⊢
      rw [modules?_store]
      exact congrArg some (Except.ok.inj h)
    | error cause =>
      rw [changeDocument_of_error hw hparse] at h
      cases h

/-! ## Failed changes in a session -/

/-- The workspace as if the parser had never been called. -/
def uncounted (w : Workspace) : Workspace :=
  { w with parses := 0 }

/-- Whether a command is a change that fails. -/
def refuses (w : Workspace) : Command → Bool
  | .openDocument .. => false
  | .changeDocument uri text parse => !(w.changeDocument parse uri text).result.isOk
  | .closeDocument _ => false
  | .reconfigure _ => false

/-- A session without the changes that fail in it. -/
def effective (w : Workspace) : List Command → List Command
  | [] => []
  | c :: cs =>
    let later := (w.perform c).workspace.effective cs
    if w.refuses c then later else c :: later

theorem uncounted_perform_of_refuses {c : Command} (h : w.refuses c = true) :
    (w.perform c).workspace.uncounted = w.uncounted := by
  cases c with
  | openDocument uri text parse => cases h
  | changeDocument uri text parse =>
    cases hresult : (w.changeDocument parse uri text).result with
    | ok n =>
      rw [refuses, hresult] at h
      cases h
    | error e =>
      rw [perform, Outcome.map, changeDocument_of_failed hresult]
      rfl
  | closeDocument uri => cases h
  | reconfigure settings => cases h

/-- What a command does to documents and settings does not depend on the calls counted so far. -/
theorem uncounted_perform_congr {w w' : Workspace} (h : w.uncounted = w'.uncounted) (c : Command) :
    (w.perform c).workspace.uncounted = (w'.perform c).workspace.uncounted := by
  obtain ⟨parses', rfl⟩ : ∃ parses', w' = { w with parses := parses' } := by
    obtain ⟨houtline, hscope, hdocuments, -⟩ := Workspace.mk.inj h
    exact ⟨w'.parses, by rw [houtline, hscope, hdocuments]⟩
  cases c with
  | openDocument uri text parse =>
    rw [perform, perform, Outcome.map, Outcome.map]
    cases hparse : parse text with
    | ok t => rw [openDocument_of_ok hparse, openDocument_of_ok hparse]; rfl
    | error cause => rw [openDocument_of_error hparse, openDocument_of_error hparse]; rfl
  | changeDocument uri text parse =>
    rw [perform, perform, Outcome.map, Outcome.map]
    cases hw : w.contains uri with
    | false =>
      have hw' : contains { w with parses := parses' } uri = false := hw
      rw [changeDocument_of_not_contains hw, changeDocument_of_not_contains hw']
      rfl
    | true =>
      have hw' : contains { w with parses := parses' } uri = true := hw
      cases hparse : parse text with
      | ok t => rw [changeDocument_of_ok hw hparse, changeDocument_of_ok hw' hparse]; rfl
      | error cause =>
        rw [changeDocument_of_error hw hparse, changeDocument_of_error hw' hparse]
        rfl
  | closeDocument uri => rfl
  | reconfigure settings => rfl

theorem uncounted_run_congr {w w' : Workspace} (h : w.uncounted = w'.uncounted)
    (cs : List Command) : (w.run cs).uncounted = (w'.run cs).uncounted := by
  induction cs generalizing w w' with
  | nil => exact h
  | cons c cs ih => exact ih (uncounted_perform_congr h c)

/-- **Failed changes leave no trace.** Without them a session ends with the same documents and the
same settings. -/
theorem run_effective (w : Workspace) (cs : List Command) :
    (w.run (w.effective cs)).uncounted = (w.run cs).uncounted := by
  induction cs generalizing w with
  | nil => rfl
  | cons c cs ih =>
    rw [effective, run_cons, ← ih]
    cases h : w.refuses c with
    | true => exact (uncounted_run_congr (uncounted_perform_of_refuses h) _).symm
    | false => rfl

/-! ## All replies -/

/-- **Replies are true, and a failed change does nothing.** In any workspace, changing a document
fails as unknown exactly if the document is not open, and then the parser is not called, whatever
it is. If the parser is called and fails, its error is answered under the URI. A number answered
is that of the modules now stored under the URI. A change that fails leaves every document, their
number and the settings as they were; an opening that fails leaves the text without tree and
modules under the URI, and all other documents as they were. Closing answers whether the document
was open, and leaves all others as they were. -/
theorem replies_true (w : Workspace) (parse : Parser) (uri text : String) :
    let opened := w.openDocument parse uri text
    let changed := w.changeDocument parse uri text
    let closed := w.closeDocument uri
    (changed.result = .error (.unknownDocument uri) ↔ w.contains uri = false) ∧
    (w.contains uri = false →
      changed.workspace = w ∧ ∀ parse', w.changeDocument parse' uri text = changed) ∧
    (∀ cause, parse text = .error cause →
      opened.result = .error (.notParsed uri cause) ∧
        (w.contains uri = true → changed.result = .error (.notParsed uri cause))) ∧
    (∀ n, opened.result = .ok n → (opened.workspace.modules? uri).map List.length = some n) ∧
    (∀ n, changed.result = .ok n → (changed.workspace.modules? uri).map List.length = some n) ∧
    (∀ e, changed.result = .error e →
      (∀ v, changed.workspace.document? v = w.document? v) ∧
        changed.workspace.size = w.size ∧
        changed.workspace.outlineSettings = w.outlineSettings ∧
        changed.workspace.scopeSettings = w.scopeSettings) ∧
    (∀ e, opened.result = .error e →
      opened.workspace.document? uri = some ⟨text, none, []⟩ ∧
        ∀ v, v ≠ uri → opened.workspace.document? v = w.document? v) ∧
    (closed.result = true ↔ w.contains uri = true) ∧
    ∀ v, v ≠ uri → closed.workspace.document? v = w.document? v := by
  intro opened changed closed
  refine ⟨?unknown, ?notCalled, ?parserFails, fun n => modules?_openDocument,
    fun n => modules?_changeDocument, ?failedChange, ?failedOpening, Iff.rfl, ?otherClosed⟩
  case unknown =>
    rw [changeDocument_eq_error_iff]
    simp
  case notCalled =>
    intro hw
    have hchanged (parse' : Parser) : w.changeDocument parse' uri text =
        ⟨.error (.unknownDocument uri), w, [.documentChanged uri]⟩ :=
      changeDocument_of_not_contains hw
    exact ⟨congrArg Outcome.workspace (hchanged parse),
      fun parse' => (hchanged parse').trans (hchanged parse).symm⟩
  case parserFails =>
    intro cause hparse
    exact ⟨openDocument_eq_error_iff.2 ⟨cause, hparse, rfl⟩,
      fun hw => changeDocument_eq_error_iff.2 (.inr ⟨hw, cause, hparse, rfl⟩)⟩
  case failedChange =>
    intro e h
    have hworkspace : changed.workspace = _ := changeDocument_of_failed h
    rw [hworkspace]
    exact ⟨fun _ => rfl, rfl, rfl, rfl⟩
  case failedOpening =>
    intro e h
    have hworkspace : opened.workspace = _ := openDocument_of_failed h
    rw [hworkspace]
    refine ⟨?_, fun v hv => ?_⟩
    · rw [document?_store, if_pos rfl]
      rfl
    · rw [document?_store, if_neg (Ne.symm hv), document?_counted]
  case otherClosed =>
    intro v hv
    have hclosed := w.document?_closeDocument uri v
    rwa [if_neg (Ne.symm hv)] at hclosed

end Workspace

/-- A workspace with one document that was parsed and one that was not. -/
def halfParsed : Workspace :=
  (Workspace.new {}).run
    [.openDocument "a" moduleText fun _ => .ok moduleTree,
      .openDocument "b" "" fun _ => .error .empty]

/-- The parsed document stays through a change that fails, the other one is mended by a change that
does not, and there is no third one to change. -/
theorem replies_true_halfParsed :
    let failed := halfParsed.changeDocument (fun _ => .error .noTree) "a" "mod"
    let mended := halfParsed.changeDocument (fun _ => .ok moduleTree) "b" moduleText
    let unknown := halfParsed.changeDocument (fun _ => .ok moduleTree) "c" moduleText
    failed.result = .error (.notParsed "a" .noTree) ∧
      failed.workspace.document? "a" = halfParsed.document? "a" ∧
      halfParsed.document? "a" = some ⟨moduleText, some moduleTree, [{ name := "A" }]⟩ ∧
      (mended.workspace.modules? "b").map List.length = some 1 ∧
      unknown.result = .error (.unknownDocument "c") ∧ unknown.workspace = halfParsed := by
  intro failed mended unknown
  obtain ⟨-, -, hfailed, -, -, hsame, -⟩ :=
    halfParsed.replies_true (fun _ => .error .noTree) "a" "mod"
  obtain ⟨-, -, -, -, hmended, -⟩ :=
    halfParsed.replies_true (fun _ => .ok moduleTree) "b" moduleText
  obtain ⟨hunknown, hnotCalled, -⟩ :=
    halfParsed.replies_true (fun _ => .ok moduleTree) "c" moduleText
  have hresult := (hfailed .noTree rfl).2 (by decide +kernel)
  have hopen : halfParsed.contains "c" = false := by decide +kernel
  exact ⟨hresult, (hsame _ hresult).1 "a", by decide +kernel, hmended 1 (by decide +kernel),
    hunknown.2 hopen, (hnotCalled hopen).1⟩

end MoveOutline
