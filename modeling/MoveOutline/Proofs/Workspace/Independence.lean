import Mathlib.Data.List.Forall2
import MoveOutline.Proofs.Syntax.Ancestry
import MoveOutline.Proofs.Workspace.Step
/-!
# Documents do not interfere

What a session does to one document is decided by the commands that name it and by the settings
on the way. Two workspaces that are alike at a URI (`Workspace.SameAt`) answer a command on it
alike and stay alike, and commands on other documents leave them alike. So two sessions that have
the commands concerning a URI in common, up to how their parsers come to their answers, cannot be
told apart there, whatever else goes on in between.

Results:
* `Workspace.SameAt.perform`, `Workspace.SameAt.answer_eq`: one command on both sides.
* `Workspace.sameAt_perform_of_not_concerns`: one command on another document.
* `Workspace.sameAt_run_filter`: a session beside its part that concerns a URI.
* `Workspace.documents_independent`: two sessions.
-/
namespace MoveOutline

/-! ## The same request -/

/-- Two commands that ask for the same, and whose parsers make the same of the text at hand. -/
inductive Command.Agrees : Command → Command → Prop where
  | openDocument {uri text : String} {parse parse' : Parser} (h : parse text = parse' text) :
    Agrees (.openDocument uri text parse) (.openDocument uri text parse')
  | changeDocument {uri text : String} {parse parse' : Parser} (h : parse text = parse' text) :
    Agrees (.changeDocument uri text parse) (.changeDocument uri text parse')
  | closeDocument {uri : String} : Agrees (.closeDocument uri) (.closeDocument uri)
  | reconfigure {settings : Settings} : Agrees (.reconfigure settings) (.reconfigure settings)

namespace Command.Agrees

variable {c c' : Command}

theorem refl (c : Command) : c.Agrees c := by
  cases c with
  | openDocument uri text parse => exact .openDocument rfl
  | changeDocument uri text parse => exact .changeDocument rfl
  | closeDocument uri => exact .closeDocument
  | reconfigure settings => exact .reconfigure

theorem uri?_eq (h : c.Agrees c') : c.uri? = c'.uri? := by
  cases h <;> rfl

theorem settings?_eq (h : c.Agrees c') : c.settings? = c'.settings? := by
  cases h <;> rfl

theorem concerns_eq (h : c.Agrees c') (uri : String) : c.concerns uri = c'.concerns uri := by
  rw [concerns, concerns, h.uri?_eq]

theorem revise_eq (h : c.Agrees c') (settings : Settings) (old : Option Document) :
    c.revise settings old = c'.revise settings old := by
  cases h with
  | openDocument h => rw [revise, revise, h]
  | changeDocument h => rw [revise, revise, h]
  | closeDocument => rfl
  | reconfigure => rfl

end Command.Agrees

namespace Workspace

/-! ## Alike at one URI -/

/-- Two workspaces that are alike as far as the document under one URI is concerned. -/
structure SameAt (uri : String) (w w' : Workspace) : Prop where
  outlineSettings : w.outlineSettings = w'.outlineSettings
  scopeSettings : w.scopeSettings = w'.scopeSettings
  document? : w.document? uri = w'.document? uri

namespace SameAt

variable {uri : String} {w w' w'' : Workspace} {c c' : Command}

theorem refl (uri : String) (w : Workspace) : SameAt uri w w :=
  ⟨rfl, rfl, rfl⟩

theorem symm (h : SameAt uri w w') : SameAt uri w' w :=
  ⟨h.outlineSettings.symm, h.scopeSettings.symm, h.document?.symm⟩

theorem trans (h : SameAt uri w w') (h' : SameAt uri w' w'') : SameAt uri w w'' :=
  ⟨h.outlineSettings.trans h'.outlineSettings, h.scopeSettings.trans h'.scopeSettings,
    h.document?.trans h'.document?⟩

theorem contains_eq (h : SameAt uri w w') : w.contains uri = w'.contains uri := by
  rw [contains_eq_isSome, contains_eq_isSome, h.document?]

theorem modules?_eq (h : SameAt uri w w') : w.modules? uri = w'.modules? uri := by
  rw [modules?, modules?, h.document?]

theorem scopeAt?_eq (h : SameAt uri w w') (p : Point) : w.scopeAt? uri p = w'.scopeAt? uri p := by
  rw [scopeAt?, scopeAt?, h.document?, h.scopeSettings]

/-- The same request keeps workspaces alike. -/
theorem perform (h : SameAt uri w w') (hc : c.Agrees c') :
    SameAt uri (w.perform c).workspace (w'.perform c').workspace where
  outlineSettings := by
    rw [outlineSettings_perform, outlineSettings_perform, h.outlineSettings, hc.settings?_eq]
  scopeSettings := by
    rw [scopeSettings_perform, scopeSettings_perform, h.scopeSettings, hc.settings?_eq]
  document? := by
    rw [document?_perform, document?_perform, h.outlineSettings, h.document?, hc.concerns_eq,
      hc.revise_eq]

end SameAt

/-- A command on another document changes nothing at a URI. -/
theorem sameAt_perform_of_not_concerns {uri : String} {c : Command}
    (hc : c.concerns uri = false) (w : Workspace) : SameAt uri (w.perform c).workspace w where
  outlineSettings := by
    rw [outlineSettings_perform, Command.settings?_of_not_concerns hc, Option.getD_none]
  scopeSettings := by
    rw [scopeSettings_perform, Command.settings?_of_not_concerns hc, Option.getD_none]
  document? := by rw [document?_perform, hc]; rfl

/-! ## Answers -/

/-- What a command answers and reports. -/
def answer (w : Workspace) (c : Command) : Reply × List Event :=
  ((w.perform c).result, (w.perform c).events)

/-- What the commands that name a URI answer and report in a session. -/
def answers (w : Workspace) (uri : String) (cs : List Command) : List (Reply × List Event) :=
  ((cs.zip (w.transcript cs)).filter fun x => x.1.uri? == some uri).map Prod.snd

theorem answers_cons (w : Workspace) (uri : String) (c : Command) (cs : List Command) :
    w.answers uri (c :: cs) =
      (if c.uri? = some uri then [w.answer c] else []) ++
        (w.perform c).workspace.answers uri cs := by
  by_cases h : c.uri? = some uri
  · simp [answers, transcript, h, answer]
  · simp [answers, transcript, h]

namespace SameAt

variable {uri : String} {w w' : Workspace} {c c' : Command}

/-- The same request is answered alike. -/
theorem answer_eq (h : SameAt uri w w') (hc : c.Agrees c') (huri : c.uri? = some uri) :
    w.answer c = w'.answer c' := by
  cases hc with
  | @openDocument u text parse parse' hparse =>
    simp only [answer, Workspace.perform, Outcome.map]
    cases hp : parse text with
    | ok t =>
      rw [openDocument_of_ok hp, openDocument_of_ok (hparse ▸ hp), h.outlineSettings]
    | error cause =>
      rw [openDocument_of_error hp, openDocument_of_error (hparse ▸ hp)]
  | @changeDocument u text parse parse' hparse =>
    obtain rfl : u = uri := Option.some.inj huri
    have hw' := h.contains_eq
    simp only [answer, Workspace.perform, Outcome.map]
    cases hw : w.contains u with
    | false =>
      rw [changeDocument_of_not_contains hw, changeDocument_of_not_contains (hw' ▸ hw)]
    | true =>
      cases hp : parse text with
      | ok t =>
        rw [changeDocument_of_ok hw hp, changeDocument_of_ok (hw' ▸ hw) (hparse ▸ hp),
          h.outlineSettings]
      | error cause =>
        rw [changeDocument_of_error hw hp, changeDocument_of_error (hw' ▸ hw) (hparse ▸ hp)]
  | @closeDocument u =>
    obtain rfl : u = uri := Option.some.inj huri
    simp only [answer, Workspace.perform, Outcome.map, closeDocument, h.contains_eq]
  | reconfigure => cases huri

end SameAt

/-! ## Sessions -/

/-- At a URI a session does what its part that concerns the URI does. -/
theorem sameAt_run_filter {uri : String} {w w' : Workspace} (h : SameAt uri w w')
    (cs : List Command) :
    SameAt uri (w.run cs) (w'.run (cs.filter (·.concerns uri))) ∧
      w.answers uri cs = w'.answers uri (cs.filter (·.concerns uri)) := by
  induction cs generalizing w w' with
  | nil => exact ⟨h, rfl⟩
  | cons c cs ih =>
    cases hc : c.concerns uri with
    | true =>
      obtain ⟨hrun, hanswers⟩ := ih (h.perform (.refl c))
      rw [List.filter_cons_of_pos hc, answers_cons, answers_cons, hanswers]
      refine ⟨hrun, ?_⟩
      split
      · next huri => rw [h.answer_eq (.refl c) huri]
      · rfl
    | false =>
      obtain ⟨hrun, hanswers⟩ := ih ((sameAt_perform_of_not_concerns hc w).trans h)
      have huri : c.uri? ≠ some uri := by
        intro huri
        rw [Command.concerns_of_uri? huri, beq_self_eq_true] at hc
        cases hc
      rw [List.filter_cons_of_neg (by simp [hc]), answers_cons, if_neg huri, List.nil_append]
      exact ⟨hrun, hanswers⟩

/-- The same requests keep workspaces alike and are answered alike. -/
theorem sameAt_run_of_agrees {uri : String} {w w' : Workspace} (h : SameAt uri w w')
    {cs cs' : List Command} (hcs : List.Forall₂ Command.Agrees cs cs') :
    SameAt uri (w.run cs) (w'.run cs') ∧ w.answers uri cs = w'.answers uri cs' := by
  induction hcs generalizing w w' with
  | nil => exact ⟨h, rfl⟩
  | @cons c c' cs cs' hc _ ih =>
    obtain ⟨hrun, hanswers⟩ := ih (h.perform hc)
    refine ⟨hrun, ?_⟩
    rw [answers_cons, answers_cons, hanswers, ← hc.uri?_eq]
    split
    · next huri => rw [h.answer_eq hc huri]
    · rfl

/-- Sessions whose parts that concern a URI are the same requests agree there. -/
theorem sameAt_run {uri : String} (w : Workspace) {cs cs' : List Command}
    (hcs : List.Forall₂ Command.Agrees (cs.filter (·.concerns uri))
      (cs'.filter (·.concerns uri))) :
    SameAt uri (w.run cs) (w.run cs') ∧ w.answers uri cs = w.answers uri cs' := by
  obtain ⟨hleft, hleft'⟩ := sameAt_run_filter (.refl uri w) cs
  obtain ⟨hright, hright'⟩ := sameAt_run_filter (.refl uri w) cs'
  obtain ⟨hmid, hmid'⟩ := sameAt_run_of_agrees (.refl uri w) hcs
  exact ⟨hleft.trans (hmid.trans hright.symm), hleft'.trans (hmid'.trans hright'.symm)⟩

/-- Of two neighbours that name different documents, at most one concerns a given one. -/
theorem filter_concerns_swap {c c' : Command} {u u' : String} (hc : c.uri? = some u)
    (hc' : c'.uri? = some u') (hne : u ≠ u') (before later : List Command) (uri : String) :
    (before ++ c :: c' :: later).filter (·.concerns uri) =
      (before ++ c' :: c :: later).filter (·.concerns uri) := by
  simp only [List.filter_append, List.filter_cons, Command.concerns_of_uri? hc,
    Command.concerns_of_uri? hc', beq_iff_eq]
  by_cases hu : u = uri
  · have hu' : u' ≠ uri := fun hu' => hne (hu.trans hu'.symm)
    simp only [if_neg hu']
  · simp only [if_neg hu]

/-- **Documents do not interfere.** If two sessions on a new workspace have the same requests that
name a URI or change the settings, in the same order, then every command on that URI is answered
alike and reports the same in both of them, and in the end document, modules and scopes under the
URI are the same, whatever else was asked for in between. So two neighbouring commands on
different documents can be exchanged. -/
theorem documents_independent (settings : Settings) :
    (∀ (uri : String) (cs cs' : List Command),
      List.Forall₂ Command.Agrees (cs.filter (·.concerns uri)) (cs'.filter (·.concerns uri)) →
        let w := (new settings).run cs
        let w' := (new settings).run cs'
        (new settings).answers uri cs = (new settings).answers uri cs' ∧
          w.document? uri = w'.document? uri ∧ w.modules? uri = w'.modules? uri ∧
          w.contains uri = w'.contains uri ∧ ∀ p, w.scopeAt? uri p = w'.scopeAt? uri p) ∧
      ∀ (before later : List Command) (c c' : Command) (u u' : String),
        c.uri? = some u → c'.uri? = some u' → u ≠ u' → ∀ uri,
          ((new settings).run (before ++ c :: c' :: later)).document? uri =
            ((new settings).run (before ++ c' :: c :: later)).document? uri := by
  constructor
  · intro uri cs cs' hcs
    obtain ⟨hrun, hanswers⟩ := sameAt_run (new settings) hcs
    exact ⟨hanswers, hrun.document?, hrun.modules?_eq, hrun.contains_eq, hrun.scopeAt?_eq⟩
  · intro before later c c' u u' hc hc' hne uri
    have hcs := filter_concerns_swap hc hc' hne before later uri
    refine (sameAt_run (new settings) ?_).1.document?
    rw [hcs]
    exact List.forall₂_same.2 fun c _ => .refl c

end Workspace

/-- The text that the sessions below have parsed. -/
def moduleText : String := "module A"

/-- Its tree. -/
def moduleTree : Tree :=
  ⟨.onLine "source_file" 0 8,
    .cons (.onLine "module_definition" 0 8)
      (.cons (.onLine "module" 0 6) .nil <|
      .cons (.onLine "module_identifier" 7 8) .nil .nil) .nil⟩

/-- A session on one document: it is opened, the settings change, a change cannot be parsed. -/
def quietSession : List Command :=
  [.openDocument "a" moduleText fun _ => .ok moduleTree,
    .reconfigure { nodeBudget := some 1 },
    .changeDocument "a" "mod" fun _ => .error .noTree,
    .changeDocument "a" moduleText fun _ => .ok moduleTree]

/-- The same with another document that comes and goes, and with another parser. -/
def busySession : List Command :=
  [.openDocument "b" "" fun _ => .error .empty,
    .openDocument "a" moduleText fun s => if s = moduleText then .ok moduleTree else .error .noTree,
    .changeDocument "b" moduleText fun _ => .ok moduleTree,
    .reconfigure { nodeBudget := some 1 },
    .changeDocument "a" "mod" fun _ => .error .noTree,
    .closeDocument "b",
    .changeDocument "a" moduleText fun _ => .ok moduleTree,
    .changeDocument "b" "" fun _ => .error .empty]

/-- The first document ends up the same in both sessions, and the three commands on it report the
same, a warning about the new limit included. -/
theorem documents_independent_busySession :
    let w := Workspace.new {}
    List.Forall₂ Command.Agrees (quietSession.filter (·.concerns "a"))
        (busySession.filter (·.concerns "a")) ∧
      w.answers "a" quietSession = w.answers "a" busySession ∧
      (w.answers "a" busySession).map (·.2.length) = [2, 2, 3] ∧
      (w.run quietSession).document? "a" = (w.run busySession).document? "a" ∧
      (w.run busySession).document? "a" =
        some ⟨moduleText, some moduleTree, [{ name := "A" }]⟩ ∧
      ∀ uri,
        (w.run (quietSession ++ [.closeDocument "a", .closeDocument "b"])).document? uri =
          (w.run (quietSession ++ [.closeDocument "b", .closeDocument "a"])).document? uri := by
  intro w
  have hcs : List.Forall₂ Command.Agrees (quietSession.filter (·.concerns "a"))
      (busySession.filter (·.concerns "a")) :=
    .cons (.openDocument rfl) (.cons .reconfigure (.cons (.changeDocument rfl)
      (.cons (.changeDocument rfl) .nil)))
  have hindependent := Workspace.documents_independent {}
  obtain ⟨hanswers, hdocument, -⟩ := hindependent.1 "a" _ _ hcs
  exact ⟨hcs, hanswers, by decide +kernel, hdocument, by decide +kernel,
    hindependent.2 quietSession [] _ _ "a" "b" rfl rfl (by decide)⟩

end MoveOutline
