import Mathlib.Data.List.Induction
import MoveOutline.Proofs.Workspace.Step
/-!
# The settings in force

The modules of a document are kept, and they depend on its text, its tree and the settings. New
settings reach every document at once, so the kept modules are at all times those that would be
found now. Therefore a session leaves the same workspace as if the last settings had been there
from the start.

That the last settings are enough rests on one diagram: a command that brings no settings does the
same before and after one that does (`Workspace.under_perform`).

Results:
* `Workspace.isCurrent_run`: the modules of an open document are those of its text and tree under
  the settings in force.
* `Workspace.run_settings`: settings, modules and scopes of a workspace after any session.
* `Workspace.foldl_withoutReconfigure`: what the diagram says about whole sessions.
* `Workspace.run_withoutReconfigure`: only the last settings matter.
-/
namespace MoveOutline

/-- The settings in force after a session: the last that were brought, or the first ones. -/
def History.settings (initial : Settings) (cs : List Command) : Settings :=
  (cs.filterMap (·.settings?)).getLastD initial

theorem History.settings_concat (initial : Settings) (cs : List Command) (c : Command) :
    settings initial (cs ++ [c]) = c.settings?.getD (settings initial cs) :=
  getLastD_filterMap_concat ..

/-- The command with another parser, if it brings one. -/
def Command.withParser (parse : Parser) : Command → Command
  | openDocument uri text _ => openDocument uri text parse
  | changeDocument uri text _ => changeDocument uri text parse
  | closeDocument uri => closeDocument uri
  | reconfigure settings => reconfigure settings

theorem Command.settings?_withParser (parse : Parser) (c : Command) :
    (c.withParser parse).settings? = c.settings? := by
  cases c <;> rfl

/-! ## Modules that are up to date -/

/-- The modules that a document should have under given settings. -/
def Document.modulesUnder (settings : Settings) (d : Document) : List ModuleDecl :=
  match d.tree with
  | none => []
  | some t => (outline settings t d.text).value

/-- The modules of a document are those of its own text and tree. -/
def Document.IsCurrent (settings : Settings) (d : Document) : Prop :=
  d.modules = d.modulesUnder settings

namespace Document

theorem isCurrent_parsed (settings : Settings) (text : String) (t : Tree) :
    (parsed settings text t).IsCurrent settings := rfl

theorem isCurrent_unparsed (settings : Settings) (text : String) :
    (unparsed text).IsCurrent settings := rfl

/-- Other settings bring the modules up to date. Without a tree there are none, before and
after. -/
theorem IsCurrent.reextract {old : Settings} {d : Document} (h : d.IsCurrent old)
    (new : Settings) : (d.reextract new).value.IsCurrent new := by
  obtain ⟨text, tree, modules⟩ := d
  cases tree with
  | none => exact h
  | some t => rfl

end Document

/-- A command leaves the modules of the document that it concerns up to date. -/
theorem Command.isCurrent_revise {settings : Settings} {old : Option Document}
    (hold : ∀ d ∈ old, d.IsCurrent settings) (c : Command) :
    ∀ d ∈ c.revise settings old, d.IsCurrent (c.settings?.getD settings) := by
  cases c with
  | openDocument u text parse =>
    intro d hd
    rw [revise] at hd
    cases h : parse text with
    | ok t =>
      rw [h] at hd
      obtain rfl := Option.some.inj hd
      exact Document.isCurrent_parsed settings text t
    | error cause =>
      rw [h] at hd
      obtain rfl := Option.some.inj hd
      exact Document.isCurrent_unparsed settings text
  | changeDocument u text parse =>
    intro d hd
    rw [revise] at hd
    cases h : parse text with
    | ok t =>
      rw [h] at hd
      obtain ⟨_, -, rfl⟩ := Option.map_eq_some_iff.1 hd
      exact Document.isCurrent_parsed settings text t
    | error cause =>
      rw [h] at hd
      exact hold d hd
  | closeDocument u => intro d hd; cases hd
  | reconfigure new =>
    intro d hd
    obtain ⟨d', hd', rfl⟩ := Option.map_eq_some_iff.1 hd
    exact (hold d' hd').reextract new

namespace Workspace

theorem outlineSettings_run (settings : Settings) (cs : List Command) :
    ((new settings).run cs).outlineSettings = History.settings settings cs := by
  induction cs using List.reverseRecOn with
  | nil => rfl
  | append_singleton cs c ih =>
    rw [run_concat, outlineSettings_perform, ih, History.settings_concat]

theorem scopeSettings_run (settings : Settings) (cs : List Command) :
    ((new settings).run cs).scopeSettings = History.settings settings cs := by
  induction cs using List.reverseRecOn with
  | nil => rfl
  | append_singleton cs c ih =>
    rw [run_concat, scopeSettings_perform, ih, History.settings_concat]

/-- The modules of every open document are up to date. -/
theorem isCurrent_run (settings : Settings) (cs : List Command) (uri : String) :
    ∀ d ∈ ((new settings).run cs).document? uri, d.IsCurrent (History.settings settings cs) := by
  induction cs using List.reverseRecOn with
  | nil => intro d hd; cases hd
  | append_singleton cs c ih =>
    rw [run_concat, document?_perform, outlineSettings_run, History.settings_concat]
    cases hc : c.concerns uri with
    | true => exact c.isCurrent_revise ih
    | false =>
      have hnone : c.settings? = none := Command.settings?_of_not_concerns hc
      rw [hnone]
      exact ih

/-- **Text, tree and what is derived from them never drift apart.** After any session, modules and
scopes are found with the settings that were brought last. The modules of an open document are
those of its own text and tree, and so is the scope of every point; without a tree there are no
modules and no scope to speak of. Of a document that is not open there is neither. -/
theorem run_settings (settings : Settings) (cs : List Command) :
    let w := (new settings).run cs
    let inForce := (cs.filterMap (·.settings?)).getLastD settings
    w.outlineSettings = inForce ∧ w.scopeSettings = inForce ∧
      ∀ uri, match w.document? uri with
        | none => w.modules? uri = none ∧ ∀ p, w.scopeAt? uri p = none
        | some ⟨_, none, _⟩ => w.modules? uri = some [] ∧ ∀ p, w.scopeAt? uri p = some ⟨{}, []⟩
        | some ⟨text, some t, _⟩ =>
          w.modules? uri = some (outline inForce t text).value ∧
            ∀ p, w.scopeAt? uri p = some (scopeAt inForce t text p) := by
  intro w inForce
  have hscope : w.scopeSettings = inForce := scopeSettings_run settings cs
  refine ⟨outlineSettings_run settings cs, hscope, fun uri => ?_⟩
  have hcurrent : ∀ d ∈ w.document? uri, d.IsCurrent inForce := isCurrent_run settings cs uri
  rw [modules?]
  simp only [scopeAt?, hscope]
  cases hd : w.document? uri with
  | none => exact ⟨rfl, fun _ => rfl⟩
  | some d =>
    have hmodules : d.modules = d.modulesUnder inForce := hcurrent d hd
    obtain ⟨text, tree, modules⟩ := d
    cases tree with
    | none => exact ⟨congrArg some hmodules, fun _ => rfl⟩
    | some t => exact ⟨congrArg some hmodules, fun _ => rfl⟩

/-! ## The last settings -/

/-- The workspace with other settings. -/
def under (settings : Settings) (w : Workspace) : Workspace :=
  (w.reconfigure settings).workspace

theorem under_new (initial settings : Settings) : (new initial).under settings = new settings := rfl

theorem under_store (settings : Settings) (w : Workspace) (uri : String) (d : Document) :
    (w.store uri d).under settings =
      (w.under settings).store uri (d.reextract settings).value := by
  simp only [under, reconfigure, store, Documents.map_insert]

theorem contains_under (settings : Settings) (w : Workspace) (uri : String) :
    (w.under settings).contains uri = w.contains uri :=
  Documents.contains_map ..

/-- A command that brings no settings does the same before and after one that does. -/
theorem under_perform {c : Command} (hc : c.settings? = none) (settings : Settings)
    (w : Workspace) :
    (w.perform c).workspace.under settings = ((w.under settings).perform c).workspace := by
  cases c with
  | openDocument u text parse =>
    show (w.openDocument parse u text).workspace.under settings =
      ((w.under settings).openDocument parse u text).workspace
    cases h : parse text with
    | ok t => rw [openDocument_of_ok h, openDocument_of_ok h, under_store]; rfl
    | error cause => rw [openDocument_of_error h, openDocument_of_error h, under_store]; rfl
  | changeDocument u text parse =>
    show (w.changeDocument parse u text).workspace.under settings =
      ((w.under settings).changeDocument parse u text).workspace
    have hw' := contains_under settings w u
    cases hw : w.contains u with
    | false =>
      rw [hw] at hw'
      rw [changeDocument_of_not_contains hw, changeDocument_of_not_contains hw']
    | true =>
      rw [hw] at hw'
      cases h : parse text with
      | ok t => rw [changeDocument_of_ok hw h, changeDocument_of_ok hw' h, under_store]; rfl
      | error cause => rw [changeDocument_of_error hw h, changeDocument_of_error hw' h]; rfl
  | closeDocument u =>
    show (w.closeDocument u).workspace.under settings =
      ((w.under settings).closeDocument u).workspace
    simp only [under, reconfigure, closeDocument, Documents.map_erase]
  | reconfigure new => cases hc

/-- The session of an editor whose parser is called again and again: the `n`-th call is answered
by the `n`-th of the given parsers, whichever command makes it. -/
def runWith (parsers : Nat → Parser) (w : Workspace) (cs : List Command) : Workspace :=
  cs.foldl (fun w c => (w.perform (c.withParser (parsers w.parses))).workspace) w

section
variable {step : Workspace → Command → Workspace}
  (hothers : ∀ (w : Workspace) (c : Command) (settings : Settings), c.settings? = none →
    (step w c).under settings = step (w.under settings) c)

include hothers in
theorem under_foldl (settings : Settings) (cs : List Command) (w : Workspace)
    (hcs : ∀ c ∈ cs, c.settings? = none) :
    (cs.foldl step w).under settings = cs.foldl step (w.under settings) := by
  induction cs generalizing w with
  | nil => rfl
  | cons c cs ih =>
    obtain ⟨hc, hcs⟩ := List.forall_mem_cons.1 hcs
    rw [List.foldl_cons, List.foldl_cons, ih (step w c) hcs, hothers w c settings hc]

include hothers in
/-- However a session performs its commands, the settings on the way to the last ones leave no
trace if each command can be exchanged with new settings. -/
theorem foldl_withoutReconfigure
    (hsettings : ∀ (w : Workspace) (settings : Settings),
      step w (.reconfigure settings) = w.under settings)
    (initial : Settings) (cs : List Command) :
    cs.foldl step (new initial) =
      (cs.filter (·.settings?.isNone)).foldl step (new (History.settings initial cs)) := by
  induction cs using List.reverseRecOn with
  | nil => rfl
  | append_singleton cs c ih =>
    rw [List.foldl_append, ih, History.settings_concat, List.filter_append, List.foldl_append]
    cases hc : c.settings? with
    | none =>
      rw [List.filter_cons_of_pos (by simp [hc])]
      rfl
    | some settings =>
      have hnone : ∀ c ∈ cs.filter (·.settings?.isNone), c.settings? = none := fun c hmem =>
        Option.isNone_iff_eq_none.1 (List.mem_filter.1 hmem).2
      rw [List.filter_cons_of_neg (by simp [hc]), List.filter_nil, List.foldl_nil,
        List.foldl_cons, List.foldl_nil, Command.eq_reconfigure_of_settings? hc, hsettings,
        under_foldl hothers settings _ _ hnone, under_new]
      rfl

end

/-- **Only the last settings matter.** A session leaves the same workspace, with the same
documents, settings, answers and number of calls of the parser, as the session without its
changes of settings on a workspace that had the last settings from the start. This is so if each
command brings its parser, and also if the parsers are told apart by the number of the call. -/
theorem run_withoutReconfigure (initial : Settings) (cs : List Command) :
    let last := (cs.filterMap (·.settings?)).getLastD initial
    let others := cs.filter (·.settings?.isNone)
    (new initial).run cs = (new last).run others ∧
      ∀ parsers : Nat → Parser,
        (new initial).runWith parsers cs = (new last).runWith parsers others := by
  intro last others
  constructor
  · exact foldl_withoutReconfigure (fun w c settings hc => under_perform hc settings w)
      (fun _ _ => rfl) initial cs
  · intro parsers
    refine foldl_withoutReconfigure (fun w c settings hc => ?_) (fun _ _ => rfl) initial cs
    have hc' : (c.withParser (parsers w.parses)).settings? = none := by
      rw [Command.settings?_withParser, hc]
    exact under_perform hc' settings w

end Workspace

end MoveOutline
