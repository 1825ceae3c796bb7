import MoveOutline.Proofs.Outline.Modules
import MoveOutline.Proofs.Scope.Path
import MoveOutline.Proofs.Syntax.Lookup
/-!
# Names of modules in outlines and in scopes

An outline and a scope read the name of a module from its definition in two ways. The outline
looks at the second child only, which is the identifier when nothing stands between it and the
keyword. The scope takes the first identifier behind the first child. So a name in an outline is
also the name that the definition gives to scopes, and what is missing in an outline is the name
of a definition with something else in second place.

Results:
* `Node.moduleName?_eq_nameIn`: a name that the outline reads is the name for scopes.
* `Tree.WellNested.getLast?_names`: from every point in an outermost module, the last name on the
  way up is that of the module.
* `outline_names_scope`: a module that an outline names has that name in the scopes of all points
  in it.
* `outline_resolves_iff`: which modules an outline names.
-/
namespace MoveOutline

/-! ## The two readings -/

theorem Node.getElem?_childLabels (m : Node) (i : Nat) :
    m.tree.childLabels[i]? = (m.child? i).map (·.label) := by
  rw [← m.map_label_children, List.getElem?_map]
  rfl

/-- The outline reads a name exactly where the second child is an identifier with that text. -/
theorem ModuleDecl.nameIn_eq_iff {source name : String} (hne : name ≠ "") (m : Node) :
    nameIn source m.tree = name ↔ ∃ c, m.child? 1 = some c ∧
      c.label.is .moduleIdentifier = true ∧ c.text source = name := by
  unfold nameIn
  rw [m.getElem?_childLabels]
  cases m.child? 1 with
  | none => simp [hne.symm]
  | some c =>
    rw [Option.map_some, Option.filter_some]
    by_cases hc : c.label.is .moduleIdentifier = true
    · simp [hc, Node.text]
    · simp [hc, hne.symm]

theorem ModuleDecl.nameIn_ne_empty_iff (source : String) (m : Node) :
    nameIn source m.tree ≠ "" ↔ ∃ c, m.child? 1 = some c ∧
      c.label.is .moduleIdentifier = true ∧ c.text source ≠ "" := by
  constructor
  · intro hne
    obtain ⟨c, hc, hident, htext⟩ := (nameIn_eq_iff hne m).1 rfl
    exact ⟨c, hc, hident, htext ▸ hne⟩
  · rintro ⟨c, hc, hident, hne⟩
    rw [(nameIn_eq_iff hne m).2 ⟨c, hc, hident, rfl⟩]
    exact hne

/-- With an identifier in second place, its text is the name for scopes. -/
theorem Node.moduleName?_of_second {m c : Node} (h : m.isModule = true) (hc : m.child? 1 = some c)
    (hident : c.label.is .moduleIdentifier = true) (source : String) :
    m.moduleName? source = some (c.text source) := by
  obtain ⟨hlt, hget⟩ := List.getElem?_eq_some_iff.1 hc
  rw [moduleName?, if_pos (label_of_isModule h), List.drop_eq_getElem_cons hlt, hget,
    List.find?_cons, hident]
  rfl

theorem Node.moduleName?_of_not_isModule {n : Node} (hroot : n.isRoot = false)
    (h : n.isModule = false) (source : String) : n.moduleName? source = none := by
  have hlabel : n.label.is .moduleDefinition = false := by
    unfold isModule at h
    rw [hroot] at h
    simpa using h
  rw [moduleName?, hlabel]
  rfl

/-- A name in the outline is the name for scopes. -/
theorem Node.moduleName?_eq_nameIn {m : Node} (h : m.isModule = true) {source : String}
    (hne : ModuleDecl.nameIn source m.tree ≠ "") :
    m.moduleName? source = some (ModuleDecl.nameIn source m.tree) := by
  obtain ⟨c, hc, hident, htext⟩ := (ModuleDecl.nameIn_eq_iff hne m).1 rfl
  rw [moduleName?_of_second h hc hident, htext]

/-! ## The way up from a point in a module -/

theorem Tree.mem_outermostModules {t : Tree} {m : Node} :
    m ∈ t.outermostModules ↔ m ∈ t.nodes ∧ m.isModule = true ∧ m.inModule = false := by
  simp [outermostModules]

/-- What lies above an outermost module and below the root names no module. -/
theorem Node.filterMap_moduleName?_wayUp {m q : Node} (hq : m.parent? = some q)
    (hout : m.inModule = false) (source : String) :
    q.wayUp.filterMap (·.moduleName? source) = [] := by
  rw [List.filterMap_eq_nil_iff]
  intro x hx
  have habove : x ∈ m.ancestors := by
    rw [ancestors_of_parent? hq]
    exact List.mem_cons.2 (mem_of_mem_wayUp hx)
  have hnot : x.isModule = false := by
    have := List.any_eq_false.1 hout x habove
    simpa using this
  exact moduleName?_of_not_isModule (isRoot_of_mem_wayUp hx) hnot source

/-- Of the names on the way up from a point in an outermost module, the last is that of the
module, if it has one. -/
theorem Tree.WellNested.getLast?_names {t : Tree} (ht : t.WellNested) {m : Node}
    (hm : m ∈ t.outermostModules) {p : Point} (hp : m.Covers p) {source name : String}
    (hname : m.moduleName? source = some name) :
    ((t.descendantAt p).wayUp.filterMap (·.moduleName? source)).getLast? = some name := by
  obtain ⟨hmem, hmod, hout⟩ := mem_outermostModules.1 hm
  obtain ⟨before, hway⟩ : ∃ before, (t.descendantAt p).wayUp = before ++ m.wayUp := by
    rcases (ht.innermostAt_descendantAt p).covers m hmem hp with he | ha
    · exact ⟨[], by rw [he]; rfl⟩
    · exact Node.exists_wayUp_eq_append ha
  obtain ⟨q, hq⟩ : ∃ q, m.parent? = some q := by
    rw [← Option.ne_none_iff_exists', ne_eq, Node.parent?_eq_none_iff]
    intro hroot
    simp [Node.isModule, hroot] at hmod
  rw [hway, Node.wayUp_of_parent? hq, List.filterMap_append, List.filterMap_cons, hname]
  simp only [Node.filterMap_moduleName?_wayUp hq hout, List.getLast?_append,
    List.getLast?_singleton, Option.some_or]

/-! ## Outlines and scopes -/

theorem scopeAt_moduleName {settings : Settings} (hb : settings.nodeBudget = none)
    (hp : settings.namePolicy = .outermost) (t : Tree) (source : String) (p : Point) :
    (scopeAt settings t source p).value.moduleName =
      ((t.descendantAt p).wayUp.filterMap (·.moduleName? source)).getLast? := by
  rw [scopeAt_value, hb]
  simp only [Budget.admitted, Scope.ofPath, hp]

/-- Each record of an outline beside the module that it is about. -/
theorem forall₂_outline {settings : Settings} (hb : settings.nodeBudget = none) {t : Tree}
    {source : String} (hs : source ≠ "") {R : Node → ModuleDecl → Prop}
    (h : ∀ m ∈ t.outermostModules, ∀ d : ModuleDecl, d.name = ModuleDecl.nameIn source m.tree →
      R m d) :
    List.Forall₂ R t.outermostModules (outline settings t source).value := by
  rw [outline_value_unlimited settings t source hs hb, List.forall₂_map_right_iff,
    List.forall₂_same]
  intro m hm
  exact h m hm _ rfl

/-- **Outlines and scopes name the same module.** In a well nested tree, let the outline without a
limit list an outermost module with a name. Then the scope of every point in that module has the
same name, when the outermost module names the scope and no limit cuts the way up. -/
theorem outline_names_scope {t : Tree} (ht : t.WellNested) {source : String} (hs : source ≠ "")
    {listing resolving : Settings} (hl : listing.nodeBudget = none)
    (hr : resolving.nodeBudget = none) (hp : resolving.namePolicy = .outermost) :
    List.Forall₂
      (fun m d => d.isResolved = true → ∀ p, m.Covers p →
        (scopeAt resolving t source p).value.moduleName = some d.name)
      t.outermostModules (outline listing t source).value := by
  refine forall₂_outline hl hs ?_
  intro m hm d hd hresolved p hcovers
  have hne : d.name ≠ "" := by simpa [ModuleDecl.isResolved] using hresolved
  have hmod := (Tree.mem_outermostModules.1 hm).2.1
  rw [hd] at hne ⊢
  rw [scopeAt_moduleName hr hp]
  exact ht.getLast?_names hm hcovers (Node.moduleName?_eq_nameIn hmod hne)

/-- The text of a file with a module in a module. -/
def nestedModulesText : String := "module A module B const X"

/-- The tree of that file. -/
def nestedModules : Tree :=
  ⟨.onLine "source_file" 0 25,
    .cons (.onLine "module_definition" 0 25)
      (.cons (.onLine "module" 0 6) .nil <|
      .cons (.onLine "module_identifier" 7 8) .nil <|
      .cons (.onLine "module_definition" 9 25)
        (.cons (.onLine "module" 9 15) .nil <|
        .cons (.onLine "module_identifier" 16 17) .nil <|
        .cons (.onLine "constant" 18 25) .nil .nil) .nil) .nil⟩

/-- In the constant of the inner module, the outer module names the scope, as it does the outline's
only record. -/
theorem outline_names_scope_nestedModules : nestedModules.WellNested ∧ nestedModulesText ≠ "" ∧
    ({} : Settings).nodeBudget = none ∧ ({} : Settings).namePolicy = .outermost ∧
    List.Forall₂
      (fun m d => d.isResolved = true → ∀ p, m.Covers p →
        (scopeAt {} nestedModules nestedModulesText p).value.moduleName = some d.name)
      nestedModules.outermostModules (outline {} nestedModules nestedModulesText).value ∧
    (outline {} nestedModules nestedModulesText).value.map (·.name) = ["A"] ∧
    (scopeAt {} nestedModules nestedModulesText ⟨0, 20⟩).value.moduleName = some "A" :=
  ⟨by decide +kernel, by decide, rfl, rfl,
    outline_names_scope (by decide +kernel) (by decide) rfl rfl rfl, by decide +kernel,
    by decide +kernel⟩

/-- **What an outline leaves without a name.** A record is resolved exactly if the second child of
the module is an identifier with a text, and its name is then the one that the module gives to
scopes. Of the modules that give scopes a name that is not empty, the outline misses exactly those
with something else in second place. -/
theorem outline_resolves_iff {t : Tree} {source : String} (hs : source ≠ "") {settings : Settings}
    (hb : settings.nodeBudget = none) :
    List.Forall₂
      (fun m d =>
        (d.isResolved = true ↔ ∃ c, m.child? 1 = some c ∧ c.label.is .moduleIdentifier = true ∧
          c.text source ≠ "") ∧
        (d.isResolved = true → m.moduleName? source = some d.name) ∧
        ∀ name, m.moduleName? source = some name → name ≠ "" →
          (d.name = "" ↔ ∀ c, m.child? 1 = some c → c.label.is .moduleIdentifier = false))
      t.outermostModules (outline settings t source).value := by
  refine forall₂_outline hb hs ?_
  intro m hm d hd
  have hmod := (Tree.mem_outermostModules.1 hm).2.1
  have hresolved : d.isResolved = true ↔ d.name ≠ "" := by simp [ModuleDecl.isResolved]
  have hiff : d.isResolved = true ↔ ∃ c, m.child? 1 = some c ∧
      c.label.is .moduleIdentifier = true ∧ c.text source ≠ "" := by
    rw [hresolved, hd, ModuleDecl.nameIn_ne_empty_iff]
  refine ⟨hiff, ?_, ?_⟩
  · intro h
    rw [hresolved, hd] at h
    rw [hd]
    exact Node.moduleName?_eq_nameIn hmod h
  · intro name hname hne
    constructor
    · intro hempty c hc
      by_contra hident
      rw [Bool.not_eq_false] at hident
      have htext := Node.moduleName?_of_second hmod hc hident source
      rw [hname, Option.some.injEq] at htext
      have hsome : d.isResolved = true := hiff.2 ⟨c, hc, hident, htext ▸ hne⟩
      exact hresolved.1 hsome hempty
    · intro hother
      by_contra hsome
      obtain ⟨c, hc, hident, -⟩ := hiff.1 (hresolved.2 hsome)
      rw [hother c hc] at hident
      cases hident

/-- The text of a file in which a comment stands before the name of the second module. -/
def commentedModuleText : String := "module A module /**/ B"

/-- The tree of that file. -/
def commentedModule : Tree :=
  ⟨.onLine "source_file" 0 22,
    .cons (.onLine "module_definition" 0 8)
      (.cons (.onLine "module" 0 6) .nil <|
      .cons (.onLine "module_identifier" 7 8) .nil .nil) <|
    .cons (.onLine "module_definition" 9 22)
      (.cons (.onLine "module" 9 15) .nil <|
      .cons (.onLine "comment" 16 20) .nil <|
      .cons (.onLine "module_identifier" 21 22) .nil .nil) .nil⟩

/-- The record of the second module has no name, and the record of the first one has. -/
theorem outline_resolves_iff_commentedModule : commentedModuleText ≠ "" ∧
    ({} : Settings).nodeBudget = none ∧
    List.Forall₂
      (fun m d =>
        (d.isResolved = true ↔ ∃ c, m.child? 1 = some c ∧ c.label.is .moduleIdentifier = true ∧
          c.text commentedModuleText ≠ "") ∧
        (d.isResolved = true → m.moduleName? commentedModuleText = some d.name) ∧
        ∀ name, m.moduleName? commentedModuleText = some name → name ≠ "" →
          (d.name = "" ↔ ∀ c, m.child? 1 = some c → c.label.is .moduleIdentifier = false))
      commentedModule.outermostModules (outline {} commentedModule commentedModuleText).value ∧
    (outline {} commentedModule commentedModuleText).value.map (·.isResolved) = [true, false] :=
  ⟨by decide, rfl, outline_resolves_iff (by decide) rfl, by decide +kernel⟩

/-- A comment between keyword and identifier hides the name from the outline: the second record
has no name although an identifier with a text stands among the later children, whose text the
module gives to scopes. -/
theorem outline_misses_name_behind_comment :
    (¬ List.Forall₂
      (fun m d => d.name = "" → ∀ c ∈ m.children.drop 1,
        c.label.is .moduleIdentifier = true → c.text commentedModuleText = "")
      commentedModule.outermostModules
      (outline {} commentedModule commentedModuleText).value) ∧
    commentedModule.outermostModules.map (·.moduleName? commentedModuleText) =
      [some "A", some "B"] ∧
    (outline {} commentedModule commentedModuleText).value.map (·.name) = ["A", ""] :=
  ⟨by decide +kernel, by decide +kernel, by decide +kernel⟩

end MoveOutline
