import MoveOutline.Proofs.Outline.Functions
/-!
# What a setting changes

Each setting has a part of the output of its own. The policy for native functions decides about one
flag in the records of functions, the policy for names about the name of a scope, and function
contexts are entries of their own in the list of contexts. The settings do not get in each other's
way, and only the limit on nodes decides which nodes are looked at: with the same limit a walk
visits the same nodes, whatever else is set, and stops at the same one if it does.

Results:
* `outline_mapFunctions`: outlines whose functions are read differently differ in the functions.
* `Node.contexts_off`: what a node contributes without function contexts.
* `Scope.isSome_moduleName_ofPath`: a scope has a name if any module on the way gives one.
* `settings_separate`: two settings with one limit.
-/
namespace MoveOutline

variable {s s' : Settings}

/-! ## Outlines -/

/-- The record of a module with a change made to all its functions. -/
def ModuleDecl.mapFunctions (change : FunctionDecl → FunctionDecl) (d : ModuleDecl) : ModuleDecl :=
  { d with functions := d.functions.map change }

/-- The record of a function, marked as native. -/
def FunctionDecl.asNative (f : FunctionDecl) : FunctionDecl :=
  { f with isNative := true }

@[simp] theorem ModuleDecl.mapFunctions_id : mapFunctions id = id := by
  funext d
  simp [mapFunctions]

theorem FunctionDecl.read_congr (h : s.nativePolicy = s'.nativePolicy) (source : String)
    (form : FunctionForm) (d : Tree) : read s source form d = read s' source form d := by
  rw [read, read, h]

/-- Where all functions are reported as native, their records are otherwise the same. -/
theorem FunctionDecl.read_asNative (h : s'.nativePolicy = .alwaysNative) (source : String)
    (form : FunctionForm) (n : Node) :
    read s' source form n.tree = (read s source form n.tree).asNative := by
  rw [read_eq, read_eq, h]
  rfl

section
variable (source : String) {change : FunctionDecl → FunctionDecl}
  (hread : ∀ (form : FunctionForm) (n : Node),
    FunctionDecl.read s' source form n.tree = change (FunctionDecl.read s source form n.tree))
include hread

theorem ModuleDecl.ofMembers_mapFunctions (address : Option String) (m : Node) (ns : List Node) :
    ofMembers s' source address m ns = (ofMembers s source address m ns).mapFunctions change := by
  have hfunction : (fun n : Node => n.function? s' source) =
      fun n => (n.function? s source).map change := by
    funext n
    rw [Node.function?, Node.function?, Option.map_map]
    congr 1
    funext form
    exact hread form n
  rw [ofMembers, hfunction, mapFunctions, ofMembers]
  simp only [List.map_filterMap]

/-- With one limit, outlines for which functions are read differently differ in the functions. -/
theorem outline_mapFunctions (hb : s.nodeBudget = s'.nodeBudget) (t : Tree) :
    outline s' t source =
      { outline s t source with
        value := (outline s t source).value.map (.mapFunctions change) } := by
  by_cases hs : source = ""
  · subst hs
    rfl
  have hvalue : (outline s' t source).value =
      (outline s t source).value.map (.mapFunctions change) := by
    rw [outline_value s' t source hs, outline_value s t source hs, ← hb, List.map_map]
    apply List.map_congr_left
    intro m _
    exact ModuleDecl.ofMembers_mapFunctions source hread _ m _
  have hevents : (outline s' t source).events = (outline s t source).events := by
    cases hlimit : s.nodeBudget with
    | none =>
      rw [outline_events_unlimited s t source hlimit,
        outline_events_unlimited s' t source (hb ▸ hlimit)]
    | some b =>
      rw [outline_events s t source hs b hlimit, outline_events s' t source hs b (hb ▸ hlimit),
        hvalue, List.length_map]
  show outline s' t source =
    ⟨(outline s t source).value.map (.mapFunctions change), (outline s t source).events⟩
  rw [← hvalue, ← hevents]

end

/-! ## Scopes -/

/-- What a node contributes depends on one setting. -/
theorem Node.contexts_congr (h : s.functionContexts = s'.functionContexts) (n : Node) :
    n.contexts s = n.contexts s' := by
  simp only [contexts, Context.Rule.inForce, h]

/-- Without function contexts, a node contributes what else it does. -/
theorem Node.contexts_off (h : s.functionContexts = false) (h' : s'.functionContexts = true)
    (n : Node) :
    n.contexts s = (n.contexts s').filter fun c => decide (c ≠ .functionDefinition) := by
  rw [contexts, contexts, List.filter_map, List.filter_filter]
  congr 1
  apply List.filter_congr
  intro r _
  have hkept : (r.context != .functionDefinition) = decide (r.context ≠ .functionDefinition) := by
    rw [Bool.eq_iff_iff]
    simp
  simp only [Context.Rule.inForce, h, h', Bool.false_or, Bool.true_or, Bool.true_and,
    Bool.and_assoc, hkept]
  rfl

namespace Scope

variable (source : String) (visited : List Node)

theorem contexts_ofPath_congr (h : s.functionContexts = s'.functionContexts) :
    (ofPath s source visited).contexts = (ofPath s' source visited).contexts := by
  simp only [ofPath, Node.contexts_congr h]

theorem contexts_ofPath_off (h : s.functionContexts = false) (h' : s'.functionContexts = true) :
    (ofPath s source visited).contexts =
      (ofPath s' source visited).contexts.filter fun c => decide (c ≠ .functionDefinition) := by
  simp only [ofPath, List.filter_flatMap, Node.contexts_off h h']

theorem moduleName_ofPath_congr (h : s.namePolicy = s'.namePolicy) :
    (ofPath s source visited).moduleName = (ofPath s' source visited).moduleName := by
  simp only [ofPath, h]

/-- Under either policy a scope has a name if any of the visited nodes gives one. -/
theorem isSome_moduleName_ofPath : (ofPath s source visited).moduleName.isSome =
    !(visited.filterMap (·.moduleName? source)).isEmpty := by
  unfold ofPath
  cases s.namePolicy <;> cases visited.filterMap (·.moduleName? source) <;> simp

end Scope

/-- **Each setting affects only its own part of the output.** Take two settings with the same limit
on nodes. Outlines depend on the policy for native functions alone, and where all functions are
native the outline is that of any other policy with this flag set in all functions. Scopes do not
depend on that policy. Their contexts depend on whether function definitions are contexts, and
these are then all that is left out; their names depend on the policy for names, and under any
policy there is a name or there is none. A warning that the way to the root was cut short comes
under both settings or under neither. -/
theorem settings_separate (s s' : Settings) (hb : s.nodeBudget = s'.nodeBudget) (t : Tree)
    (source : String) (p : Point) :
    let scope := (scopeAt s t source p).value
    let scope' := (scopeAt s' t source p).value
    (s.nativePolicy = s'.nativePolicy → outline s t source = outline s' t source) ∧
      (s'.nativePolicy = .alwaysNative →
        outline s' t source =
          { outline s t source with
            value := (outline s t source).value.map (.mapFunctions .asNative) }) ∧
      (s.namePolicy = s'.namePolicy → s.functionContexts = s'.functionContexts →
        scopeAt s t source p = scopeAt s' t source p) ∧
      (s.functionContexts = s'.functionContexts → scope.contexts = scope'.contexts) ∧
      (s.functionContexts = false → s'.functionContexts = true →
        scope.contexts = scope'.contexts.filter fun c => c ≠ .functionDefinition) ∧
      (s.namePolicy = s'.namePolicy → scope.moduleName = scope'.moduleName) ∧
      scope.moduleName.isSome = scope'.moduleName.isSome ∧
      (.scopeStopped p ∈ (scopeAt s t source p).events ↔
        .scopeStopped p ∈ (scopeAt s' t source p).events) := by
  let visited := Budget.admitted s.nodeBudget (t.descendantAt p).wayUp
  have hscope : (scopeAt s t source p).value = Scope.ofPath s source visited :=
    scopeAt_value s t source p
  have hscope' : (scopeAt s' t source p).value = Scope.ofPath s' source visited := by
    rw [scopeAt_value, ← hb]
  intro scope scope'
  simp only [scope, scope', hscope, hscope']
  refine ⟨?_, ?_, ?_, Scope.contexts_ofPath_congr source visited,
    Scope.contexts_ofPath_off source visited, Scope.moduleName_ofPath_congr source visited, ?_, ?_⟩
  · intro hnative
    have hread (form : FunctionForm) (n : Node) : FunctionDecl.read s' source form n.tree =
        id (FunctionDecl.read s source form n.tree) :=
      (FunctionDecl.read_congr hnative source form n.tree).symm
    rw [outline_mapFunctions source hread hb t, ModuleDecl.mapFunctions_id, List.map_id]
  · intro hnative
    exact outline_mapFunctions source (FunctionDecl.read_asNative hnative source) hb t
  · intro hname hcontexts
    have hpath : Scope.ofPath s source visited = Scope.ofPath s' source visited :=
      congrArg₂ Scope.mk (Scope.moduleName_ofPath_congr source visited hname)
        (Scope.contexts_ofPath_congr source visited hcontexts)
    simp only [scopeAt, Scope.climb_descendantAt]
    rw [← hb, show Scope.ofPath s source _ = _ from hpath]
  · rw [Scope.isSome_moduleName_ofPath, Scope.isSome_moduleName_ofPath]
  · rw [scopeStopped_mem_events, scopeStopped_mem_events, hb]

/-- The text of a file with a function in a nested module. -/
def nestedFunctionText : String := "module A module B fun f \x7bx\x7d"

/-- The tree of that file. -/
def nestedFunction : Tree :=
  ⟨.onLine "source_file" 0 27,
    .cons (.onLine "module_definition" 0 27)
      (.cons (.onLine "module" 0 6) .nil <|
      .cons (.onLine "module_identifier" 7 8) .nil <|
      .cons (.onLine "module_definition" 9 27)
        (.cons (.onLine "module" 9 15) .nil <|
        .cons (.onLine "module_identifier" 16 17) .nil <|
        .cons (.onLine "usual_function_definition" 18 27)
          (.cons (.onLine "fun" 18 21) .nil <|
          .cons (.onLine "function_identifier" 22 23) .nil <|
          .cons (.onLine "block" 24 27) .nil .nil) .nil) .nil) .nil⟩

/-- Settings that differ in all but a limit, under which the outline is cut short. In the body of
the function the outer module gives the name under one of them, and the inner one under the
other. -/
theorem settings_separate_nestedFunction :
    let s : Settings := { nodeBudget := some 9 }
    let s' : Settings := ⟨.nearest, .alwaysNative, some 9, true⟩
    let scope := (scopeAt s nestedFunction nestedFunctionText ⟨0, 25⟩).value
    let scope' := (scopeAt s' nestedFunction nestedFunctionText ⟨0, 25⟩).value
    let listed := outline s nestedFunction nestedFunctionText
    s.nodeBudget = s'.nodeBudget ∧
    outline s' nestedFunction nestedFunctionText =
      { listed with value := listed.value.map (.mapFunctions .asNative) } ∧
    outline { s' with nativePolicy := .byDeclarationKind } nestedFunction nestedFunctionText =
      listed ∧
    scope.contexts = scope'.contexts.filter (fun c => c ≠ .functionDefinition) ∧
    scope.moduleName.isSome = scope'.moduleName.isSome ∧
    listed.value.map (·.functions.map (·.isNative)) = [[false]] ∧
    listed.events = [.extractionStopped 9 1] ∧
    scope = ⟨some "A", [.functionBody]⟩ ∧
    scope' = ⟨some "B", [.functionBody, .functionDefinition]⟩ := by
  intro s s' scope scope' listed
  obtain ⟨-, hnative, -, -, hcontexts, -, hname, -⟩ := settings_separate s s' rfl
    nestedFunction nestedFunctionText ⟨0, 25⟩
  obtain ⟨hsame, -⟩ := settings_separate { s' with nativePolicy := .byDeclarationKind } s rfl
    nestedFunction nestedFunctionText ⟨0, 25⟩
  exact ⟨rfl, hnative rfl, hsame rfl, hcontexts rfl rfl, hname, by decide +kernel,
    by decide +kernel, by decide +kernel, by decide +kernel⟩

end MoveOutline
