import MoveOutline.Proofs.Scope.Path
import MoveOutline.Proofs.Syntax.Lookup
/-!
# Contexts that come with their definition

The body and the arguments of a function are contexts only right below the definition of the
function, and type parameters only right below that of a struct. The definition is the next node on
the way up, and it makes the context that **frames** theirs. So each of them is followed by its frame
in the contexts of a point.

There are two ways to miss a frame. The definition can be the root, which makes no context. And the
budget can end in front of the definition; then the context is the last one, and there is a warning.

Results:
* `Context.frame?_rules`: the rule for a context with a frame asks for the definition that makes it.
* `Node.mem_contexts_of_frame?`: a context with a frame stands below its definition.
* `Node.head?_contexts_of_frame?`: so the frame comes next on the way up.
* `Node.framed_contexts`: what any part of a way up contributes.
* `scopeAt_framed`: the contexts of a point.
-/
namespace MoveOutline

namespace Context

/-- The context that is made by the definition around a context. -/
def frame? : Context → Option Context
  | functionBody => some functionDefinition
  | functionArguments => some functionDefinition
  | structGeneric => some structDefinition
  | _ => none

/-- Every context in a list is followed by its frame, if it has one. Only the last one can lack it,
and only if the list was cut short. -/
def Framed (cut : Prop) (cs : List Context) : Prop :=
  ∀ before c after, cs = before ++ c :: after → ∀ frame, c.frame? = some frame →
    after.head? = some frame ∨ after = [] ∧ cut

variable {cut : Prop}

theorem framed_nil : Framed cut [] := by
  intro before c after h
  cases before <;> cases h

theorem framed_cons {c : Context} {cs : List Context}
    (hc : ∀ frame, c.frame? = some frame → cs.head? = some frame ∨ cs = [] ∧ cut)
    (hcs : Framed cut cs) : Framed cut (c :: cs) := by
  intro before d after hsplit
  cases before with
  | nil =>
    obtain ⟨rfl, rfl⟩ := List.cons.inj hsplit
    exact hc
  | cons b before =>
    obtain ⟨-, hsplit⟩ := List.cons.inj hsplit
    exact hcs before d after hsplit

theorem Framed.mono {cut' : Prop} {cs : List Context} (h : Framed cut cs) (hcut : cut → cut') :
    Framed cut' cs := by
  intro before c after hsplit frame hframe
  exact (h before c after hsplit frame hframe).imp_right fun hlast => ⟨hlast.1, hcut hlast.2⟩

/-- The rule for a context with a frame asks for a parent with a rule of its own, which makes the
frame wherever the parent stands. -/
theorem frame?_rules : ∀ r ∈ rules, ∀ frame ∈ r.context.frame?, ∃ d ∈ rules,
    r.parent = some d.symbol ∧ d.parent = none ∧ d.context = frame ∧
      (d.symbol = .structDefinition ∨ d.symbol = .usualFunctionDefinition) := by
  decide

end Context

namespace Node

variable {settings : Settings}

theorem mem_contexts_iff {n : Node} {c : Context} : c ∈ n.contexts settings ↔
    ∃ r ∈ Context.rules, r.inForce settings = true ∧ n.label.is r.symbol = true ∧
      r.parent.all n.isUnder = true ∧ r.context = c := by
  simp only [contexts, List.mem_map, List.mem_filter, Bool.and_eq_true, and_assoc]

/-- A node makes one context at most. -/
theorem contexts_eq_singleton {n q : Node} (h : n.parent? = some q) {c : Context}
    (hc : c ∈ n.contexts settings) : n.contexts settings = [c] := by
  rw [contexts_eq h, Option.mem_toList] at hc
  rw [contexts_eq h, hc]
  rfl

/-- A context with a frame stands right below the definition that makes the frame. -/
theorem mem_contexts_of_frame? (hs : settings.functionContexts = true) {n q : Node}
    (h : n.parent? = some q) {c frame : Context} (hc : c ∈ n.contexts settings)
    (hframe : c.frame? = some frame) :
    frame ∈ q.contexts settings ∧
      (q.label.is .structDefinition = true ∨ q.label.is .usualFunctionDefinition = true) := by
  obtain ⟨r, hr, -, -, hunder, rfl⟩ := mem_contexts_iff.1 hc
  obtain ⟨d, hd, hparent, hnone, hcontext, hsymbol⟩ := Context.frame?_rules r hr frame hframe
  have hq : q.label.is d.symbol = true := by
    rw [hparent, Option.all_some, isUnder, h, Option.any_some] at hunder
    exact hunder
  refine ⟨mem_contexts_iff.2 ⟨d, hd, ?_, hq, ?_, hcontext⟩, ?_⟩
  · rw [Context.Rule.inForce, hs, Bool.true_or]
  · rw [hnone, Option.all_none]
  · rcases hsymbol with he | he
    · exact .inl (he ▸ hq)
    · exact .inr (he ▸ hq)

section
variable (hs : settings.functionContexts = true) {t : Tree}
  (hstruct : t.label.is .structDefinition = false)
  (hfunction : t.label.is .usualFunctionDefinition = false)
include hs hstruct hfunction

/-- What a part of the way contributes behind a context with a frame: the frame first, unless there
is nothing to the part. -/
theorem head?_contexts_of_frame? {q n : Node} (hq : q ∈ t.nodes) (hparent : n.parent? = some q)
    {c frame : Context} (hc : c ∈ n.contexts settings) (hframe : c.frame? = some frame)
    {later : List Node} (hlater : later <+: q.wayUp) :
    (later.flatMap (·.contexts settings)).head? = some frame ∨
      later.flatMap (·.contexts settings) = [] ∧ later ≠ q.wayUp := by
  obtain ⟨hmem, hdefinition⟩ := mem_contexts_of_frame? hs hparent hc hframe
  -- The definition is not the root, so it is the next node of the way.
  rcases Tree.eq_root_or_child hq with rfl | ⟨outer, -, hqo⟩
  · rcases hdefinition with h | h
    · cases hstruct.symm.trans h
    · cases hfunction.symm.trans h
  · have hqparent := parent?_of_mem_children hqo
    rw [wayUp_of_parent? hqparent] at hlater ⊢
    cases later with
    | nil => exact .inr ⟨rfl, (List.cons_ne_nil _ _).symm⟩
    | cons x further =>
      obtain ⟨rfl, -⟩ := List.cons_prefix_cons.1 hlater
      rw [List.flatMap_cons, contexts_eq_singleton hqparent hmem]
      exact .inl rfl

/-- The contexts that any part of a way up contributes are framed, and a frame is missing only if
the part is not all of the way. -/
theorem framed_contexts {n : Node} (hn : n ∈ t.nodes) :
    ∀ visited, visited <+: n.wayUp →
      Context.Framed (visited ≠ n.wayUp) (visited.flatMap (·.contexts settings)) := by
  induction n, hn using Tree.nodes_induction with
  | root =>
    intro visited hvisited
    rw [wayUp_of_isRoot rfl, List.prefix_nil] at hvisited
    rw [hvisited]
    exact Context.framed_nil
  | child q hq ih n hnq =>
    have hparent := parent?_of_mem_children hnq
    rw [wayUp_of_parent? hparent]
    intro visited hvisited
    cases visited with
    | nil => exact Context.framed_nil
    | cons m later =>
      obtain ⟨rfl, hlater⟩ := List.cons_prefix_cons.1 hvisited
      have hlonger : later ≠ q.wayUp → m :: later ≠ m :: q.wayUp :=
        fun hne he => hne (List.cons.inj he).2
      have hrest := (ih later hlater).mono hlonger
      rw [List.flatMap_cons]
      cases hcs : m.contexts settings with
      | nil => exact hrest
      | cons c cs =>
        have hc : c ∈ m.contexts settings := hcs ▸ List.mem_cons_self
        obtain ⟨-, rfl⟩ := List.cons.inj (hcs.symm.trans (contexts_eq_singleton hparent hc))
        refine Context.framed_cons (fun frame hframe => ?_) hrest
        have hnext := head?_contexts_of_frame? hs hstruct hfunction hq hparent hc hframe hlater
        exact hnext.imp_right fun hlast => ⟨hlast.1, hlonger hlast.2⟩

end

end Node

/-- **Contexts are followed by their frames.** Let function definitions be contexts, and let the root
be the definition neither of a struct nor of a function. Then in the contexts of a point the body and
the arguments of a function are followed by its definition, and type parameters by the definition of
their struct. A budget can leave out the frame of the last context, and then there is a
warning. -/
theorem scopeAt_framed (settings : Settings) (hs : settings.functionContexts = true) (t : Tree)
    (hstruct : t.label.kind ≠ "struct_definition")
    (hfunction : t.label.kind ≠ "usual_function_definition") (source : String) (p : Point) :
    let scope := scopeAt settings t source p
    (settings.nodeBudget = none →
      ∀ before c after, scope.value.contexts = before ++ c :: after →
        ∀ frame, c.frame? = some frame → after.head? = some frame) ∧
    ∀ before c after, scope.value.contexts = before ++ c :: after →
      ∀ frame, c.frame? = some frame →
        after.head? = some frame ∨ after = [] ∧ .scopeStopped p ∈ scope.events := by
  have hnot {s : Symbol} (h : t.label.kind ≠ s.kind) : t.label.is s = false := by
    rw [Label.is, beq_eq_false_iff_ne]
    exact h
  let way := (t.descendantAt p).wayUp
  let visited := Budget.admitted settings.nodeBudget way
  have hframed : Context.Framed (visited ≠ way) (visited.flatMap (·.contexts settings)) :=
    Node.framed_contexts hs (hnot (s := .structDefinition) hstruct)
      (hnot (s := .usualFunctionDefinition) hfunction) (t.descendantAt_mem_nodes p) visited
      (Budget.admitted_isPrefix _ _)
  intro scope
  have hcontexts : scope.value.contexts = visited.flatMap (·.contexts settings) :=
    congrArg Scope.contexts (scopeAt_value settings t source p)
  rw [hcontexts]
  constructor
  · intro hbudget before c after hsplit frame hframe
    have hall : visited = way := by
      simp only [visited, hbudget]
      rfl
    exact (hframed before c after hsplit frame hframe).resolve_right fun h => h.2 hall
  · exact hframed.mono fun hne =>
      (scopeStopped_mem_events settings t source p).2 (Budget.lt_length_of_admitted_ne hne)

/-- A struct with type parameters, and a function in the body of another one. -/
def nestedDefinitions : Tree :=
  ⟨.onLine "source_file" 0 40,
    .cons (.onLine "module_body" 0 40)
      (.cons (.onLine "struct_definition" 1 11)
        (.cons (.onLine "type_parameters" 8 11) .nil .nil) <|
      .cons (.onLine "usual_function_definition" 12 39)
        (.cons (.onLine "func_params" 17 20) .nil <|
        .cons (.onLine "block" 20 39)
          (.cons (.onLine "usual_function_definition" 22 37)
            (.cons (.onLine "block" 30 37) .nil .nil) .nil) .nil) .nil) .nil⟩

/-- In the inner body, a budget of three nodes ends in front of the outer definition. -/
theorem scopeAt_framed_nestedDefinitions :
    let settings : Settings := { functionContexts := true }
    let limited : Settings := { functionContexts := true, nodeBudget := some 3 }
    let scope := scopeAt settings nestedDefinitions "" ⟨0, 33⟩
    let cut := scopeAt limited nestedDefinitions "" ⟨0, 33⟩
    nestedDefinitions.label.kind ≠ "struct_definition" ∧
    nestedDefinitions.label.kind ≠ "usual_function_definition" ∧
    (∀ before c after, scope.value.contexts = before ++ c :: after →
      ∀ frame, c.frame? = some frame → after.head? = some frame) ∧
    (∀ before c after, cut.value.contexts = before ++ c :: after →
      ∀ frame, c.frame? = some frame →
        after.head? = some frame ∨ after = [] ∧ .scopeStopped ⟨0, 33⟩ ∈ cut.events) ∧
    scope.value.contexts =
      [.functionBody, .functionDefinition, .functionBody, .functionDefinition, .moduleBody] ∧
    cut.value.contexts = [.functionBody, .functionDefinition, .functionBody] ∧
    (scopeAt settings nestedDefinitions "" ⟨0, 9⟩).value.contexts =
      [.structGeneric, .structDefinition, .moduleBody] := by
  intro settings limited scope cut
  obtain ⟨hscope, -⟩ := scopeAt_framed settings rfl nestedDefinitions (by decide) (by decide) ""
    ⟨0, 33⟩
  obtain ⟨-, hcut⟩ := scopeAt_framed limited rfl nestedDefinitions (by decide) (by decide) ""
    ⟨0, 33⟩
  exact ⟨by decide, by decide, hscope rfl, hcut, by decide +kernel, by decide +kernel,
    by decide +kernel⟩

/-- A function that is the root does not frame its body. -/
example : (scopeAt { functionContexts := true }
    ⟨.onLine "usual_function_definition" 0 9, .cons (.onLine "block" 4 9) .nil .nil⟩ ""
    ⟨0, 5⟩).value.contexts = [.functionBody] := by
  decide +kernel

end MoveOutline
