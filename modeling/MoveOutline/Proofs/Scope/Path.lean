import MoveOutline.Proofs.Budget
import MoveOutline.Proofs.Syntax.Ancestry
import MoveOutline.Scope.Resolve
/-!
# The scope of a point, read off the path to the root

The way up from a node is the node, its parent, and so on, without the root. A scope walk sees
the part of the way up that its budget admits. What it answers is said here without the walk:
every node on that part contributes the contexts that a table has for its symbol and that of its
parent, and the module name is that of the first or of the last module definition on it that has
an identifier.

Results:
* `Scope.climb_eq_foldl`: climbing is one fold over the admitted part of the way up.
* `contexts_foldl`, `moduleName_foldl`: what that fold collects.
* `scopeAt_value`, `scopeStopped_mem_events`: the scope and its warning.
* `scopeAt_eq_path`: the whole answer and its events.
-/
namespace MoveOutline

namespace Node

/-- The node, its parent and so on, up to but without the root. -/
def wayUp (n : Node) : List Node :=
  match _h : n.parent? with
  | none => []
  | some q => n :: q.wayUp
termination_by n.above.length
decreasing_by
  have := length_above_lt (ancestors_of_parent? _h ▸ List.mem_cons_self : q ∈ n.ancestors)
  exact this

theorem wayUp_of_parent? {n q : Node} (h : n.parent? = some q) : n.wayUp = n :: q.wayUp := by
  rw [wayUp]; split
  · next hq => rw [h] at hq; cases hq
  · next r hr => rw [h] at hr; cases hr; rfl

theorem wayUp_of_isRoot {n : Node} (h : n.parent? = none) : n.wayUp = [] := by
  rw [wayUp]; split
  · rfl
  · next r hr => rw [h] at hr; cases hr

/-- The way up from a node ends with the way up from any ancestor. -/
theorem exists_wayUp_eq_append {a n : Node} (h : a ∈ n.ancestors) :
    ∃ before, n.wayUp = before ++ a.wayUp := by
  obtain ⟨here, above⟩ := n
  induction above generalizing here with
  | nil => cases h
  | cons level above ih =>
    have hp : (Node.mk here (level :: above)).parent? = some ⟨level, above⟩ := rfl
    rw [ancestors_of_parent? hp] at h
    rw [wayUp_of_parent? hp]
    rcases List.mem_cons.1 h with rfl | h
    · exact ⟨[_], rfl⟩
    · obtain ⟨before, hb⟩ := ih level h
      exact ⟨_ :: before, by rw [hb]; rfl⟩

theorem isRoot_of_mem_wayUp {n x : Node} (h : x ∈ n.wayUp) : x.isRoot = false := by
  obtain ⟨here, above⟩ := n
  induction above generalizing here with
  | nil => rw [wayUp_of_isRoot rfl] at h; cases h
  | cons level above ih =>
    rw [wayUp_of_parent? rfl] at h
    rcases List.mem_cons.1 h with rfl | h
    · rfl
    · exact ih level h

theorem mem_of_mem_wayUp {n x : Node} (h : x ∈ n.wayUp) : x = n ∨ x ∈ n.ancestors := by
  obtain ⟨here, above⟩ := n
  induction above generalizing here with
  | nil => rw [wayUp_of_isRoot rfl] at h; cases h
  | cons level above ih =>
    rw [wayUp_of_parent? rfl] at h
    rcases List.mem_cons.1 h with rfl | h
    · exact .inl rfl
    · rw [ancestors_of_parent? rfl]
      exact .inr (List.mem_cons.2 (ih level h))

/-- Whether the parent stands for a given symbol. -/
def isUnder (n : Node) (s : Symbol) : Bool :=
  n.parent?.any (·.label.is s)

end Node

/-- A rule for contexts: the symbol of a node, the symbol that its parent must have, if any, and
the context that the node makes. -/
structure Context.Rule where
  symbol : Symbol
  parent : Option Symbol
  context : Context

/-- All rules. -/
def Context.rules : List Context.Rule :=
  [⟨.structDefFields, none, .structField⟩,
    ⟨.annotatedField, some .structDefFields, .structField⟩,
    ⟨.structDefinition, none, .structDefinition⟩,
    ⟨.moduleBody, none, .moduleBody⟩,
    ⟨.scriptBlock, none, .scriptBlock⟩,
    ⟨.useDecl, none, .importDecl⟩,
    ⟨.usualFunctionDefinition, none, .functionDefinition⟩,
    ⟨.nativeFunctionDefinition, none, .functionDefinition⟩,
    ⟨.block, some .usualFunctionDefinition, .functionBody⟩,
    ⟨.funcParams, some .usualFunctionDefinition, .functionArguments⟩,
    ⟨.typeParameters, some .structDefinition, .structGeneric⟩]

/-- The rules in force: without function contexts, no definition of a function is a context. -/
def Context.Rule.inForce (settings : Settings) (r : Context.Rule) : Bool :=
  settings.functionContexts || r.context != .functionDefinition

/-- What a node contributes to the contexts of a point in it. -/
def Node.contexts (settings : Settings) (n : Node) : List Context :=
  (Context.rules.filter fun r =>
    r.inForce settings && n.label.is r.symbol && r.parent.all n.isUnder).map (·.context)

/-- The name that a module definition gives: the text of its first identifier behind the first
child. -/
def Node.moduleName? (source : String) (n : Node) : Option String :=
  if n.label.is .moduleDefinition then
    ((n.children.drop 1).find? (·.label.is .moduleIdentifier)).map (·.text source)
  else none

/-- The scope that the visited nodes make, the innermost first: the first or the last of the names
that they give, and the contexts of them all in order. -/
def Scope.ofPath (settings : Settings) (source : String) (visited : List Node) : Scope :=
  let names := visited.filterMap (·.moduleName? source)
  { moduleName :=
      match settings.namePolicy with
      | .outermost => names.getLast?
      | .nearest => names.head?
    contexts := visited.flatMap (·.contexts settings) }

/-! ## One node -/

theorem Node.contexts_eq {n q : Node} (h : n.parent? = some q) (settings : Settings) :
    n.contexts settings = (Context.of? settings n.label q.label).toList := by
  have hunder (s : Symbol) : n.isUnder s = q.label.is s := by
    rw [Node.isUnder, h]; rfl
  unfold Node.contexts Context.of? Context.rules Context.Rule.inForce
  simp only [Label.is_eq n.label]
  cases n.label.symbol? with
  | none => simp
  | some s => cases s <;> cases settings.functionContexts <;> simp [hunder] <;> split <;> simp [*]

theorem Node.map_label_children (n : Node) : n.children.map (·.label) = n.tree.childLabels := by
  have h := congrArg (List.map Tree.label) n.map_tree_children
  rw [List.map_map] at h
  exact h

namespace Scope

theorem nameIn?_tree (source : String) (n : Node) : nameIn? source n.tree =
    ((n.children.drop 1).find? (·.label.is .moduleIdentifier)).map (·.text source) := by
  rw [nameIn?, ← Node.map_label_children, ← List.map_drop, List.find?_map, Option.map_map]
  rfl

/-- The scope so far, extended by a node further out that is not the root. -/
def step (settings : Settings) (source : String) (s : Scope) (n : Node) : Scope :=
  { moduleName := pickName settings.namePolicy s.moduleName (n.moduleName? source)
    contexts := s.contexts ++ n.contexts settings }

theorem pickName_none (policy : NamePolicy) (inner : Option String) :
    pickName policy inner none = inner := by
  cases policy
  · exact Option.none_or
  · exact Option.or_none

theorem enter_eq_step (settings : Settings) (source : String) {n q : Node}
    (h : n.parent? = some q) (s : Scope) :
    s.enter settings source n.here q.label = step settings source s n := by
  unfold enter step
  rw [n.contexts_eq h, Node.moduleName?, ← nameIn?_tree]
  congr 1
  show (if n.label.is .moduleDefinition then
    pickName settings.namePolicy s.moduleName (nameIn? source n.tree) else s.moduleName) = _
  by_cases hm : n.label.is .moduleDefinition
  · rw [if_pos hm, if_pos hm]
  · rw [if_neg hm, if_neg hm, pickName_none]

/-! ## The whole way up -/

theorem climb_eq_foldl (settings : Settings) (source : String) (n : Node) (budget : Budget)
    (s : Scope) :
    climb settings source n.here n.above budget s =
      ((budget.take n.wayUp).1.foldl (step settings source) s, (budget.take n.wayUp).2) := by
  obtain ⟨here, above⟩ := n
  induction above generalizing here budget s with
  | nil => rw [Node.wayUp_of_isRoot rfl]; rfl
  | cons parent above ih =>
    have hp : (Node.mk here (parent :: above)).parent? = some ⟨parent, above⟩ := rfl
    rw [Node.wayUp_of_parent? hp, climb, Budget.take]
    rcases budget.spend with ⟨_ | _, left⟩
    · rfl
    · simp only [ih, List.foldl_cons]
      rw [← enter_eq_step settings source hp]
      rfl

theorem contexts_foldl (settings : Settings) (source : String) (ns : List Node) (s : Scope) :
    (ns.foldl (step settings source) s).contexts =
      s.contexts ++ ns.flatMap (·.contexts settings) := by
  induction ns generalizing s with
  | nil => simp
  | cons n ns ih =>
    rw [List.foldl_cons, ih, List.flatMap_cons, step, List.append_assoc]

theorem moduleName_foldl (settings : Settings) (source : String) (ns : List Node) (s : Scope) :
    (ns.foldl (step settings source) s).moduleName =
      match settings.namePolicy with
      | .outermost => (ns.filterMap (·.moduleName? source)).getLast?.or s.moduleName
      | .nearest => s.moduleName.or (ns.filterMap (·.moduleName? source)).head? := by
  induction ns generalizing s with
  | nil => cases settings.namePolicy <;> simp
  | cons n ns ih =>
    rw [List.foldl_cons, ih]
    cases hpol : settings.namePolicy with
    | outermost =>
      simp only [step, pickName, hpol]
      cases hn : n.moduleName? source with
      | none => simp [hn]
      | some name =>
        cases ht : (ns.filterMap (·.moduleName? source)).getLast? <;>
          simp [hn, List.getLast?_cons, ht]
    | nearest =>
      simp only [step, pickName, hpol]
      cases hn : n.moduleName? source <;> cases s.moduleName <;> simp [hn]

theorem foldl_eq_ofPath (settings : Settings) (source : String) (ns : List Node) :
    ns.foldl (step settings source) {} = ofPath settings source ns := by
  have hname := moduleName_foldl settings source ns {}
  have hcontexts := contexts_foldl settings source ns {}
  rw [ofPath, ← List.nil_append (ns.flatMap _), ← hcontexts]
  cases hpol : settings.namePolicy with
  | outermost =>
    simp only [hpol, Option.or_none] at hname
    rw [← hname]
  | nearest =>
    simp only [hpol, Option.none_or] at hname
    rw [← hname]

theorem climb_descendantAt (settings : Settings) (t : Tree) (source : String) (p : Point) :
    climb settings source (t.descendantAt p).here (t.descendantAt p).above
        (.ofLimit settings.nodeBudget) {} =
      (ofPath settings source (Budget.admitted settings.nodeBudget (t.descendantAt p).wayUp),
        ((Budget.ofLimit settings.nodeBudget).take (t.descendantAt p).wayUp).2) := by
  rw [climb_eq_foldl, foldl_eq_ofPath, (Budget.take_ofLimit _ _).1]

end Scope

theorem scopeAt_value (settings : Settings) (t : Tree) (source : String) (p : Point) :
    (scopeAt settings t source p).value =
      Scope.ofPath settings source
        (Budget.admitted settings.nodeBudget (t.descendantAt p).wayUp) := by
  simp only [scopeAt, Scope.climb_descendantAt]

/-- There is a warning exactly if the budget does not admit the whole way up. -/
theorem scopeStopped_mem_events (settings : Settings) (t : Tree) (source : String) (p : Point) :
    .scopeStopped p ∈ (scopeAt settings t source p).events ↔
      settings.nodeBudget.any (· < (t.descendantAt p).wayUp.length) = true := by
  rw [← (Budget.take_ofLimit settings.nodeBudget _).2]
  simp only [scopeAt, Scope.climb_descendantAt]
  split <;> simp [*]

/-- **Scope resolution equals its path specification.** The scope of a point is made by the nodes
on the way up that the budget admits, and a warning says whether it admits fewer than there
are. -/
theorem scopeAt_eq_path (settings : Settings) (t : Tree) (source : String) (p : Point) :
    let way := (t.descendantAt p).wayUp
    let scope := Scope.ofPath settings source (Budget.admitted settings.nodeBudget way)
    scopeAt settings t source p =
      { value := scope
        events := (if settings.nodeBudget.any (· < way.length) then [.scopeStopped p] else []) ++
          [.scopeResolved p scope] } := by
  intro way scope
  obtain ⟨hvisited, hover⟩ := Budget.take_ofLimit settings.nodeBudget way
  have hclimb := Scope.climb_eq_foldl settings source (t.descendantAt p)
    (.ofLimit settings.nodeBudget) {}
  rw [hvisited, Scope.foldl_eq_ofPath] at hclimb
  simp only [scopeAt, hclimb, ← hover]
  rfl

end MoveOutline
