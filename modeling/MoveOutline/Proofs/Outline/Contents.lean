import Mathlib.Data.List.Sort
import MoveOutline.Proofs.Outline.Cut
import MoveOutline.Proofs.Outline.Naming
import MoveOutline.Proofs.Syntax.Links
/-!
# What an outline reports

The record of a module reports the members among the nodes below the module: constants and types
by their text, imports and functions by what is read from them. Modules that are searched for have
no nodes in common, and every node in a module is below an outermost one. So the records of an
outline together report the members among all nodes that lie in modules, each of them once.

Results:
* `Tree.inside_eq`: the nodes with a given ancestor are those that a walk below it meets.
* `Tree.flatMap_inside`: the nodes in modules are those inside the outermost modules, one module
  after the other.
* `Reports.flatMap`: records that report one list of nodes each report all of them together.
* `outline_reports`: what the records of an outline report.
-/
namespace MoveOutline

/-- The ids below a node lie in its block. -/
theorem Node.id_mem_of_mem_below {m x : Node} (h : x ∈ m.below) :
    m.id < x.id ∧ x.id < m.id + m.size := by
  have hmem : x.id ∈ m.below.map Node.id := List.mem_map_of_mem h
  rw [m.map_id_below, m.length_below, List.mem_range'_1] at hmem
  rw [m.size_eq]
  omega

/-- The nodes that have a given ancestor, in pre-order. -/
def Tree.inside (t : Tree) (m : Node) : List Node :=
  t.nodes.filter fun x => decide (m ∈ x.ancestors)

namespace Tree

variable {t : Tree}

/-! ## Nodes in modules -/

/-- Nodes of a tree that are listed in the order of their ids are told by which nodes they are. -/
theorem eq_of_mem_iff {xs ys : List Node} (hxs : xs.Pairwise fun x y => x.id < y.id)
    (hys : ys.Pairwise fun x y => x.id < y.id) (h : ∀ x, x ∈ xs ↔ x ∈ ys) : xs = ys := by
  have : Std.Irrefl fun x y : Node => x.id < y.id := ⟨fun x => Nat.lt_irrefl x.id⟩
  have : Std.Antisymm fun x y : Node => x.id < y.id :=
    ⟨fun x y hxy hyx => absurd hxy (Nat.lt_asymm hyx)⟩
  exact hxs.eq_of_mem_iff hys h

theorem mem_inside_iff {m x : Node} : x ∈ t.inside m ↔ x ∈ t.nodes ∧ m ∈ x.ancestors := by
  simp [inside]

/-- Having a node for an ancestor is being below it. -/
theorem inside_eq {m : Node} (hm : m ∈ t.nodes) : t.inside m = m.below := by
  refine eq_of_mem_iff (t.pairwise_id_nodes.filter _) m.pairwise_id_below fun x => ?_
  have hbelow : x ∈ m.below → x ∈ m.preorder := List.mem_cons_of_mem _
  rw [mem_inside_iff]
  constructor
  · rintro ⟨hx, ha⟩
    rcases List.mem_cons.1 (mem_preorder_of_mem_ancestors hx ha) with rfl | h
    · exact absurd ha x.not_mem_ancestors_self
    · exact h
  · intro h
    exact ⟨mem_nodes_of_mem_preorder hm (hbelow h), Node.mem_ancestors_of_mem_below h⟩

theorem inside_eq_descendants {m : Node} (hm : m ∈ t.nodes) :
    t.inside m = m.descendants.drop 1 := by
  rw [inside_eq hm, Node.descendants_eq]
  rfl

/-- Of the modules around a node, one is outermost. -/
theorem inModule_iff {x : Node} (hx : x ∈ t.nodes) :
    x.inModule = true ↔ ∃ m ∈ t.outermostModules, m ∈ x.ancestors := by
  constructor
  · intro h
    induction x, hx using nodes_induction with
    | root => cases h
    | child q hq ih c hc =>
      rw [Node.inModule, Node.ancestors_of_mem_children hc, List.any_cons] at h
      cases hin : q.inModule with
      | true =>
        obtain ⟨m, hm, hmq⟩ := ih hin
        refine ⟨m, hm, ?_⟩
        rw [Node.ancestors_of_mem_children hc]
        exact List.mem_cons_of_mem _ hmq
      | false =>
        rw [show q.ancestors.any Node.isModule = false from hin, Bool.or_false] at h
        exact ⟨q, mem_outermostModules.2 ⟨hq, h, hin⟩, Node.mem_ancestors_of_mem_children hc⟩
  · rintro ⟨m, hm, hmx⟩
    exact List.any_eq_true.2 ⟨m, hmx, (mem_outermostModules.1 hm).2.1⟩

/-- A subtree ends before a later node that is not in it. -/
theorem id_add_size_le {m n : Node} (hm : m ∈ t.nodes) (hn : n ∈ t.nodes) (hlt : m.id < n.id)
    (hout : m ∉ n.ancestors) : m.id + m.size ≤ n.id := by
  rw [← Nat.not_lt]
  intro hin
  have hid : n.id ∈ m.preorder.map Node.id := by
    rw [m.map_id_preorder, List.mem_range'_1]
    omega
  obtain ⟨x, hx, hxn⟩ := List.mem_map.1 hid
  obtain rfl := node_ext (mem_nodes_of_mem_preorder hm hx) hn hxn
  rcases (mem_preorder_iff hn).1 hx with rfl | ha
  · exact Nat.lt_irrefl _ hlt
  · exact hout ha

/-- The nodes in modules are those inside the outermost ones, which have none in common. -/
theorem flatMap_inside (t : Tree) :
    t.outermostModules.flatMap t.inside = t.nodes.filter Node.inModule := by
  refine eq_of_mem_iff ?_ (t.pairwise_id_nodes.filter _) fun x => ?_
  · refine List.pairwise_flatMap.2 ⟨fun m _ => t.pairwise_id_nodes.filter _, ?_⟩
    refine t.pairwise_id_outermostModules.imp_of_mem ?_
    intro m n hm hn hlt x hx y hy
    obtain ⟨hm, hmod, -⟩ := mem_outermostModules.1 hm
    obtain ⟨hn, -, hout⟩ := mem_outermostModules.1 hn
    have hapart : m ∉ n.ancestors := fun ha => List.any_eq_false.1 hout m ha hmod
    rw [inside_eq hm] at hx
    rw [inside_eq hn] at hy
    calc x.id < m.id + m.size := (Node.id_mem_of_mem_below hx).2
      _ ≤ n.id := id_add_size_le hm hn hlt hapart
      _ < y.id := (Node.id_mem_of_mem_below hy).1
  · rw [List.mem_flatMap, List.mem_filter]
    constructor
    · rintro ⟨m, hm, hx⟩
      obtain ⟨hx, ha⟩ := mem_inside_iff.1 hx
      exact ⟨hx, (inModule_iff hx).2 ⟨m, hm, ha⟩⟩
    · rintro ⟨hx, hin⟩
      obtain ⟨m, hm, ha⟩ := (inModule_iff hx).1 hin
      exact ⟨m, hm, mem_inside_iff.2 ⟨hx, ha⟩⟩

end Tree

/-! ## Members -/

/-- Whether the node defines a function, in one form or the other. -/
def Node.isFunction (n : Node) : Bool :=
  n.kind = "usual_function_definition" ∨ n.kind = "native_function_definition"

/-- The form of the function that the node defines if it does. -/
def Node.form (n : Node) : FunctionForm :=
  if n.kind = "native_function_definition" then .native else .ordinary

/-- The records together report the members in a list of nodes, in its order and with nothing
left out or reported twice. -/
structure Reports (settings : Settings) (source : String) (ns : List Node)
    (ds : List ModuleDecl) : Prop where
  constants : ds.flatMap (·.constants) =
    (ns.filter (·.kind = "constant")).map (·.text source)
  types : ds.flatMap (·.types) =
    (ns.filter (·.kind = "struct_definition")).map (·.text source)
  imports : ds.flatMap (·.imports) =
    (ns.filter (·.kind = "use_decl")).map fun n => .read source n.tree
  /-- The two kinds of definitions are not listed one behind the other. -/
  functions : ds.flatMap (·.functions) =
    (ns.filter (·.isFunction)).map fun n => .read settings source n.form n.tree

section

variable {settings : Settings} {source : String}

theorem Reports.append {ns ns' : List Node} {ds ds' : List ModuleDecl}
    (h : Reports settings source ns ds) (h' : Reports settings source ns' ds') :
    Reports settings source (ns ++ ns') (ds ++ ds') where
  constants := by simp [h.constants, h'.constants]
  types := by simp [h.types, h'.types]
  imports := by simp [h.imports, h'.imports]
  functions := by simp [h.functions, h'.functions]

/-- Records that report one list of nodes each report all of them together. -/
theorem Reports.flatMap {ms : List Node} {inside : Node → List Node} {ds : List ModuleDecl}
    (h : List.Forall₂ (fun m d => Reports settings source (inside m) [d]) ms ds) :
    Reports settings source (ms.flatMap inside) ds := by
  induction h with
  | nil => exact ⟨rfl, rfl, rfl, rfl⟩
  | cons hd _ ih => exact hd.append ih

theorem Node.functionForm?_eq (n : Node) :
    n.functionForm? = if n.isFunction then some n.form else none := by
  have hsymbol (s : Symbol) : n.label.symbol? = some s ↔ n.kind = s.kind :=
    Symbol.ofKind?_eq_some_iff
  unfold functionForm? isFunction form
  cases hs : n.label.symbol? with
  | none =>
    have hkind (s : Symbol) : n.kind ≠ s.kind := by
      rw [ne_eq, ← hsymbol, hs]
      rintro ⟨⟩
    have husual := hkind .usualFunctionDefinition
    have hnative := hkind .nativeFunctionDefinition
    simp only [Symbol.kind] at husual hnative
    simp [husual, hnative]
  | some s =>
    rw [(hsymbol s).1 hs]
    cases s <;> rfl

theorem filterMap_function? (ns : List Node) : ns.filterMap (·.function? settings source) =
    (ns.filter (·.isFunction)).map fun n => .read settings source n.form n.tree := by
  induction ns with
  | nil => rfl
  | cons n ns ih =>
    have hn : n.function? settings source = (if n.isFunction then some n.form else none).map
        fun form => .read settings source form n.tree := by
      rw [Node.function?, n.functionForm?_eq]
    by_cases h : n.isFunction = true
    · simp [hn, h, ih]
    · simp [hn, h, ih]

theorem reports_ofMembers (address : Option String) (m : Node) (ns : List Node) :
    Reports settings source ns [.ofMembers settings source address m ns] where
  constants := List.flatMap_singleton ..
  types := List.flatMap_singleton ..
  imports := List.flatMap_singleton ..
  functions := (List.flatMap_singleton ..).trans (filterMap_function? ns)

end

/-- **What an outline reports.** Without a limit, the record of each outermost module reports the
members among the nodes below the module, which are those that a walk from the module meets behind
it, and no others. All records together report the members among the nodes that lie in modules. -/
theorem outline_reports (settings : Settings) (t : Tree) (source : String) (hs : source ≠ "")
    (hb : settings.nodeBudget = none) :
    (∀ m ∈ t.outermostModules, t.inside m = m.descendants.drop 1) ∧
    List.Forall₂ (fun m d => Reports settings source (t.inside m) [d])
      t.outermostModules (outline settings t source).value ∧
    Reports settings source (t.nodes.filter Node.inModule) (outline settings t source).value := by
  have hrecords : List.Forall₂ (fun m d => Reports settings source (t.inside m) [d])
      t.outermostModules (outline settings t source).value := by
    rw [outline_value_unlimited settings t source hs hb, List.forall₂_map_right_iff,
      List.forall₂_same]
    intro m hm
    rw [Tree.inside_eq (Tree.mem_nodes_of_mem_outermostModules hm), Tree.moduleRecord,
      List.filter_true]
    exact reports_ofMembers _ m _
  refine ⟨?_, hrecords, ?_⟩
  · intro m hm
    exact Tree.inside_eq_descendants (Tree.mem_nodes_of_mem_outermostModules hm)
  · rw [← t.flatMap_inside]
    exact Reports.flatMap hrecords

/-- The text of a file with members in a nested module, in a function, in no module and behind an
error. -/
def scatteredMembersText : String :=
  "const W module A fun f() \x7b use P \x7d ! const X " ++
    "module B native fun g() const Y module C const Z"

/-- The tree of that file. -/
def scatteredMembers : Tree :=
  ⟨.onLine "source_file" 0 93,
    .cons (.onLine "constant" 0 7) .nil <|
    .cons (.onLine "module_definition" 8 76)
      (.cons (.onLine "module" 8 14) .nil <|
      .cons (.onLine "module_identifier" 15 16) .nil <|
      .cons (.onLine "usual_function_definition" 17 34)
        (.cons (.onLine "block" 25 34) (.cons (.onLine "use_decl" 27 32) .nil .nil) .nil) <|
      .cons (.onLine "ERROR" 35 44) (.cons (.onLine "constant" 37 44) .nil .nil) <|
      .cons (.onLine "module_definition" 45 76)
        (.cons (.onLine "module" 45 51) .nil <|
        .cons (.onLine "module_identifier" 52 53) .nil <|
        .cons (.onLine "native_function_definition" 54 68) .nil <|
        .cons (.onLine "constant" 69 76) .nil .nil) .nil) <|
    .cons (.onLine "module_definition" 77 93)
      (.cons (.onLine "module" 77 83) .nil <|
      .cons (.onLine "module_identifier" 84 85) .nil <|
      .cons (.onLine "constant" 86 93) .nil .nil) .nil⟩

/-- The outermost modules report all but the first constant. -/
theorem outline_reports_scatteredMembers :
    scatteredMembersText ≠ "" ∧ ({} : Settings).nodeBudget = none ∧
    List.Forall₂ (fun m d => Reports {} scatteredMembersText (scatteredMembers.inside m) [d])
      scatteredMembers.outermostModules
      (outline {} scatteredMembers scatteredMembersText).value ∧
    Reports {} scatteredMembersText (scatteredMembers.nodes.filter Node.inModule)
      (outline {} scatteredMembers scatteredMembersText).value ∧
    (outline {} scatteredMembers scatteredMembersText).value.map (·.constants) =
      [["const X", "const Y"], ["const Z"]] ∧
    (outline {} scatteredMembers scatteredMembersText).value.map (·.imports.map (·.rawText)) =
      [["use P"], []] ∧
    (outline {} scatteredMembers scatteredMembersText).value.map (·.functions.map (·.isNative)) =
      [[false, true], []] := by
  have hne : scatteredMembersText ≠ "" := by decide
  obtain ⟨-, hrecords, hall⟩ := outline_reports {} scatteredMembers scatteredMembersText hne rfl
  exact ⟨hne, rfl, hrecords, hall, by decide +kernel, by decide +kernel, by decide +kernel⟩

end MoveOutline
