import MoveOutline.Proofs.Outline.Members
/-!
# The modules of a file

The search for modules is a recursion that carries the last address along and reads the subtree
of a module without searching it. Seen from outside it is a statement about the nodes of the tree
in pre-order. The modules are the outermost module definitions below the root, and the address of
each is that of the last `address` node with a literal behind it among the nodes before the module
that lie in no module. A limit on the nodes cuts the pre-order, and with it all lists.

Results:
* `Search.modules_before`: the search pays for every node of a forest once, in the order of the
  ids, and finds what a scan of the visible nodes finds.
* `Search.scan_eq_map`: the address of a module in that scan, by ids.
* `outline_value`: the outline under any limit.
* `outline_modules`: the outline without a limit.
-/
namespace MoveOutline

namespace Node

/-- Whether the node is a module definition below the root. -/
def isModule (n : Node) : Bool :=
  !n.isRoot && n.label.is .moduleDefinition

/-- Whether the node lies inside a module definition below the root. -/
def inModule (n : Node) : Bool :=
  n.ancestors.any isModule

/-- The literal that an `address` node has for its next sibling. -/
def addressLiteral? (n : Node) : Option Node :=
  if n.label.is .address then n.nextSibling?.filter (·.label.is .addressLiteral) else none

end Node

/-- The outermost module definitions below the root, in pre-order. -/
def Tree.outermostModules (t : Tree) : List Node :=
  t.nodes.filter fun n => n.isModule && !n.inModule

/-- The text of the last address in a list of nodes. -/
def lastAddress (source : String) (ns : List Node) : Option String :=
  ((ns.filterMap Node.addressLiteral?).getLast?).map (·.text source)

/-- The last address below the root and in no module that comes before a node in pre-order. -/
def Tree.addressBefore (t : Tree) (source : String) (m : Node) : Option String :=
  lastAddress source (t.nodes.filter fun a => !a.isRoot && !a.inModule && decide (a.id < m.id))

/-- The record of the module at a node, of which the members that `keep` picks are listed. -/
def Tree.moduleRecord (t : Tree) (settings : Settings) (source : String) (keep : Node → Bool)
    (m : Node) : ModuleDecl :=
  .ofMembers settings source (t.addressBefore source m) m (m.below.filter keep)

theorem Node.label_of_isModule {m : Node} (h : m.isModule = true) :
    m.label.is .moduleDefinition = true := by
  unfold isModule at h; simp only [Bool.and_eq_true] at h; exact h.2

theorem Node.isModule_of_above {n : Node} (h : n.above ≠ []) :
    n.isModule = n.label.is .moduleDefinition := by
  simp [isModule, isRoot, h]

/-- A node lies in a module when it is below one or is one. -/
theorem Node.any_isModule_path (n : Node) :
    (ofLevels n.path).any isModule = (n.isModule || n.inModule) := rfl

/-! ## Addresses -/

theorem Node.text_addressLiteral? (source : String) (n : Node) :
    (n.addressLiteral?).map (·.text source) = Search.addressAt source n.label n.here.after := by
  unfold addressLiteral? Search.addressAt
  by_cases h : n.label.is .address
  · rw [if_pos h, if_pos h]
    unfold nextSibling?
    cases n.here.after with
    | nil => rfl
    | cons next below rest =>
      simp only [Forest.levels, List.head?_cons, Option.map_some, Forest.firstLabel?,
        Option.filter_some]
      change Option.map _ (if next.is .addressLiteral then _ else none) = _
      by_cases hl : next.is .addressLiteral
      · rw [if_pos hl, if_pos hl]; rfl
      · rw [if_neg hl, if_neg hl]; rfl
  · rw [if_neg h, if_neg h]; rfl

theorem Node.addressLiteral?_of_isModule {m : Node} (h : m.isModule = true) :
    m.addressLiteral? = none := by
  have hm := label_of_isModule h
  have ha : ¬ m.label.is .address = true := by
    rw [Label.is_iff] at hm ⊢; rw [hm]; simp
  rw [addressLiteral?, if_neg ha]

theorem lastAddress_cons (source : String) (n : Node) (ns : List Node) :
    lastAddress source (n :: ns) =
      (lastAddress source ns).or ((n.addressLiteral?).map (·.text source)) := by
  unfold lastAddress
  cases hn : n.addressLiteral? with
  | none => simp [hn]
  | some literal =>
    cases ht : (ns.filterMap Node.addressLiteral?).getLast? <;>
      simp [hn, List.getLast?_cons, ht]

/-! ## The search as a scan of the visible nodes -/

namespace Search

/-- The records of the modules in a list of nodes, when the last address before them is known. -/
def scan (settings : Settings) (source : String) (limit : Option Nat) :
    Option String → List Node → List ModuleDecl
  | _, [] => []
  | address, n :: ns =>
    if n.isModule then
      .ofMembers settings source address n (n.below.filter fun x => Budget.within limit x.id) ::
        scan settings source limit address ns
    else scan settings source limit (((n.addressLiteral?).map (·.text source)).or address) ns

/-- The nodes that a search under a limit comes by: those in no module and within the limit. -/
def visible (limit : Option Nat) (ns : List Node) : List Node :=
  ns.filter fun n => !n.inModule && Budget.within limit n.id

variable (settings : Settings) (source : String) (limit : Option Nat)

theorem scan_append (address : Option String) (xs ys : List Node) :
    scan settings source limit address (xs ++ ys) =
      scan settings source limit address xs ++
        scan settings source limit ((lastAddress source xs).or address) ys := by
  induction xs generalizing address with
  | nil => rfl
  | cons x xs ih =>
    rw [List.cons_append, scan, scan, lastAddress_cons]
    by_cases hx : x.isModule = true
    · rw [if_pos hx, if_pos hx, ih, Node.addressLiteral?_of_isModule hx, Option.map_none,
        Option.or_none, List.cons_append]
    · rw [if_neg hx, if_neg hx, ih, Option.or_assoc]

theorem lastAddress_append (xs ys : List Node) : lastAddress source (xs ++ ys) =
    (lastAddress source ys).or (lastAddress source xs) := by
  induction xs with
  | nil => simp [lastAddress]
  | cons x xs ih => rw [List.cons_append, lastAddress_cons, ih, lastAddress_cons, Option.or_assoc]

theorem visible_append (xs ys : List Node) :
    visible limit (xs ++ ys) = visible limit xs ++ visible limit ys :=
  List.filter_append ..

theorem visible_nodes_eq_nil {limit : Option Nat} {id : Nat} (hid : Budget.within limit id = false)
    (f : Forest) (above : List Level) : visible limit (f.nodes above id) = [] := by
  unfold visible
  rw [← List.filter_filter, Budget.filter_within_eq_nil hid, List.filter_nil]
  intro x hx
  exact Node.le_id_of_mem_nodes hx

theorem visible_below_module {m : Node} (hm : m.isModule = true) : visible limit m.below = [] := by
  unfold visible
  rw [List.filter_eq_nil_iff]
  intro x hx
  have hin : x.inModule = true :=
    List.any_eq_true.2 ⟨m, Node.mem_ancestors_of_mem_below hx, hm⟩
  simp [hin]

theorem visible_cons {n : Node} (hin : n.inModule = false)
    (hw : Budget.within limit n.id = true) (ns : List Node) :
    visible limit (n :: ns) = n :: visible limit ns :=
  List.filter_cons_of_pos (by rw [hin, hw]; rfl)

/-! The three ways in which a search goes on at a node. -/

section
variable (address : Option String) (n : Node)

theorem modules_out (hw : Budget.within limit n.id = false) :
    modules settings source (.cons n.label n.here.below n.here.after)
      ⟨.before limit n.id, address⟩ = ([], ⟨.overdrawn, address⟩) := by
  rw [modules, Budget.spend_before, hw, Budget.before_of_not_within (Nat.lt_succ_self _) hw]

theorem modules_at_module (hw : Budget.within limit n.id = true) (hm : n.isModule = true) :
    modules settings source (.cons n.label n.here.below n.here.after)
        ⟨.before limit n.id, address⟩ =
      let (later, s) := modules settings source n.here.after
        ⟨.before limit (n.id + n.size), address⟩
      (.ofMembers settings source address n
        (n.below.filter fun x => Budget.within limit x.id) :: later, s) := by
  have hlabel := Node.label_of_isModule hm
  have hnone : addressAt source n.label n.here.after = none := by
    rw [← n.text_addressLiteral?, Node.addressLiteral?_of_isModule hm]; rfl
  have hread := ModuleDecl.read_before settings source address n limit
  rw [modules, Budget.spend_before, hw, hnone]
  simp only [hlabel, if_true, Option.none_or]
  rw [show (⟨n.label, n.here.below⟩ : Tree) = n.tree from rfl, hread]

theorem modules_past (hw : Budget.within limit n.id = true)
    (hlabel : ¬ n.label.is .moduleDefinition = true) :
    modules settings source (.cons n.label n.here.below n.here.after)
        ⟨.before limit n.id, address⟩ =
      let (inside, s) := modules settings source n.here.below
        ⟨.before limit (n.id + 1), ((n.addressLiteral?).map (·.text source)).or address⟩
      let (later, s) := modules settings source n.here.after s
      (inside ++ later, s) := by
  rw [modules, Budget.spend_before, hw, n.text_addressLiteral?]
  simp only [if_neg hlabel]

end

/-- **One search, one payment for each node.** Before a forest that lies in no module, let the
budget be what is left of a limit when the nodes before it are paid for. Then so it is behind the
forest, and the search has found what a scan of the visible nodes finds. -/
theorem modules_before (f : Forest) (above : List Level) (id : Nat) (address : Option String)
    (hroot : above ≠ []) (hout : (Node.ofLevels above).any Node.isModule = false) :
    modules settings source f ⟨.before limit id, address⟩ =
      (scan settings source limit address (visible limit (f.nodes above id)),
        ⟨.before limit (id + f.size),
          (lastAddress source (visible limit (f.nodes above id))).or address⟩) := by
  induction f generalizing above id address with
  | nil => rfl
  | cons label below rest ih ih' =>
    let n : Node := ⟨⟨id, label, below, rest⟩, above⟩
    have hafter : n.here.after = rest := rfl
    have hin : n.inModule = false := hout
    have hstep : n.id + 1 + below.size = n.id + n.size := Nat.add_assoc ..
    have hsize : id + (Forest.cons label below rest).size = n.id + n.size + rest.size := by
      rw [← hstep, Forest.size_cons, ← Nat.add_assoc, ← Nat.add_assoc]; rfl
    have hnodes : (Forest.cons label below rest).nodes above id =
        n :: (n.below ++ rest.nodes n.above (n.id + n.size)) := n.nodes_cons
    rw [hsize, hnodes]
    cases hw : Budget.within limit n.id with
    | false =>
      have hnil : visible limit (n :: (n.below ++ rest.nodes n.above (n.id + n.size))) = [] := by
        rw [← hnodes]; exact visible_nodes_eq_nil hw _ _
      have hend : Budget.before limit (n.id + n.size + rest.size) = .overdrawn :=
        Budget.before_of_not_within (by rw [n.size_eq]; omega) hw
      rw [hnil, hend]
      exact modules_out settings source limit address n hw
    | true =>
      have hrest := fun a => ih' n.above (n.id + n.size) a hroot hout
      rw [visible_cons limit hin hw, visible_append, scan, lastAddress_cons, lastAddress_append]
      by_cases hm : n.isModule = true
      · -- the whole subtree of a module is read, and none of it is searched
        refine (modules_at_module settings source limit address n hw hm).trans ?_
        rw [hafter, hrest, if_pos hm, visible_below_module limit hm, List.nil_append,
          Node.addressLiteral?_of_isModule hm]
        simp [lastAddress]
      · have hlabel : ¬ n.label.is .moduleDefinition = true := by
          rw [← Node.isModule_of_above (n := n) hroot]; exact hm
        have hpath : (Node.ofLevels n.path).any Node.isModule = false := by
          rw [n.any_isModule_path, hin, Bool.or_false]; simpa using hm
        have hdown := fun a => ih n.path (n.id + 1) a (List.cons_ne_nil _ _) hpath
        refine (modules_past settings source limit address n hw hlabel).trans ?_
        rw [hdown, hstep, hafter]
        simp only [hrest]
        rw [if_neg hm, scan_append]
        simp only [Option.or_assoc]
        rfl

/-- In a scan of nodes in the order of their ids, the address of a module is the last one among the
nodes with smaller ids. -/
theorem scan_eq_map (address : Option String) (ns : List Node)
    (hns : ns.Pairwise fun x y => x.id < y.id) :
    scan settings source limit address ns =
      (ns.filter Node.isModule).map fun m =>
        .ofMembers settings source
          ((lastAddress source (ns.filter fun a => decide (a.id < m.id))).or address) m
          (m.below.filter fun x => Budget.within limit x.id) := by
  induction ns generalizing address with
  | nil => rfl
  | cons n ns ih =>
    obtain ⟨hn, hns⟩ := List.pairwise_cons.1 hns
    have hlater : ∀ m ∈ ns.filter Node.isModule,
        (n :: ns).filter (fun a => decide (a.id < m.id)) =
          n :: ns.filter fun a => decide (a.id < m.id) := by
      intro m hm
      exact List.filter_cons_of_pos (decide_eq_true (hn m (List.mem_of_mem_filter hm)))
    rw [scan]
    by_cases hm : n.isModule = true
    · have hfirst : (n :: ns).filter (fun a => decide (a.id < n.id)) = [] := by
        rw [List.filter_eq_nil_iff]
        intro a ha
        rcases List.mem_cons.1 ha with rfl | ha
        · simp
        · have := hn a ha
          simp only [decide_eq_true_eq]; omega
      rw [if_pos hm, List.filter_cons_of_pos hm, List.map_cons, hfirst, ih address hns]
      congr 1
      apply List.map_congr_left
      intro m hmem
      rw [hlater m hmem, lastAddress_cons, Node.addressLiteral?_of_isModule hm, Option.map_none,
        Option.or_none]
    · rw [if_neg hm, List.filter_cons_of_neg hm, ih _ hns]
      apply List.map_congr_left
      intro m hmem
      rw [hlater m hmem, lastAddress_cons, Option.or_assoc]

end Search

/-! ## The outline -/

section
variable (settings : Settings) (t : Tree) (source : String)

/-- The search of a whole tree. -/
theorem Search.modules_root (limit : Option Nat) :
    Search.modules settings source t.below { budget := .ofLimit limit } =
      (Search.scan settings source limit none (Search.visible limit t.root.below),
        ⟨.before limit t.size, lastAddress source (Search.visible limit t.root.below)⟩) := by
  have hroot : (Node.ofLevels [t.root.here]).any Node.isModule = false := rfl
  have h := Search.modules_before settings source limit t.below [t.root.here] 1 none
    (by simp) hroot
  rw [Budget.ofLimit_eq_before, h, Option.or_none]
  rfl

theorem Tree.outermostModules_eq :
    t.outermostModules = t.root.below.filter fun n => n.isModule && !n.inModule :=
  List.filter_cons_of_neg (by simp [Node.isModule, Node.isRoot, root])

theorem Search.filter_visible (limit : Option Nat) :
    (Search.visible limit t.root.below).filter Node.isModule =
      t.outermostModules.filter fun m => Budget.within limit m.id := by
  rw [t.outermostModules_eq, Search.visible, List.filter_filter, List.filter_filter]
  apply List.filter_congr
  intro x _
  rw [← Bool.and_assoc, Bool.and_comm _ (Budget.within limit x.id)]

/-- A limit that reaches a module reaches all addresses before it. -/
theorem Search.lastAddress_visible {limit : Option Nat} {m : Node}
    (hm : Budget.within limit m.id = true) :
    lastAddress source ((Search.visible limit t.root.below).filter fun a => decide (a.id < m.id)) =
      t.addressBefore source m := by
  have hroot : ¬ (!t.root.isRoot && !t.root.inModule && decide (t.root.id < m.id)) = true := by
    simp [Node.isRoot, Tree.root]
  rw [Tree.addressBefore, t.nodes_eq, List.filter_cons, if_neg hroot, Search.visible,
    List.filter_filter]
  congr 1
  apply List.filter_congr
  intro x hx
  rw [Node.isRoot_of_mem_below hx]
  by_cases hlt : x.id < m.id
  · rw [Budget.within_of_le (Nat.le_of_lt hlt) hm]
    simp [hlt]
  · simp [hlt]

/-- The outline under any limit. -/
theorem outline_value (hs : source ≠ "") : (outline settings t source).value =
    (t.outermostModules.filter fun m => Budget.within settings.nodeBudget m.id).map
      (t.moduleRecord settings source fun x => Budget.within settings.nodeBudget x.id) := by
  have hvalue : (outline settings t source).value = (Search.modules settings source t.below
      { budget := .ofLimit settings.nodeBudget }).1 := by
    unfold outline; rw [if_neg hs]
    dsimp only
    split <;> rfl
  have hsorted : (Search.visible settings.nodeBudget t.root.below).Pairwise
      fun x y => x.id < y.id := t.root.pairwise_id_below.filter _
  rw [hvalue, Search.modules_root, Search.scan_eq_map settings source _ none _ hsorted,
    Search.filter_visible]
  apply List.map_congr_left
  intro m hm
  rw [Option.or_none, Search.lastAddress_visible t source (List.mem_filter.1 hm).2]
  rfl

theorem outline_value_unlimited (hs : source ≠ "") (hb : settings.nodeBudget = none) :
    (outline settings t source).value =
      t.outermostModules.map (t.moduleRecord settings source fun _ => true) := by
  have h := outline_value settings t source hs
  simp only [hb, Budget.within_none, List.filter_true] at h
  exact h

theorem outline_events_unlimited (hb : settings.nodeBudget = none) :
    (outline settings t source).events = [] := by
  unfold outline
  split
  · rfl
  · rw [hb]
    dsimp only
    split
    · next hlimit => cases hlimit
    · rfl

theorem outline_events (hs : source ≠ "") (b : Nat) (hb : settings.nodeBudget = some b) :
    (outline settings t source).events =
      if b < t.size - 1 then [.extractionStopped b (outline settings t source).value.length]
      else [] := by
  have hover := Budget.before_eq_overdrawn_iff b t.size
  unfold outline
  rw [if_neg hs, hb, Search.modules_root]
  dsimp only
  by_cases h : b < t.size - 1
  · rw [hover.2 (by omega), if_pos h]
  · have hne : Budget.before (some b) t.size ≠ .overdrawn := by rw [ne_eq, hover]; omega
    rw [if_neg h]
    split
    · next hbudget _ => exact absurd hbudget hne
    · rfl

end

/-- **Module discovery and address threading.** An outline without a limit has one record for each
outermost module definition below the root, in pre-order. The address of a record is that of the
last `address` node before the module that has a literal for its next sibling and lies, below the
root, in no module. An empty text has no modules. -/
theorem outline_modules (settings : Settings) (t : Tree) :
    (outline settings t "").value = [] ∧
      ∀ source, source ≠ "" → settings.nodeBudget = none →
        (outline settings t source).value = t.outermostModules.map fun m =>
          .ofMembers settings source (t.addressBefore source m) m m.below := by
  refine ⟨rfl, ?_⟩
  intro source hs hb
  rw [outline_value_unlimited settings t source hs hb]
  apply List.map_congr_left
  intro m _
  rw [Tree.moduleRecord, List.filter_true]

/-- The text of a file with an address before its modules and another one in the first. -/
def twoModulesText : String := "address 0x1 module A address 0x2 const X module B"

/-- The tree of that file. -/
def twoModules : Tree :=
  ⟨.onLine "source_file" 0 49,
    .cons (.onLine "address" 0 7) .nil <|
    .cons (.onLine "address_literal" 8 11) .nil <|
    .cons (.onLine "module_definition" 12 40)
      (.cons (.onLine "module" 12 18) .nil <|
      .cons (.onLine "module_identifier" 19 20) .nil <|
      .cons (.onLine "address" 21 28) .nil <|
      .cons (.onLine "address_literal" 29 32) .nil <|
      .cons (.onLine "constant" 33 40) .nil .nil) <|
    .cons (.onLine "module_definition" 41 49)
      (.cons (.onLine "module" 41 47) .nil <|
      .cons (.onLine "module_identifier" 48 49) .nil .nil) .nil⟩

/-- Both modules have the first address. -/
theorem outline_modules_twoModules : twoModulesText ≠ "" ∧ ({} : Settings).nodeBudget = none ∧
    (outline {} twoModules twoModulesText).value = twoModules.outermostModules.map (fun m =>
      .ofMembers {} twoModulesText (twoModules.addressBefore twoModulesText m) m m.below) ∧
    twoModules.outermostModules.map Node.id = [3, 9] ∧
    (outline {} twoModules twoModulesText).value =
      [{ name := "A", address := some "0x1", constants := ["const X"] },
        { name := "B", address := some "0x1" }] :=
  ⟨by decide, rfl, (outline_modules {} twoModules).2 twoModulesText (by decide) rfl,
    by decide +kernel, by decide +kernel⟩

end MoveOutline
