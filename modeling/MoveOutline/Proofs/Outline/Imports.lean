import MoveOutline.Proofs.Outline.Contents
/-!
# The parts of an import

The search for the parts of an import takes trees off a stack and puts the trees below them
there. What it finds can be told without the stack. The nodes that it visits are those below the
declaration that lie in no member of it, in pre-order. The first address literal, the first module
identifier and all members among them are the parts of the import, however deep they are nested.

Results:
* `ImportSearch.outcome_visit`: a step of the search does not change what it will have found.
* `ImportSearch.run_eq`: a whole search finds the parts among the labels of a recursive listing.
* `Tree.map_label_searched`: that listing has the nodes below a declaration and in no member.
* `useDecl_read`: the import that a declaration makes, by these nodes.
-/
namespace MoveOutline

/-- The labels of a forest in pre-order, without those below an imported member. -/
def Forest.labelsOutsideMembers : Forest → List Label
  | .nil => []
  | .cons label below rest =>
    label :: ((if label.is .useMember then [] else below.labelsOutsideMembers) ++
      rest.labelsOutsideMembers)

/-- The node `x` lies in an imported member below the node `d`. -/
def Node.InMemberOf (d x : Node) : Prop :=
  ∃ a ∈ x.ancestors, d ∈ a.ancestors ∧ a.kind = "use_member"

instance (d x : Node) : Decidable (Node.InMemberOf d x) :=
  inferInstanceAs (Decidable (∃ a ∈ x.ancestors, d ∈ a.ancestors ∧ a.kind = "use_member"))

/-- The nodes below the node `d` that lie in no member below it, in pre-order. -/
def Tree.searched (t : Tree) (d : Node) : List Node :=
  (t.inside d).filter fun x => ¬ Node.InMemberOf d x

/-- The text of the first node with a given tag, empty if there is none. -/
def Node.firstText (source kind : String) (ns : List Node) : String :=
  ((ns.find? (·.kind = kind)).map (·.text source)).getD ""

/-! ## The search -/

/-- The labels of a tree in pre-order, without those below an imported member. -/
def Tree.labelsOutsideMembers (t : Tree) : List Label :=
  t.label :: if t.label.is .useMember then [] else t.below.labelsOutsideMembers

theorem Forest.flatMap_labelsOutsideMembers (f : Forest) :
    f.trees.flatMap Tree.labelsOutsideMembers = f.labelsOutsideMembers := by
  induction f with
  | nil => rfl
  | cons label below rest _ ih =>
    rw [trees, List.flatMap_cons, ih]
    rfl

namespace ImportSearch

/-- The labels that will be met when the trees on a stack are searched, the top first. -/
def listing (stack : List Tree) : List Label :=
  stack.reverse.flatMap Tree.labelsOutsideMembers

theorem listing_concat (stack : List Tree) (t : Tree) :
    listing (stack ++ [t]) = t.labelsOutsideMembers ++ listing stack := by
  rw [listing, List.reverse_append, List.reverse_singleton, List.singleton_append,
    List.flatMap_cons, listing]

/-- The trees of a forest come to stand on top of the stack with the first of them as the next. -/
theorem listing_push (stack : List Tree) (f : Forest) :
    listing (push stack f.trees) = f.labelsOutsideMembers ++ listing stack := by
  rw [listing, push_eq, List.reverse_append, List.reverse_reverse, List.flatMap_append,
    f.flatMap_labelsOutsideMembers, listing]

/-- What a search will have found when nothing is left to be searched. -/
def outcome (s : ImportSearch) : ImportSearch :=
  { stack := []
    address := s.address.or ((listing s.stack).find? (·.is .addressLiteral))
    moduleIdentifier :=
      s.moduleIdentifier.or ((listing s.stack).find? (·.is .moduleIdentifier))
    members := s.members ++ (listing s.stack).filter (·.is .useMember) }

/-- A step finds what stands first in the listing of the stack, and leaves the rest of the
listing. -/
theorem outcome_visit (s : ImportSearch) (t : Tree) :
    (s.visit t).outcome = outcome { s with stack := s.stack ++ [t] } := by
  have his (sym : Symbol) : t.label.is sym = decide (t.label.symbol? = some sym) :=
    t.label.is_eq sym
  unfold outcome visit
  rw [listing_concat, Tree.labelsOutsideMembers]
  cases hs : t.label.symbol? with
  | none => simp [his, hs, listing_push]
  | some sym => cases sym <;> simp [his, hs, listing_push]

/-- A search from any state comes to its outcome. -/
theorem run_eq (s : ImportSearch) : s.run = s.outcome := by
  fun_induction run s with
  | case1 s hempty =>
    obtain ⟨stack, address, moduleIdentifier, members⟩ := s
    obtain rfl : stack = [] := List.getLast?_eq_none_iff.1 hempty
    simp [outcome, listing]
  | case2 s t htop ih =>
    obtain ⟨rest, hstack⟩ := List.getLast?_eq_some_iff.1 htop
    rw [ih, outcome_visit, hstack, List.dropLast_concat, ← hstack]

end ImportSearch

/-! ## The nodes that are searched -/

/-- Neither `d` nor a node above it is a member below `d`. -/
theorem Node.not_mem_ancestors_of_mem_path {d a : Node} (h : a ∈ ofLevels d.path) :
    d ∉ a.ancestors := by
  rcases List.mem_cons.1 h with rfl | h
  · exact not_mem_ancestors_self _
  · exact fun hda => not_mem_ancestors_self d (mem_ancestors_trans hda h)

/-- In a forest below the declaration `d` and in no member, the listing has the labels of the nodes
that lie in no member. -/
theorem Forest.map_label_outsideMembers {d : Node} (f : Forest) (above : List Level) (id : Nat)
    (hd : d ∈ Node.ofLevels above)
    (hout : ∀ a ∈ Node.ofLevels above, d ∈ a.ancestors → a.kind ≠ "use_member") :
    ((f.nodes above id).filter fun x => ¬ Node.InMemberOf d x).map (·.label) =
      f.labelsOutsideMembers := by
  induction f generalizing above id with
  | nil => rfl
  | cons label below rest ih ih' =>
    let n : Node := ⟨⟨id, label, below, rest⟩, above⟩
    have his : label.is .useMember = true ↔ n.kind = "use_member" := beq_iff_eq
    have hnot : ¬ Node.InMemberOf d n := fun ⟨a, ha, hda, hkind⟩ => hout a ha hda hkind
    have hbelow : (n.below.filter fun x => ¬ Node.InMemberOf d x).map (·.label) =
        if label.is .useMember then [] else below.labelsOutsideMembers := by
      by_cases hm : label.is .useMember = true
      · rw [if_pos hm, List.map_eq_nil_iff, List.filter_eq_nil_iff]
        intro x hx
        have hin : Node.InMemberOf d x :=
          ⟨n, Node.mem_ancestors_of_mem_below hx, hd, his.1 hm⟩
        simp [hin]
      · have hpath : ∀ a ∈ Node.ofLevels n.path, d ∈ a.ancestors → a.kind ≠ "use_member" := by
          intro a ha hda
          rcases List.mem_cons.1 ha with rfl | ha
          · exact fun hkind => hm (his.2 hkind)
          · exact hout a ha hda
        rw [if_neg hm]
        exact ih n.path (n.id + 1) (List.mem_cons_of_mem _ hd) hpath
    have hnodes : (cons label below rest).nodes above id =
        n :: (n.below ++ rest.nodes n.above (n.id + n.size)) := n.nodes_cons
    rw [hnodes, List.filter_cons_of_pos (by simpa using hnot), List.filter_append, List.map_cons,
      List.map_append, hbelow, ih' _ _ hd hout, labelsOutsideMembers]
    rfl

theorem Tree.map_label_searched {t : Tree} {d : Node} (hd : d ∈ t.nodes) :
    (t.searched d).map (·.label) = d.here.below.labelsOutsideMembers := by
  rw [searched, inside_eq hd]
  refine Forest.map_label_outsideMembers _ d.path _ List.mem_cons_self ?_
  intro a ha hda
  exact absurd hda (Node.not_mem_ancestors_of_mem_path ha)

/-! ## The import -/

theorem Node.firstText_eq (source : String) (s : Symbol) (ns : List Node) :
    (((ns.map (·.label)).find? (·.is s)).map (·.text source)).getD "" =
      firstText source s.kind ns := by
  rw [List.find?_map, Option.map_map]
  rfl

/-- **Reading an import is a pruned search.** The import that a declaration makes has the text of
the declaration. Its members are the members among the nodes below the declaration that lie in no
other member, in pre-order, and its address and its module are the first address literal and the
first module identifier among these nodes. -/
theorem useDecl_read (source : String) {t : Tree} {d : Node} (hd : d ∈ t.nodes)
    (hkind : d.kind = "use_decl") :
    ImportDecl.read source d.tree =
        { rawText := d.text source
          importedMembers :=
            ((t.searched d).filter (·.kind = "use_member")).map (·.text source)
          sourceAddress := Node.firstText source "address_literal" (t.searched d)
          moduleName := Node.firstText source "module_identifier" (t.searched d) } ∧
      ∀ settings m, ModuleDecl.note settings source d.tree m =
        { m with imports := ImportDecl.read source d.tree :: m.imports } := by
  have hsearched : ImportSearch.listing (ImportSearch.push [] d.tree.below.trees) =
      (t.searched d).map (·.label) := by
    rw [ImportSearch.listing_push, Tree.map_label_searched hd]
    exact List.append_nil _
  have hsymbol : d.tree.label.symbol? = some .useDecl := Symbol.ofKind?_eq_some_iff.2 hkind
  constructor
  · rw [ImportDecl.read, ImportSearch.run_eq, ImportSearch.outcome]
    simp only [hsearched, Option.none_or, List.nil_append, Node.firstText_eq, List.filter_map,
      List.map_map]
    rfl
  · intro settings m
    rw [ModuleDecl.note, hsymbol]

/-- The text of an import with a member that names another module, before its own address. -/
def groupedImportText : String := "use \x7b0x9::Z\x7d 0x1::A::\x7bB, C\x7d;"

/-- The tree of that text. The identifier of the module is below the address literal, and two of
the members are nested. -/
def groupedImport : Tree :=
  ⟨.onLine "source_file" 0 28,
    .cons (.onLine "use_decl" 0 28)
      (.cons (.onLine "use_member" 4 12)
        (.cons (.onLine "address_literal" 5 8) .nil <|
        .cons (.onLine "module_identifier" 10 11) .nil <|
        .cons (.onLine "use_member" 10 11) .nil .nil) <|
      .cons (.onLine "address_literal" 13 19)
        (.cons (.onLine "module_identifier" 18 19) .nil .nil) <|
      .cons (.onLine "use_members" 21 27)
        (.cons (.onLine "use_member" 22 23) .nil <|
        .cons (.onLine "use_member" 25 26) .nil .nil) .nil) .nil⟩

/-- Address and identifier below the first member do not count. -/
theorem useDecl_read_groupedImport : ∃ d ∈ groupedImport.nodes, d.kind = "use_decl" ∧
    (groupedImport.searched d).map Node.id = [2, 6, 7, 8, 9, 10] ∧
    ImportDecl.read groupedImportText d.tree =
      { rawText := d.text groupedImportText
        importedMembers := ((groupedImport.searched d).filter (·.kind = "use_member")).map
          (·.text groupedImportText)
        sourceAddress :=
          Node.firstText groupedImportText "address_literal" (groupedImport.searched d)
        moduleName :=
          Node.firstText groupedImportText "module_identifier" (groupedImport.searched d) } ∧
    (∀ settings m, ModuleDecl.note settings groupedImportText d.tree m =
      { m with imports := ImportDecl.read groupedImportText d.tree :: m.imports }) ∧
    ImportDecl.read groupedImportText d.tree =
      { rawText := groupedImportText
        importedMembers := ["\x7b0x9::Z\x7d", "B", "C"]
        sourceAddress := "0x1::A"
        moduleName := "A" } := by
  have hmem : groupedImport.root.children.head (by decide) ∈ groupedImport.nodes :=
    Tree.mem_nodes_of_mem_children groupedImport.root_mem_nodes (List.head_mem _)
  obtain ⟨hread, hnote⟩ := useDecl_read groupedImportText hmem rfl
  exact ⟨_, hmem, rfl, by decide +kernel, hread, hnote, by decide +kernel⟩

end MoveOutline
