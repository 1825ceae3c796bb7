import Mathlib.Logic.Relation
import MoveOutline.Proofs.Syntax.Arena
import MoveOutline.Syntax.Preorder
/-!
# Links between nodes

The links that lead from node to node in a tree: parents, children, siblings and the walk over a
subtree. They never lead out of the tree, and the ids that they connect are those of a pre-order:
a parent comes before its children, these stand in ascending order, and a subtree is one block.

The records of an arena that says so are **linked** (`Linked`). That is a property of lists of
records alone, which mentions no tree; every script that builds a tree writes a list with it.

Results:
* `Tree.mem_children_iff`: a node is the parent of its children and of no other node.
* `Node.descendants_eq`: the walk over a subtree meets the nodes of the subtree in pre-order.
* `Tree.inSubtree_iff`: following the child ids in the records leads to the block of a subtree.
* `Builder.build_linked`: the records of built trees are linked.
-/
namespace MoveOutline

namespace Node

/-! ## Children -/

theorem le_id_of_mem_levels {f : Forest} {id : Nat} {level : Level} (h : level ∈ f.levels id) :
    id ≤ level.id := by
  induction f generalizing id with
  | nil => cases h
  | cons l below rest _ ih =>
    rcases List.mem_cons.1 h with rfl | h
    · exact Nat.le_refl _
    · have := ih h
      omega

theorem pairwise_id_levels (f : Forest) (id : Nat) :
    (f.levels id).Pairwise fun level level' => level.id < level'.id := by
  induction f generalizing id with
  | nil => exact List.Pairwise.nil
  | cons l below rest _ ih =>
    refine List.pairwise_cons.2 ⟨?_, ih _⟩
    intro level hlevel
    have := le_id_of_mem_levels hlevel
    simp only; omega

theorem pairwise_id_children (n : Node) : n.children.Pairwise fun c d => c.id < d.id :=
  List.pairwise_map.2 (pairwise_id_levels ..)

theorem id_lt_of_mem_children {n c : Node} (h : c ∈ n.children) : n.id < c.id := by
  obtain ⟨level, hlevel, rfl⟩ := List.mem_map.1 h
  have := le_id_of_mem_levels hlevel
  exact this

/-- The next sibling is a child of the same node. -/
theorem mem_children_of_nextSibling? {q n s : Node} (hn : n ∈ q.children)
    (hs : n.nextSibling? = some s) : s ∈ q.children := by
  have next {f : Forest} {id : Nat} {level level' : Level} (h : level ∈ f.levels id)
      (h' : (level.after.levels (level.id + (1 + level.below.size))).head? = some level') :
      level' ∈ f.levels id := by
    induction f generalizing id with
    | nil => cases h
    | cons l below rest _ ih =>
      rcases List.mem_cons.1 h with rfl | h
      · rw [← Nat.add_assoc] at h'
        exact List.mem_cons_of_mem _ (List.mem_of_mem_head? h')
      · exact List.mem_cons_of_mem _ (ih h)
  obtain ⟨level, hlevel, rfl⟩ := List.mem_map.1 hn
  obtain ⟨level', hhead, rfl⟩ := Option.map_eq_some_iff.1 hs
  exact List.mem_map.2 ⟨level', next hlevel hhead, rfl⟩

/-! ## Subtrees -/

theorem map_id_preorder (n : Node) : n.preorder.map id = List.range' n.id n.size := by
  rw [preorder_eq, List.map_cons, map_id_below, size_eq, Nat.add_comm 1, List.range'_succ,
    length_below]

end Node

/-- A walk meets the subtrees of the pending nodes one after the other. -/
theorem Walk.toList_eq (w : Walk) : w.toList = w.pending.flatMap Node.preorder := by
  induction h : w.remaining using Nat.strongRecOn generalizing w with
  | ind k ih =>
    subst h
    rw [toList]
    split
    · next hnone =>
      unfold next? at hnone
      split at hnone
      · next hp => rw [hp]; rfl
      · cases hnone
    · next n w' hsome =>
      have hless := remaining_next? hsome
      rw [ih _ (by omega) w' rfl]
      unfold next? at hsome
      split at hsome
      · cases hsome
      · next m pending hp =>
        obtain ⟨rfl, rfl⟩ : m = n ∧ Walk.mk (m.children ++ pending) = w' := by simpa using hsome
        rw [hp, List.flatMap_cons, List.flatMap_append, ← m.below_eq, m.preorder_eq]
        rfl

theorem Node.descendants_eq (n : Node) : n.descendants = n.preorder := by
  rw [descendants, Walk.toList_eq]
  exact List.flatMap_singleton ..

namespace Tree

variable {t : Tree}

/-! ## Parents -/

theorem mem_children_iff {p c : Node} (hc : c ∈ t.nodes) :
    c ∈ p.children ↔ c.parent? = some p := by
  constructor
  · exact Node.parent?_of_mem_children
  · intro hp
    rcases eq_root_or_child hc with rfl | ⟨q, -, hq⟩
    · cases hp
    · rw [Node.parent?_of_mem_children hq] at hp
      cases hp
      exact hq

theorem mem_nodes_of_parent? {p c : Node} (hc : c ∈ t.nodes) (h : c.parent? = some p) :
    p ∈ t.nodes := by
  rcases eq_root_or_child hc with rfl | ⟨q, hq, hcq⟩
  · cases h
  · rw [Node.parent?_of_mem_children hcq] at h
    cases h
    exact hq

theorem parent?_eq_none_iff_id {n : Node} (hn : n ∈ t.nodes) : n.parent? = none ↔ n.id = 0 := by
  rw [Node.parent?_eq_none_iff, isRoot_iff hn]
  constructor
  · rintro rfl
    rfl
  · intro h
    exact node_ext hn t.root_mem_nodes h

/-! ## Ids -/

theorem getElem?_nodes {i : Nat} {n : Node} :
    t.nodes[i]? = some n ↔ n ∈ t.nodes ∧ n.id = i := by
  have hid : ∀ {i : Nat} {n : Node}, t.nodes[i]? = some n → n.id = i := by
    intro i n h
    have hmap : (t.nodes.map Node.id)[i]? = some n.id := by rw [List.getElem?_map, h]; rfl
    rw [map_id_nodes] at hmap
    obtain ⟨hlt, hget⟩ := List.getElem?_eq_some_iff.1 hmap
    rw [← hget, List.getElem_range]
  constructor
  · intro h
    exact ⟨List.mem_of_getElem? h, hid h⟩
  · rintro ⟨hn, rfl⟩
    obtain ⟨j, hj⟩ := List.getElem?_of_mem hn
    rw [hid hj]
    exact hj

/-- A node of the tree is found under its id. -/
theorem node_id {n : Node} (hn : n ∈ t.nodes) : t.node n.id = .ok n := by
  rw [node, node?, getElem?_nodes.2 ⟨hn, rfl⟩]

/-- No link leads out of the tree. -/
theorem mem_nodes_of_link {n x : Node} (hn : n ∈ t.nodes)
    (h : n.parent? = some x ∨ (∃ i, n.child? i = some x) ∨ x ∈ n.children ∨
      n.nextSibling? = some x ∨ x ∈ n.descendants) : x ∈ t.nodes := by
  rcases h with h | ⟨i, h⟩ | h | h | h
  · exact mem_nodes_of_parent? hn h
  · exact mem_nodes_of_mem_children hn (List.mem_of_getElem? h)
  · exact mem_nodes_of_mem_children hn h
  · rcases eq_root_or_child hn with rfl | ⟨q, hq, hnq⟩
    · cases h
    · exact mem_nodes_of_mem_children hq (Node.mem_children_of_nextSibling? hnq h)
  · rw [Node.descendants_eq] at h
    exact mem_nodes_of_mem_preorder hn h

end Tree

/-! ## Linked records -/

/-- The record of `p` has `c` among its children. -/
def IsChild (rs : List Record) (p c : Nat) : Prop :=
  ∃ r, rs[p]? = some r ∧ c ∈ r.children

/-- One gets from `p` to `i` by going from records to their children. -/
def InSubtree (rs : List Record) : Nat → Nat → Prop :=
  Relation.ReflTransGen (IsChild rs)

/-- The parents and children in a list of records are those of a tree with ids in pre-order. -/
structure Linked (rs : List Record) : Prop where
  /-- Node 0 is there, and it is the one without a parent. -/
  root : 0 < rs.length ∧
    ∀ (i : Nat) (r : Record), rs[i]? = some r → (r.parent = none ↔ i = 0)
  /-- Parents come before their children. -/
  parent_lt : ∀ (i : Nat) (r : Record) (p : Nat), rs[i]? = some r → r.parent = some p → p < i
  /-- Children are the nodes that have the node for their parent. -/
  mem_children : ∀ (p : Nat) (r : Record) (c : Nat), rs[p]? = some r →
    (c ∈ r.children ↔ ∃ s : Record, rs[c]? = some s ∧ s.parent = some p)
  /-- Children are listed once, in ascending order. -/
  ascending : ∀ (p : Nat) (r : Record), rs[p]? = some r →
    r.children.Pairwise (· < ·) ∧ r.children.Nodup
  /-- A subtree is a block of ids that starts at its root. -/
  block : ∀ p, p < rs.length → ∃ size, p + size ≤ rs.length ∧
    ∀ i, InSubtree rs p i ↔ p ≤ i ∧ i < p + size
  /-- Every node lies in the subtree of node 0. -/
  connected : ∀ i, i < rs.length → InSubtree rs 0 i

namespace Tree

variable {t : Tree}

theorem length_records (t : Tree) : t.records.length = t.size := by
  rw [records, List.length_map, length_nodes]

theorem getElem?_records {i : Nat} {r : Record} :
    t.records[i]? = some r ↔ ∃ n ∈ t.nodes, n.id = i ∧ n.record = r := by
  rw [records, List.getElem?_map, Option.map_eq_some_iff]
  constructor
  · rintro ⟨n, hn, rfl⟩
    obtain ⟨hmem, hid⟩ := getElem?_nodes.1 hn
    exact ⟨n, hmem, hid, rfl⟩
  · rintro ⟨n, hmem, hid, rfl⟩
    exact ⟨n, getElem?_nodes.2 ⟨hmem, hid⟩, rfl⟩

theorem exists_node_of_lt {i : Nat} (h : i < t.records.length) : ∃ n ∈ t.nodes, n.id = i := by
  obtain ⟨n, hn, hid, -⟩ := getElem?_records.1 (List.getElem?_eq_getElem h)
  exact ⟨n, hn, hid⟩

theorem isChild_iff {n : Node} (hn : n ∈ t.nodes) (i : Nat) :
    IsChild t.records n.id i ↔ ∃ c ∈ n.children, c.id = i := by
  unfold IsChild
  constructor
  · rintro ⟨r, hr, hi⟩
    obtain ⟨m, hm, hid, rfl⟩ := getElem?_records.1 hr
    rw [node_ext hm hn hid] at hi
    exact List.mem_map.1 hi
  · rintro ⟨c, hc, rfl⟩
    exact ⟨n.record, getElem?_records.2 ⟨n, hn, rfl, rfl⟩, List.mem_map_of_mem hc⟩

theorem inSubtree_of_mem_preorder {n x : Node} (hn : n ∈ t.nodes) (hx : x ∈ n.preorder) :
    InSubtree t.records n.id x.id := by
  induction n using Node.children_induction with
  | step n ih =>
    rcases Node.mem_preorder_iff_eq_or.1 hx with rfl | ⟨c, hc, hxc⟩
    · exact Relation.ReflTransGen.refl
    · have hstep : IsChild t.records n.id c.id := (isChild_iff hn c.id).2 ⟨c, hc, rfl⟩
      exact Relation.ReflTransGen.head hstep (ih c hc (mem_nodes_of_mem_children hn hc) hxc)

/-- The child ids in the records lead from a node to the nodes of its subtree. -/
theorem inSubtree_iff {n : Node} (hn : n ∈ t.nodes) (i : Nat) :
    InSubtree t.records n.id i ↔ ∃ x ∈ n.preorder, x.id = i := by
  constructor
  · intro h
    induction h with
    | refl => exact ⟨n, n.self_mem_preorder, rfl⟩
    | tail _ hstep ih =>
      obtain ⟨x, hx, rfl⟩ := ih
      obtain ⟨c, hc, hid⟩ := (isChild_iff (mem_nodes_of_mem_preorder hn hx) _).1 hstep
      exact ⟨c, Node.mem_preorder_trans hx (Node.mem_preorder_of_mem_children hc), hid⟩
  · rintro ⟨x, hx, rfl⟩
    exact inSubtree_of_mem_preorder hn hx

theorem inSubtree_iff_block {n : Node} (hn : n ∈ t.nodes) (i : Nat) :
    InSubtree t.records n.id i ↔ n.id ≤ i ∧ i < n.id + n.size := by
  rw [inSubtree_iff hn, ← List.mem_range'_1, ← n.map_id_preorder, List.mem_map]

theorem block_le_size {n : Node} (hn : n ∈ t.nodes) : n.id + n.size ≤ t.size := by
  have hlast : n.id + n.size - 1 ∈ n.preorder.map Node.id := by
    rw [n.map_id_preorder, List.mem_range'_1, n.size_eq]
    omega
  obtain ⟨x, hx, hid⟩ := List.mem_map.1 hlast
  have := id_lt_size (mem_nodes_of_mem_preorder hn hx)
  rw [n.size_eq] at hid ⊢
  omega

/-- The records of a tree are linked. -/
theorem linked_records (t : Tree) : Linked t.records where
  root := by
    refine ⟨by rw [length_records, size]; omega, ?_⟩
    intro i r hr
    obtain ⟨n, hn, rfl, rfl⟩ := getElem?_records.1 hr
    rw [← parent?_eq_none_iff_id hn]
    exact Option.map_eq_none_iff
  parent_lt := by
    intro i r p hr hp
    obtain ⟨n, hn, rfl, rfl⟩ := getElem?_records.1 hr
    obtain ⟨q, hq, rfl⟩ := Option.map_eq_some_iff.1 hp
    exact Node.id_lt_of_mem_children ((mem_children_iff hn).2 hq)
  mem_children := by
    intro p r c hr
    obtain ⟨n, hn, rfl, rfl⟩ := getElem?_records.1 hr
    constructor
    · intro hc
      obtain ⟨d, hd, rfl⟩ := List.mem_map.1 hc
      refine ⟨d.record, getElem?_records.2 ⟨d, mem_nodes_of_mem_children hn hd, rfl, rfl⟩, ?_⟩
      exact Option.map_eq_some_iff.2 ⟨n, Node.parent?_of_mem_children hd, rfl⟩
    · rintro ⟨s, hs, hp⟩
      obtain ⟨d, hd, rfl, rfl⟩ := getElem?_records.1 hs
      obtain ⟨q, hq, hid⟩ := Option.map_eq_some_iff.1 hp
      rw [node_ext (mem_nodes_of_parent? hd hq) hn hid] at hq
      exact List.mem_map_of_mem ((mem_children_iff hd).2 hq)
  ascending := by
    intro p r hr
    obtain ⟨n, -, -, rfl⟩ := getElem?_records.1 hr
    have hlt : (n.children.map Node.id).Pairwise (· < ·) :=
      List.pairwise_map.2 n.pairwise_id_children
    exact ⟨hlt, hlt.imp fun h => Nat.ne_of_lt h⟩
  block := by
    intro p hp
    obtain ⟨n, hn, rfl⟩ := exists_node_of_lt hp
    exact ⟨n.size, by rw [length_records]; exact block_le_size hn, inSubtree_iff_block hn⟩
  connected := by
    intro i hi
    obtain ⟨n, hn, rfl⟩ := exists_node_of_lt hi
    exact inSubtree_of_mem_preorder t.root_mem_nodes hn

/-! ## Errors -/

theorem map_tree_nodes (t : Tree) : t.nodes.map Node.tree = t.subtrees := by
  rw [nodes_eq, List.map_cons, Node.below, Node.map_tree_nodes]
  rfl

/-- A tree has errors when the parser could not read what some node stands for. -/
theorem hasErrors_iff (t : Tree) : t.hasErrors = true ↔ ∃ n ∈ t.nodes, n.label.isError = true := by
  rw [hasErrors, ← map_tree_nodes, List.any_map, List.any_eq_true]
  rfl

end Tree

/-- **Built trees are linked.** Let a script, in which steps may fail, end in a tree. Then an arena
that is written by the script ends in the records of that tree, and these are linked. No link from
a node leads to an id that the tree does not have. The tree has errors exactly if one gets from
node 0 to the record of an error node. -/
theorem Builder.build_linked {steps : List BuildStep} {t : Tree}
    (h : (Builder.empty.run steps).build = .ok t) :
    (Arena.empty.run steps).build = .ok t.records ∧
      Linked t.records ∧
      (∀ n ∈ t.nodes, ∀ x,
        (n.parent? = some x ∨ (∃ i, n.child? i = some x) ∨ x ∈ n.children ∨
          n.nextSibling? = some x ∨ x ∈ n.descendants) → t.node x.id = .ok x) ∧
      (t.hasErrors = true ↔
        ∃ i r, InSubtree t.records 0 i ∧ t.records[i]? = some r ∧ r.label.isError = true) := by
  refine ⟨?_, t.linked_records, ?_, ?_⟩
  · rw [build_arena, h]
    rfl
  · intro n hn x hx
    exact Tree.node_id (Tree.mem_nodes_of_link hn hx)
  · rw [t.hasErrors_iff]
    constructor
    · rintro ⟨n, hn, herror⟩
      exact ⟨n.id, n.record, Tree.inSubtree_of_mem_preorder t.root_mem_nodes hn,
        Tree.getElem?_records.2 ⟨n, hn, rfl, rfl⟩, herror⟩
    · rintro ⟨i, r, -, hr, herror⟩
      obtain ⟨n, hn, -, rfl⟩ := Tree.getElem?_records.1 hr
      exact ⟨n, hn, herror⟩

/-- A position on the first line of a text, where columns are offsets. -/
def Position.onLine (offset : Nat) : Position :=
  ⟨offset, ⟨0, offset⟩⟩

/-- A script with a leaf told in one step and another one told in two. Its first and last step
find no open node. -/
def unevenScript : List BuildStep :=
  [.finish (.onLine 9), .start "line" true (.onLine 0), .token (.onLine "word" 0 4),
    .start "ERROR" true (.onLine 4), .start "gap" true (.onLine 4), .finish (.onLine 5),
    .finish (.onLine 9), .token (.onLine "end" 9 9), .finish (.onLine 9), .finish (.onLine 9)]

/-- The tree that the script tells. -/
def unevenTree : Tree :=
  ⟨.onLine "line" 0 9,
    .cons (.onLine "word" 0 4) .nil <|
    .cons (.onLine "ERROR" 4 9) (.cons (.onLine "gap" 4 5) .nil .nil) <|
    .cons (.onLine "end" 9 9) .nil .nil⟩

/-- The error node with its child is the block of the ids 2 and 3. -/
theorem build_linked_unevenScript :
    (Builder.empty.run unevenScript).build = .ok unevenTree ∧
    (Arena.empty.run unevenScript).build = .ok unevenTree.records ∧
    Linked unevenTree.records ∧
    (∀ n ∈ unevenTree.nodes, ∀ x,
      (n.parent? = some x ∨ (∃ i, n.child? i = some x) ∨ x ∈ n.children ∨
        n.nextSibling? = some x ∨ x ∈ n.descendants) → unevenTree.node x.id = .ok x) ∧
    (unevenTree.hasErrors = true ↔ ∃ i r, InSubtree unevenTree.records 0 i ∧
      unevenTree.records[i]? = some r ∧ r.label.isError = true) ∧
    unevenTree.records.map (·.parent) = [none, some 0, some 0, some 2, some 0] ∧
    unevenTree.records.map (·.children) = [[1, 2, 4], [], [3], [], []] := by
  have hbuilt : (Builder.empty.run unevenScript).build = .ok unevenTree := rfl
  obtain ⟨harena, hlinked, hlinks, herrors⟩ := Builder.build_linked hbuilt
  exact ⟨hbuilt, harena, hlinked, hlinks, herrors, rfl, rfl⟩

end MoveOutline
