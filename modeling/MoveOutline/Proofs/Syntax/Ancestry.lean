import Mathlib.Data.List.Nodup
import MoveOutline.Syntax.Node
/-!
# Ancestors and subtrees

A node carries the levels of its path to the root, so its ancestors are read off that path, and
the nodes below it are listed by recursion on the forest below it. The two views are tied
together here: inside one tree, `x` is listed at or below `n` exactly when `n` is `x` or an
ancestor of `x`.

Results:
* `Tree.nodes_induction`: what holds of the root and passes from a node to its children holds of
  every node.
* `Tree.mem_preorder_iff`: subtree membership and ancestry are the same relation.
* `Tree.node_ext`: a tree has no two nodes with one id.
-/
namespace MoveOutline

namespace Node

/-- The nodes at the levels of a path, each with the rest of the path above it. -/
def ofLevels : List Level → List Node
  | [] => []
  | level :: above => ⟨level, above⟩ :: ofLevels above

/-- The proper ancestors, from the parent up to the root. -/
def ancestors (n : Node) : List Node :=
  ofLevels n.above

/-- Whether the node is the root of its tree. -/
def isRoot (n : Node) : Bool :=
  n.above.isEmpty

theorem self_mem_preorder (n : Node) : n ∈ n.preorder := by
  rw [preorder_eq]; exact List.mem_cons_self

/-- The trees that hang at the children. -/
theorem map_tree_children (n : Node) : n.children.map tree = n.here.below.trees := by
  have levels (f : Forest) (id : Nat) :
      (f.levels id).map (fun level => (⟨level.label, level.below⟩ : Tree)) = f.trees := by
    induction f generalizing id with
    | nil => rfl
    | cons l below rest _ ih => simp [Forest.levels, Forest.trees, ih]
  rw [children, List.map_map]
  exact levels _ _

/-! ## Ancestors -/

/-- Ancestors are what repeated `parent?` finds. -/
theorem ancestors_of_parent? {n q : Node} (h : n.parent? = some q) :
    n.ancestors = q :: q.ancestors := by
  unfold parent? at h
  split at h
  · cases h
  · next level above ha =>
    cases h
    unfold ancestors; rw [ha]; rfl

theorem parent?_eq_none_iff (n : Node) : n.parent? = none ↔ n.isRoot = true := by
  unfold parent? isRoot
  split <;> simp [*]

theorem ancestors_of_mem_children {n c : Node} (h : c ∈ n.children) :
    c.ancestors = n :: n.ancestors :=
  ancestors_of_parent? (parent?_of_mem_children h)

theorem mem_ancestors_of_mem_children {n c : Node} (h : c ∈ n.children) : n ∈ c.ancestors := by
  rw [ancestors_of_mem_children h]; exact List.mem_cons_self

/-- Above an ancestor of a path stand the ancestors of that ancestor. -/
theorem ofLevels_split : ∀ {ls : List Level} {a : Node}, a ∈ ofLevels ls →
    ∃ before, ofLevels ls = before ++ a :: a.ancestors
  | level :: above, a, h => by
    rcases List.mem_cons.1 h with rfl | h
    · exact ⟨[], rfl⟩
    · obtain ⟨before, hb⟩ := ofLevels_split h
      exact ⟨⟨level, above⟩ :: before, by rw [ofLevels, hb]; rfl⟩

/-- The path to the root is shorter from an ancestor. -/
theorem length_above_lt : ∀ {ls : List Level} {a : Node}, a ∈ ofLevels ls →
    a.above.length < ls.length
  | level :: above, a, h => by
    rcases List.mem_cons.1 h with rfl | h
    · exact Nat.lt_succ_self _
    · exact Nat.lt_succ_of_lt (length_above_lt h)

theorem not_mem_ancestors_self (n : Node) : n ∉ n.ancestors :=
  fun h => Nat.lt_irrefl _ (length_above_lt h)

theorem mem_ancestors_trans {a b c : Node} (hab : a ∈ b.ancestors) (hbc : b ∈ c.ancestors) :
    a ∈ c.ancestors := by
  obtain ⟨before, hb⟩ := ofLevels_split hbc
  unfold ancestors at hab ⊢
  rw [hb]
  exact List.mem_append_right _ (List.mem_cons_of_mem _ hab)

/-! ## Subtrees -/

theorem mem_below_iff {n x : Node} : x ∈ n.below ↔ ∃ c ∈ n.children, x ∈ c.preorder := by
  rw [below_eq, List.mem_flatMap]

theorem mem_preorder_iff_eq_or {n x : Node} :
    x ∈ n.preorder ↔ x = n ∨ ∃ c ∈ n.children, x ∈ c.preorder := by
  rw [preorder_eq, List.mem_cons, mem_below_iff]

/-- Induction from the leaves up: children are smaller than their parent. -/
theorem children_induction {motive : Node → Prop}
    (step : ∀ n, (∀ c ∈ n.children, motive c) → motive n) (n : Node) : motive n :=
  step n fun c _ => children_induction step c
termination_by n.size
decreasing_by exact size_lt_of_mem_children ‹_›

theorem mem_preorder_trans {n x y : Node} (hx : x ∈ n.preorder) (hy : y ∈ x.preorder) :
    y ∈ n.preorder := by
  induction n using children_induction with
  | step n ih =>
    rcases mem_preorder_iff_eq_or.1 hx with rfl | ⟨c, hc, hxc⟩
    · exact hy
    · exact mem_preorder_iff_eq_or.2 (.inr ⟨c, hc, ih c hc hxc⟩)

theorem mem_preorder_of_mem_children {n c : Node} (h : c ∈ n.children) : c ∈ n.preorder :=
  mem_preorder_iff_eq_or.2 (.inr ⟨c, h, c.self_mem_preorder⟩)

theorem mem_ancestors_of_mem_below {n x : Node} (h : x ∈ n.below) : n ∈ x.ancestors := by
  induction n using children_induction with
  | step n ih =>
    obtain ⟨c, hc, hx⟩ := mem_below_iff.1 h
    have hnc := mem_ancestors_of_mem_children hc
    rw [preorder_eq] at hx
    rcases List.mem_cons.1 hx with rfl | hx
    · exact hnc
    · exact mem_ancestors_trans hnc (ih c hc hx)

theorem isRoot_of_mem_below {n x : Node} (h : x ∈ n.below) : x.isRoot = false := by
  have ha := mem_ancestors_of_mem_below h
  unfold isRoot
  cases hx : x.above with
  | nil => rw [ancestors, hx] at ha; cases ha
  | cons level above => rfl

/-- A forest lists its first node, what is below that, and the rest. -/
theorem nodes_cons (n : Node) :
    (Forest.cons n.label n.here.below n.here.after).nodes n.above n.id =
      n :: (n.below ++ n.here.after.nodes n.above (n.id + n.size)) := by
  rw [Forest.nodes, n.size_eq, ← Nat.add_assoc]
  rfl

theorem map_tree_nodes (f : Forest) (above : List Level) (id : Nat) :
    (f.nodes above id).map tree = f.preorder := by
  induction f generalizing above id with
  | nil => rfl
  | cons label below rest ih ih' =>
    rw [Forest.nodes, Forest.preorder, List.map_cons, List.map_append, ih, ih']
    rfl

/-- The ids below a node follow on its own. -/
theorem map_id_below (n : Node) :
    n.below.map Node.id = List.range' (n.id + 1) n.below.length := by
  rw [length_below]; exact Forest.map_id_nodes ..

theorem le_id_of_mem_nodes {f : Forest} {above : List Level} {id : Nat} {x : Node}
    (h : x ∈ f.nodes above id) : id ≤ x.id := by
  have hmem : x.id ∈ List.range' id f.size := by
    rw [← Forest.map_id_nodes f above id]; exact List.mem_map_of_mem h
  exact (List.mem_range'_1.1 hmem).1

/-- In a forest's pre-order the ids grow from node to node. -/
theorem pairwise_id_nodes (f : Forest) (above : List Level) (id : Nat) :
    (f.nodes above id).Pairwise fun m n => m.id < n.id := by
  rw [← List.pairwise_map (f := Node.id) (R := fun i j => i < j), Forest.map_id_nodes]
  exact List.pairwise_lt_range'

theorem pairwise_id_below (n : Node) : n.below.Pairwise fun x y => x.id < y.id :=
  pairwise_id_nodes ..

end Node

/-! ## Inside one tree -/

namespace Tree

theorem root_mem_nodes (t : Tree) : t.root ∈ t.nodes :=
  Node.self_mem_preorder _

theorem nodes_eq (t : Tree) : t.nodes = t.root :: t.root.below := rfl

theorem mem_nodes_of_mem_preorder {t : Tree} {n x : Node} (hn : n ∈ t.nodes)
    (hx : x ∈ n.preorder) : x ∈ t.nodes :=
  Node.mem_preorder_trans hn hx

theorem mem_nodes_of_mem_children {t : Tree} {n c : Node} (hn : n ∈ t.nodes)
    (hc : c ∈ n.children) : c ∈ t.nodes :=
  mem_nodes_of_mem_preorder hn (Node.mem_preorder_of_mem_children hc)

/-- Induction from the root down. -/
theorem nodes_induction {t : Tree} {motive : (n : Node) → n ∈ t.nodes → Prop}
    (root : motive t.root t.root_mem_nodes)
    (child : ∀ (q : Node) (hq : q ∈ t.nodes), motive q hq → ∀ (c : Node) (hc : c ∈ q.children),
      motive c (mem_nodes_of_mem_children hq hc))
    (n : Node) (hn : n ∈ t.nodes) : motive n hn := by
  have down : ∀ (q : Node) (hq : q ∈ t.nodes), motive q hq →
      ∀ (x : Node) (hx : x ∈ q.preorder), motive x (mem_nodes_of_mem_preorder hq hx) := by
    intro q
    induction q using Node.children_induction with
    | step q ih =>
      intro hq hm x hx
      rcases Node.mem_preorder_iff_eq_or.1 hx with rfl | ⟨c, hc, hxc⟩
      · exact hm
      · exact ih c hc (mem_nodes_of_mem_children hq hc) (child q hq hm c hc) x hxc
  exact down t.root t.root_mem_nodes root n hn

theorem eq_root_or_child {t : Tree} {n : Node} (hn : n ∈ t.nodes) :
    n = t.root ∨ ∃ q ∈ t.nodes, n ∈ q.children := by
  induction n, hn using nodes_induction with
  | root => exact .inl rfl
  | child q hq _ c hc => exact .inr ⟨q, hq, hc⟩

/-- The root is the one node without a parent. -/
theorem isRoot_iff {t : Tree} {n : Node} (hn : n ∈ t.nodes) : n.isRoot = true ↔ n = t.root := by
  rcases eq_root_or_child hn with rfl | ⟨q, -, hc⟩
  · simp [Node.isRoot, root]
  · have hp := Node.parent?_of_mem_children hc
    constructor
    · intro h
      rw [← Node.parent?_eq_none_iff, hp] at h
      cases h
    · rintro rfl
      cases hp

theorem mem_preorder_of_mem_ancestors {t : Tree} {x a : Node} (hx : x ∈ t.nodes)
    (ha : a ∈ x.ancestors) : x ∈ a.preorder := by
  induction x, hx using nodes_induction with
  | root => cases ha
  | child q hq ih c hc =>
    rw [Node.ancestors_of_mem_children hc] at ha
    rcases List.mem_cons.1 ha with rfl | ha
    · exact Node.mem_preorder_of_mem_children hc
    · exact Node.mem_preorder_trans (ih ha) (Node.mem_preorder_of_mem_children hc)

/-- Being listed in a node's subtree is having that node at or above oneself. -/
theorem mem_preorder_iff {t : Tree} {n x : Node} (hx : x ∈ t.nodes) :
    x ∈ n.preorder ↔ x = n ∨ n ∈ x.ancestors := by
  constructor
  · intro h
    rw [Node.preorder_eq] at h
    rcases List.mem_cons.1 h with rfl | h
    · exact .inl rfl
    · exact .inr (Node.mem_ancestors_of_mem_below h)
  · rintro (rfl | h)
    · exact x.self_mem_preorder
    · exact mem_preorder_of_mem_ancestors hx h

theorem pairwise_id_nodes (t : Tree) : t.nodes.Pairwise fun m n => m.id < n.id := by
  rw [← List.pairwise_map (f := Node.id) (R := fun i j => i < j), map_id_nodes]
  exact List.pairwise_lt_range

theorem id_lt_size {t : Tree} {n : Node} (hn : n ∈ t.nodes) : n.id < t.size := by
  have h : n.id ∈ t.nodes.map Node.id := List.mem_map_of_mem hn
  rw [map_id_nodes] at h
  exact List.mem_range.1 h

theorem node_ext {t : Tree} {m n : Node} (hm : m ∈ t.nodes) (hn : n ∈ t.nodes)
    (h : m.id = n.id) : m = n := by
  have hnodup : (t.nodes.map Node.id).Nodup := by
    rw [map_id_nodes]; exact List.nodup_range
  exact List.inj_on_of_nodup_map hnodup hm hn h

end Tree

/-- The label of a node on the first line of its text, where columns are offsets. -/
def Label.onLine (kind : String) (start stop : Nat) : Label :=
  ⟨kind, true, ⟨start, ⟨0, start⟩⟩, ⟨stop, ⟨0, stop⟩⟩⟩

end MoveOutline
