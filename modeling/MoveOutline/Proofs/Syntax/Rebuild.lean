import MoveOutline.Proofs.Syntax.Links
/-!
# Trees told to a builder

Every ordered tree can be told to a builder, with any of its leaves in one step instead of two,
and comes out as it was. The other way round, a built tree can be read off by going from its root
to children again and again, through the nodes (`Node.unfolded`) or through the ids in its records
(`Tree.ReadFrom`). What is read off determines the tree and its records, and builds them again.

Results:
* `Builder.run_script`: telling a forest adds its trees to what is finished in the innermost open
  node.
* `Node.unfolded_eq`: what is read off at a node is the tree that hangs there.
* `Tree.readFrom_records_iff`: the records of a tree can be read as that tree and no other.
* `Tree.ofRecords?_records`: they are read as that tree.
* `Builder.build_script`: building and reading off undo each other.
-/
namespace MoveOutline

/-- The steps that tell a tree. The leaves that `asToken` picks are told as tokens. -/
def Tree.script (asToken : Nat → Bool) (t : Tree) : List BuildStep :=
  (Forest.cons t.label t.below .nil).script asToken 0

/-! ## Telling a tree -/

namespace Builder

/-- Finished trees go into the innermost open node, and nothing else changes. -/
theorem foldl_push_cons (ts : List Tree) (count : Nat) (f : Frame) (outer : List Frame)
    (roots : List Tree) :
    ts.foldl push ⟨count, f :: outer, roots⟩ =
      ⟨count, { f with finished := ts.reverse ++ f.finished } :: outer, roots⟩ := by
  induction ts generalizing f with
  | nil => rfl
  | cons t ts ih =>
    rw [List.foldl_cons, push, ih]
    simp

theorem push_count (b : Builder) (count : Nat) (t : Tree) :
    push { b with count } t = { b.push t with count } := by
  unfold push
  cases b.frames <;> rfl

theorem foldl_push_count (ts : List Tree) (b : Builder) (count : Nat) :
    ts.foldl push { b with count } = { ts.foldl push b with count } := by
  induction ts generalizing b with
  | nil => rfl
  | cons t ts ih => rw [List.foldl_cons, List.foldl_cons, push_count, ih]

/-- Telling a forest adds its trees to what is finished in the innermost open node. -/
theorem run_script (asToken : Nat → Bool) (f : Forest) (id : Nat) (b : Builder) :
    b.run (f.script asToken id) =
      { f.trees.foldl push b with count := b.count + f.size } := by
  induction f generalizing id b with
  | nil => rfl
  | cons label below rest ih ih' =>
    rw [Forest.script, run_append, ih']
    have hfirst : b.run (if below = .nil ∧ asToken id then [BuildStep.token label]
        else .start label.kind label.named label.start ::
          (below.script asToken (id + 1) ++ [.finish label.stop])) =
        { b.push ⟨label, below⟩ with count := b.count + 1 + below.size } := by
      split
      · next h =>
        rw [h.1]
        rfl
      · -- the node is opened, its children are told, and it is closed with these in it
        rw [run_cons, run_append, ih]
        simp only [perform, start]
        rw [foldl_push_cons]
        simp [perform, finish, Frame.close, push_count]
    rw [hfirst, foldl_push_count, Forest.trees, List.foldl_cons]
    simp only [Forest.size_cons, Nat.add_assoc]

theorem build_tree_script (asToken : Nat → Bool) (t : Tree) :
    (empty.run (t.script asToken)).build = .ok t := by
  rw [Tree.script, run_script]
  rfl

end Builder

/-! ## Reading a tree off -/

/-- The tree that is found by going from a node to its children, to theirs and so on. -/
def Node.unfolded (n : Node) : Tree :=
  ⟨n.label, Forest.ofTrees (n.children.attach.map fun c => c.1.unfolded)⟩
termination_by n.size
decreasing_by exact size_lt_of_mem_children c.2

theorem Node.unfolded_eq (n : Node) : n.unfolded = n.tree := by
  induction n using children_induction with
  | step n ih =>
    have hchildren : n.children.map unfolded = n.children.map tree := List.map_congr_left ih
    rw [unfolded, List.attach_map_val, hchildren, map_tree_children, Forest.ofTrees_trees]
    rfl

/-- A forest can be read off records by starting at the given ids and going on to children. -/
def Forest.ReadFrom (rs : List Record) : List Nat → Forest → Prop
  | [], .nil => True
  | id :: ids, .cons label below rest =>
    ∃ r, rs[id]? = some r ∧ r.label = label ∧ below.ReadFrom rs r.children ∧ rest.ReadFrom rs ids
  | _, _ => False

/-- A tree can be read off records by starting at node 0. -/
def Tree.ReadFrom (rs : List Record) (t : Tree) : Prop :=
  (Forest.cons t.label t.below .nil).ReadFrom rs [0]

/-- Records can be read in one way only. -/
theorem Forest.ReadFrom.unique {rs : List Record} {ids : List Nat} {f g : Forest}
    (hf : f.ReadFrom rs ids) (hg : g.ReadFrom rs ids) : f = g := by
  induction f generalizing ids g with
  | nil =>
    cases ids with
    | nil =>
      cases g with
      | nil => rfl
      | cons => exact hg.elim
    | cons => exact hf.elim
  | cons label below rest ih ih' =>
    cases ids with
    | nil => exact hf.elim
    | cons id ids =>
      cases g with
      | nil => exact hg.elim
      | cons label' below' rest' =>
        obtain ⟨r, hr, rfl, hbelow, hrest⟩ := hf
        obtain ⟨r', hr', rfl, hbelow', hrest'⟩ := hg
        rw [hr, Option.some.injEq] at hr'
        subst hr'
        rw [ih hbelow hbelow', ih' hrest hrest']

/-- What can be read off is read off, if enough nodes in a row may be read. -/
theorem Forest.ReadFrom.ofRecords?_eq {rs : List Record} {ids : List Nat} {f : Forest}
    (h : f.ReadFrom rs ids) {inRow : Nat} (hsize : f.size ≤ inRow) :
    ofRecords? rs inRow ids = some f := by
  induction f generalizing ids inRow with
  | nil =>
    cases ids with
    | nil => rw [ofRecords?]
    | cons => exact h.elim
  | cons label below rest ih ih' =>
    cases ids with
    | nil => exact h.elim
    | cons id ids =>
      obtain ⟨r, hr, rfl, hbelow, hrest⟩ := h
      rw [size_cons] at hsize
      obtain ⟨k, rfl⟩ : ∃ k, inRow = k + 1 := ⟨inRow - 1, by omega⟩
      have hbelow' := ih hbelow (show below.size ≤ k by omega)
      have hrest' := ih' hrest (show rest.size ≤ k by omega)
      simp [ofRecords?, hr, hbelow', hrest']

/-- A forest is read from the records of its nodes, if these stand at their ids. -/
theorem Forest.readFrom_of_nodes {rs : List Record} {f : Forest} {above : List Level} {id : Nat}
    (h : ∀ n ∈ f.nodes above id, rs[n.id]? = some n.record) :
    f.ReadFrom rs (f.rootIds id) := by
  induction f generalizing above id with
  | nil => trivial
  | cons label below rest ih ih' =>
    let n : Node := ⟨⟨id, label, below, rest⟩, above⟩
    have hn : rs[id]? = some n.record := h n List.mem_cons_self
    have hchildren : n.record.children = below.rootIds (id + 1) := List.map_map ..
    refine ⟨n.record, hn, rfl, ?_, ?_⟩
    · rw [hchildren]
      exact ih fun m hm => h m (List.mem_cons_of_mem _ (List.mem_append_left _ hm))
    · exact ih' fun m hm => h m (List.mem_cons_of_mem _ (List.mem_append_right _ hm))

namespace Tree

theorem nodes_eq_nodes_cons (t : Tree) :
    t.nodes = (Forest.cons t.label t.below .nil).nodes [] 0 := by
  simp [Forest.nodes, nodes, root, Node.preorder, Node.path, Node.id]

theorem readFrom_records (t : Tree) : t.ReadFrom t.records := by
  have hread : ∀ n ∈ (Forest.cons t.label t.below .nil).nodes [] 0,
      t.records[n.id]? = some n.record := by
    rw [← nodes_eq_nodes_cons]
    intro n hn
    exact getElem?_records.2 ⟨n, hn, rfl, rfl⟩
  exact Forest.readFrom_of_nodes hread

/-- From the records of a tree, the tree is read off. -/
theorem ofRecords?_records (t : Tree) : ofRecords? t.records = some t := by
  obtain ⟨r, hr, hlabel, hbelow, -⟩ := t.readFrom_records
  have hsize : t.below.size ≤ t.records.length := by
    rw [length_records, size]
    omega
  simp [ofRecords?, hr, hbelow.ofRecords?_eq hsize, hlabel]

theorem readFrom_records_iff (t u : Tree) : u.ReadFrom t.records ↔ u = t := by
  constructor
  · intro h
    have heq := Forest.ReadFrom.unique h t.readFrom_records
    obtain ⟨ulabel, ubelow⟩ := u
    obtain ⟨tlabel, tbelow⟩ := t
    cases heq
    rfl
  · rintro rfl
    exact u.readFrom_records

/-- Trees with the same records are the same. -/
theorem records_inj {t u : Tree} : t.records = u.records ↔ t = u := by
  constructor
  · intro h
    rw [← readFrom_records_iff u t, ← h]
    exact t.readFrom_records
  · rintro rfl
    rfl

end Tree

/-! ## Building and reading off -/

/-- **Ordered trees and built trees are the same.** Telling a tree, with any of its leaves as
tokens, builds one and the same tree. The tree told is what is read off that one, through its
nodes and through its records, and the node with id `i` is where its subtree stands that is number
`i` in pre-order. An arena that is written by the same steps holds the records of the built tree.
Whatever tree some steps have built, telling what is read off it builds it again, and what is read
off two of them is the same exactly if the trees are and exactly if their records are. -/
theorem Builder.build_script :
    (∀ T : Tree, ∃ t : Tree,
      (∀ asToken, (empty.run (T.script asToken)).build = .ok t) ∧
        t.root.unfolded = T ∧ T.ReadFrom t.records ∧
        t.nodes.map Node.id = List.range T.size ∧ t.nodes.map Node.unfolded = T.subtrees) ∧
    (∀ steps, (Arena.empty.run steps).build = ((empty.run steps).build).map Tree.records) ∧
    (∀ steps t, (empty.run steps).build = .ok t →
      ∀ asToken, (empty.run (t.root.unfolded.script asToken)).build = .ok t) ∧
    ∀ steps steps' t t', (empty.run steps).build = .ok t → (empty.run steps').build = .ok t' →
      (t.root.unfolded = t'.root.unfolded ↔ t = t') ∧
        (t.root.unfolded = t'.root.unfolded ↔ t.records = t'.records) := by
  have hroot (t : Tree) : t.root.unfolded = t := t.root.unfolded_eq
  refine ⟨?_, build_arena, ?_, ?_⟩
  · intro T
    refine ⟨T, fun asToken => build_tree_script asToken T, hroot T, T.readFrom_records,
      T.map_id_nodes, ?_⟩
    rw [← T.map_tree_nodes]
    exact List.map_congr_left fun n _ => n.unfolded_eq
  · intro steps t _ asToken
    rw [hroot]
    exact build_tree_script asToken t
  · intro steps steps' t t' _ _
    rw [hroot, hroot, Tree.records_inj]
    exact ⟨Iff.rfl, Iff.rfl⟩

/-- The leaves of a tree told all in one step and all in two, beside a script that fails twice on
its way. -/
theorem build_script_unevenScript :
    (Builder.empty.run unevenScript).build = .ok unevenTree ∧
    (Builder.empty.run (unevenTree.root.unfolded.script fun _ => true)).build = .ok unevenTree ∧
    (Builder.empty.run (unevenTree.root.unfolded.script fun _ => false)).build = .ok unevenTree ∧
    (unevenTree.script fun _ => true).length = 7 ∧
    (unevenTree.script fun _ => false).length = 10 := by
  have hagain := Builder.build_script.2.2.1 unevenScript unevenTree rfl
  exact ⟨rfl, hagain _, hagain _, rfl, rfl⟩

end MoveOutline
