import MoveOutline.Proofs.Syntax.Tour
import MoveOutline.Proofs.Syntax.Traversal
import MoveOutline.Syntax.Listing
/-!
# Moving around in an arena

The record of a node has the ids of its parent and of its children, and not that of its next
sibling. To find the next sibling one goes to the parent, searches the children there for the node
itself, and takes the child behind it. That gives an answer only if the parent lists the node, and
the right one only if it lists the node once. Both hold in the records of a tree, and so parents,
children and siblings agree, in the arena as among nodes.

Going on from link to link ends: siblings end with the last child, and parents with the root, at the
depth that the node has in the listing of the tree.

Results:
* `Record.parent?_records`, `Record.child?_records`, `Record.nextSibling?_records`: each link of the
  arena is the link between nodes.
* `Record.follow_nextSibling?`: the siblings from the first child on are the children.
* `Record.follow_parent?`: the parents from a node on are its ancestors.
* `Tree.depth?_id`: a node has as many ancestors as its row in the listing is deep.
* `Builder.links_agree`: all of it, for built trees.
-/
namespace MoveOutline

namespace Record

/-! ## Links -/

/-- An id that was read in a record. The node must be there. -/
def reach (rs : List Record) : Option Nat → Except UnknownNode (Option Nat)
  | none => .ok none
  | some id => do
    let _ ← fetch rs id
    return some id

/-- The parent of a node, which the root lacks. -/
def parent? (rs : List Record) (id : Nat) : Except UnknownNode (Option Nat) := do
  let r ← fetch rs id
  reach rs r.parent

/-- The child of a node with a given index. -/
def child? (rs : List Record) (id index : Nat) : Except UnknownNode (Option Nat) := do
  let r ← fetch rs id
  reach rs r.children[index]?

/-- The child of the parent that comes behind the node, if the parent lists the node at all. -/
def nextSibling? (rs : List Record) (id : Nat) : Except UnknownNode (Option Nat) := do
  match ← parent? rs id with
  | none => return none
  | some p =>
    let q ← fetch rs p
    match q.children.idxOf? id with
    | none => return none
    | some i => reach rs q.children[i + 1]?

/-- The ids that one comes to by going on with a link, the first id included, if the link ends
within so many questions. -/
def follow (next? : Nat → Except UnknownNode (Option Nat)) :
    Nat → Nat → Except UnknownNode (Option (List Nat))
  | 0, _ => .ok none
  | questions + 1, id => do
    match ← next? id with
    | none => return some [id]
    | some later => return (← follow next? questions later).map (id :: ·)

end Record

/-- The depth of a node in the listing of the tree, which is 0 for the root and grows by one from a
node to its children. -/
def Tree.depth? (t : Tree) (id : Nat) : Option Nat :=
  (((Forest.cons t.label t.below .nil).listing 0)[id]?).map (·.depth)

/-! ## The way to the root -/

namespace Node

theorem length_ancestors (n : Node) : n.ancestors.length = n.above.length := by
  have length_ofLevels (ls : List Level) : (ofLevels ls).length = ls.length := by
    induction ls with
    | nil => rfl
    | cons level above ih => rw [ofLevels, List.length_cons, List.length_cons, ih]
  exact length_ofLevels n.above

variable {t : Tree} {n : Node} (hn : n ∈ t.nodes)
include hn

theorem id_lt_of_mem_ancestors {a : Node} (ha : a ∈ n.ancestors) : a.id < n.id := by
  induction n, hn using Tree.nodes_induction with
  | root => cases ha
  | child q hq ih c hc =>
    have hlt := id_lt_of_mem_children hc
    rw [ancestors_of_mem_children hc] at ha
    rcases List.mem_cons.1 ha with rfl | ha
    · exact hlt
    · exact Nat.lt_trans (ih ha) hlt

/-- The ids fall on the way to the root. -/
theorem pairwise_id_ancestors : (n :: n.ancestors).Pairwise fun x y => y.id < x.id := by
  induction n, hn using Tree.nodes_induction with
  | root => exact List.pairwise_singleton _ _
  | child q hq ih c hc =>
    refine List.pairwise_cons.2 ⟨fun a => ?_, by rwa [ancestors_of_mem_children hc]⟩
    exact id_lt_of_mem_ancestors (Tree.mem_nodes_of_mem_children hq hc)

theorem getLast?_ancestors : (n :: n.ancestors).getLast? = some t.root := by
  induction n, hn using Tree.nodes_induction with
  | root => rfl
  | child q hq ih c hc => rw [ancestors_of_mem_children hc, List.getLast?_cons_cons, ih]

end Node

/-- In pre-order, the nodes of a forest lie as deep as its rows say. -/
theorem Forest.map_depth_listing (f : Forest) (above : List Level) (id : Nat) :
    (f.listing above.length).map (·.depth) = (f.nodes above id).map fun n => n.above.length := by
  induction f generalizing above id with
  | nil => rfl
  | cons label below rest ih ih' =>
    have hbelow := ih (⟨id, label, below, rest⟩ :: above) (id + 1)
    rw [List.length_cons] at hbelow
    rw [listing, nodes, List.map_cons, List.map_append, List.map_cons, List.map_append, hbelow, ih']

/-- A node has as many ancestors as its row in the listing is deep. -/
theorem Tree.depth?_id {t : Tree} {n : Node} (hn : n ∈ t.nodes) :
    t.depth? n.id = some n.ancestors.length := by
  have hall : (Forest.cons t.label t.below .nil).nodes [] 0 = t.nodes := by
    rw [Forest.nodes, Forest.nodes, List.append_nil]
    rfl
  have hdepth := (Forest.cons t.label t.below .nil).map_depth_listing [] 0
  rw [List.length_nil, hall] at hdepth
  rw [depth?, ← List.getElem?_map, hdepth, List.getElem?_map, getElem?_nodes.2 ⟨hn, rfl⟩,
    n.length_ancestors]
  rfl

/-! ## In the records of a tree -/

namespace Record

variable {t : Tree}

theorem reach_records {x? : Option Node} (h : ∀ x ∈ x?, x ∈ t.nodes) :
    reach t.records (x?.map Node.id) = .ok (x?.map Node.id) := by
  cases x? with
  | none => rfl
  | some x =>
    simp only [Option.map_some, reach, fetch_records (h x rfl)]
    rfl

section
variable {n : Node} (hn : n ∈ t.nodes)
include hn

theorem parent?_records : parent? t.records n.id = .ok (n.parent?.map Node.id) := by
  rw [parent?, fetch_records hn]
  exact reach_records fun x hx => Tree.mem_nodes_of_parent? hn hx

theorem child?_records (index : Nat) :
    child? t.records n.id index = .ok ((n.child? index).map Node.id) := by
  rw [child?, fetch_records hn]
  show reach t.records (n.children.map Node.id)[index]? = _
  rw [List.getElem?_map]
  exact reach_records fun x hx => Tree.mem_nodes_of_mem_children hn (List.mem_of_getElem? hx)

end

/-- A node lists each of its children once, so a search finds a child where it is. -/
theorem idxOf?_children {p c : Node} {i : Nat} (hc : p.children[i]? = some c) :
    p.record.children.idxOf? c.id = some i := by
  obtain ⟨hi, rfl⟩ := List.getElem?_eq_some_iff.1 hc
  have hrising := List.pairwise_iff_getElem.1 p.pairwise_id_children
  have hlength : p.record.children.length = p.children.length := List.length_map ..
  rw [List.idxOf?_eq_some_iff]
  refine ⟨by rwa [hlength], List.getElem_map .., fun j hj he => ?_⟩
  have hlt := hrising j i (Nat.lt_trans hj hi) hi hj
  exact Nat.ne_of_lt hlt ((List.getElem_map ..).symm.trans he)

/-- **The search among the children of the parent finds the next sibling.** -/
theorem nextSibling?_records {n : Node} (hn : n ∈ t.nodes) :
    nextSibling? t.records n.id = .ok (n.nextSibling?.map Node.id) := by
  rw [nextSibling?, parent?_records hn]
  rcases Tree.eq_root_or_child hn with rfl | ⟨p, hp, hnp⟩
  · rfl
  · obtain ⟨i, hi⟩ := List.getElem?_of_mem hnp
    have hnext : n.nextSibling? = p.children[i + 1]? := by
      have h := p.nextSibling?_child? i
      rw [Node.child?, hi] at h
      exact h
    rw [Node.parent?_of_mem_children hnp]
    show (fetch t.records p.id >>= _) = _
    rw [fetch_records hp]
    show (match p.record.children.idxOf? n.id with
      | none => Except.ok none
      | some i => reach t.records p.record.children[i + 1]?) = _
    rw [idxOf?_children hi, hnext]
    show reach t.records (p.children.map Node.id)[i + 1]? = _
    rw [List.getElem?_map]
    exact reach_records fun x hx => Tree.mem_nodes_of_mem_children hp (List.mem_of_getElem? hx)

/-! ## From link to link -/

/-- A link that leads from each id in a list to the next, and from the last to none, is followed
through the list. -/
theorem follow_of_links {next? : Nat → Except UnknownNode (Option Nat)} {ids : List Nat}
    (h : ∀ i id, ids[i]? = some id → next? id = .ok ids[i + 1]?) {id : Nat}
    (hid : ids.head? = some id) {questions : Nat} (hq : ids.length ≤ questions) :
    follow next? questions id = .ok (some ids) := by
  induction ids generalizing id questions with
  | nil => cases hid
  | cons first rest ih =>
    obtain rfl : first = id := Option.some.inj hid
    cases questions with
    | zero => cases hq
    | succ questions =>
      have hlink : next? first = .ok rest.head? := by
        rw [h 0 first rfl, List.getElem?_cons_succ, List.head?_eq_getElem?]
      rw [follow, hlink]
      cases hrest : rest.head? with
      | none => rw [List.head?_eq_none_iff.1 hrest]; rfl
      | some later =>
        have hlater := ih (fun i id hi => h (i + 1) id hi) hrest (Nat.le_of_succ_le_succ hq)
        show (follow next? questions later >>= _) = _
        rw [hlater]
        rfl

/-- The siblings from the first child on are the children. -/
theorem follow_nextSibling? {p c : Node} (hp : p ∈ t.nodes) (hc : p.child? 0 = some c)
    {questions : Nat} (hq : p.childCount ≤ questions) :
    follow (nextSibling? t.records) questions c.id = .ok (some (p.children.map Node.id)) := by
  refine follow_of_links (fun i id hi => ?_) ?_ (by rwa [List.length_map, p.length_children])
  · rw [List.getElem?_map, Option.map_eq_some_iff] at hi
    obtain ⟨n, hn, rfl⟩ := hi
    have hnext := p.nextSibling?_child? i
    rw [Node.child?, hn] at hnext
    rw [nextSibling?_records (Tree.mem_nodes_of_mem_children hp (List.mem_of_getElem? hn)),
      List.getElem?_map]
    exact congrArg (fun x? => Except.ok (Option.map Node.id x?)) hnext
  · rw [List.head?_map, List.head?_eq_getElem?]
    exact congrArg (Option.map Node.id) hc

/-- The parents from a node on are its ancestors. -/
theorem follow_parent? {n : Node} (hn : n ∈ t.nodes) {questions : Nat}
    (hq : n.ancestors.length < questions) :
    follow (parent? t.records) questions n.id = .ok (some ((n :: n.ancestors).map Node.id)) := by
  induction n, hn using Tree.nodes_induction generalizing questions with
  | root =>
    obtain ⟨questions, rfl⟩ := Nat.exists_eq_add_of_lt hq
    rw [follow, parent?_records t.root_mem_nodes]
    rfl
  | child p hp ih c hc =>
    have hmem := Tree.mem_nodes_of_mem_children hp hc
    rw [Node.ancestors_of_mem_children hc] at hq ⊢
    cases questions with
    | zero => cases hq
    | succ questions =>
      rw [follow, parent?_records hmem, Node.parent?_of_mem_children hc]
      show (follow (parent? t.records) questions p.id >>= _) = _
      rw [ih (Nat.lt_of_succ_lt_succ hq)]
      rfl

end Record

/-- **Parents, children and siblings agree.** Let some steps build a tree. From any node, the links in
the arena that the steps write lead where the links between nodes lead. A child has the node for its
parent and the child behind it for its next sibling, and the last child has none; the root has
neither. So the siblings from the first child on are the children, in order and to the end. And the
parents from any node on end at the root, after as many steps as the node is deep, with ids that
fall. -/
theorem Builder.links_agree {steps : List BuildStep} {t : Tree}
    (h : (Builder.empty.run steps).build = .ok t) :
    (Arena.empty.run steps).build = .ok t.records ∧
    (∀ n ∈ t.nodes,
      Record.parent? t.records n.id = .ok (n.parent?.map Node.id) ∧
      Record.nextSibling? t.records n.id = .ok (n.nextSibling?.map Node.id) ∧
      ∀ i, Record.child? t.records n.id i = .ok ((n.child? i).map Node.id)) ∧
    (∀ p ∈ t.nodes, ∀ i < p.childCount, ∃ c, p.child? i = some c ∧ c.parent? = some p ∧
      c.nextSibling? = p.child? (i + 1) ∧ (c.nextSibling? = none ↔ i + 1 = p.childCount)) ∧
    t.root.parent? = none ∧ t.root.nextSibling? = none ∧
    (∀ p ∈ t.nodes, ∀ c, p.child? 0 = some c → ∀ questions, p.childCount ≤ questions →
      Record.follow (Record.nextSibling? t.records) questions c.id =
        .ok (some (p.children.map Node.id))) ∧
    ∀ n ∈ t.nodes, ∃ way : List Node,
      (∀ questions, way.length ≤ questions →
        Record.follow (Record.parent? t.records) questions n.id =
          .ok (some (way.map Node.id))) ∧
      way.getLast? = some t.root ∧ t.depth? n.id = some (way.length - 1) ∧
      way.Pairwise fun x y => y.id < x.id := by
  refine ⟨?_, fun n hn => ?_, fun p hp i hi => ?_, rfl, rfl, fun p hp c hc questions hq => ?_,
    fun n hn => ?_⟩
  · rw [build_arena, h]
    rfl
  · exact ⟨Record.parent?_records hn, Record.nextSibling?_records hn, Record.child?_records hn⟩
  · rw [← p.length_children] at hi ⊢
    have hc : p.child? i = some p.children[i] := List.getElem?_eq_getElem hi
    have hnext : p.children[i].nextSibling? = p.child? (i + 1) := by
      have := p.nextSibling?_child? i
      rwa [hc] at this
    refine ⟨_, hc, Node.parent?_of_mem_children (List.getElem_mem hi), hnext, ?_⟩
    rw [hnext, Node.child?, List.getElem?_eq_none_iff]
    omega
  · exact Record.follow_nextSibling? hp hc hq
  · exact ⟨n :: n.ancestors, fun questions hq => Record.follow_parent? hn hq,
      Node.getLast?_ancestors hn, Tree.depth?_id hn, Node.pairwise_id_ancestors hn⟩

/-- From the first node in the block through its siblings, and from the last of them up. -/
theorem links_agree_staleTree : ∃ p ∈ staleTree.nodes, ∃ c n : Node,
    (Builder.empty.run (staleTree.script fun _ => true)).build = .ok staleTree ∧
    p.child? 0 = some c ∧ c.parent? = some p ∧ c.nextSibling? = p.child? 1 ∧
    (∀ questions, p.childCount ≤ questions →
      Record.follow (Record.nextSibling? staleTree.records) questions c.id =
        .ok (some (p.children.map Node.id))) ∧
    p.children.map Node.id = [4, 5, 6, 7] ∧
    n ∈ staleTree.nodes ∧ n.id = 7 ∧ staleTree.depth? n.id = some 2 ∧
    (∃ way : List Node, (∀ questions, way.length ≤ questions →
        Record.follow (Record.parent? staleTree.records) questions n.id =
          .ok (some (way.map Node.id))) ∧
      way.getLast? = some staleTree.root ∧ staleTree.depth? n.id = some (way.length - 1) ∧
      way.Pairwise fun x y => y.id < x.id) ∧
    Record.follow (Record.parent? staleTree.records) 3 7 = .ok (some [7, 3, 0]) := by
  have hbuilt := Builder.build_tree_script (fun _ => true) staleTree
  obtain ⟨-, -, hchildren, -, -, hsiblings, hways⟩ := Builder.links_agree hbuilt
  let p := staleTree.root.children.getLast (by decide)
  have hp : p ∈ staleTree.nodes :=
    Tree.mem_nodes_of_mem_children staleTree.root_mem_nodes (List.getLast_mem _)
  have hn : p.children.getLast (by decide) ∈ staleTree.nodes :=
    Tree.mem_nodes_of_mem_children hp (List.getLast_mem _)
  obtain ⟨c, hc, hparent, hnext, -⟩ := hchildren p hp 0 (by decide)
  exact ⟨p, hp, c, _, hbuilt, hc, hparent, hnext, hsiblings p hp c hc, by decide +kernel, hn,
    by decide +kernel, by decide +kernel, hways _ hn, by decide +kernel⟩

end MoveOutline
