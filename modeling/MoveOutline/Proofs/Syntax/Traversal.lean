import MoveOutline.Proofs.Syntax.Lookup
import MoveOutline.Proofs.Syntax.Rebuild
/-!
# Loops over an arena

Two loops go through an arena from record to record by the ids that they read there. The look-up
of a point goes from a record to one of its children, as long as there is one to go to. The iterator
over a subtree keeps a stack of ids; it takes the last one off and puts the children of that node
on the stack, in reverse, so that the first child comes next. Nothing in such a loop bounds it: with
other ids in the records it could go round in circles or meet an id without a record.

Both are written down here with a bound on their rounds, and a loop that is still under way at the
bound has no answer. In the records of a tree they come to their end, since ids grow from parent to
child, and the end is that of the look-up and of the walk by nodes. What the ranges say plays no
part in that: they may be reversed, overlap or lie outside their parents.

Results:
* `Record.scan_children`: one round of the look-up is one step down.
* `Record.lookUp_records`: the look-up ends within as many rounds as there are nodes.
* `Record.next?_stack`: one call of the iterator is one step of the walk.
* `Record.drain_stack`: the iterator ends, with what the walk meets.
* `Builder.lookUp_sound`: what holds of the node at a point, whatever the ranges.
* `Builder.descendants_preorder`: the iterator meets a subtree in pre-order.
-/
namespace MoveOutline

namespace Record

/-- The record with a given id, which the caller takes to be there. -/
def fetch (rs : List Record) (id : Nat) : Except UnknownNode Record :=
  match rs[id]? with
  | some r => .ok r
  | none => .error ⟨id⟩

/-! ## Looking up a point -/

/-- Where the look-up goes when no child is around the point: to the one that ends there, if it is
not empty. -/
def settle (touching : Option (Nat × Record)) : Option Nat :=
  (touching.filter fun c => c.2.label.start.point < c.2.label.stop.point).map (·.1)

/-- The child that the look-up goes to. The children are read in order, and `touching` is the first
so far that ends at the point. -/
def scan (rs : List Record) (p : Point) :
    Option (Nat × Record) → List Nat → Except UnknownNode (Option Nat)
  | touching, [] => .ok (settle touching)
  | touching, id :: ids => do
    let c ← fetch rs id
    if p < c.label.start.point then return settle touching
    else if p < c.label.stop.point then return some id
    else scan rs p (touching.or (if p = c.label.stop.point then some (id, c) else none)) ids

/-- The id at which the look-up ends, if it does within so many rounds. -/
def lookUp (rs : List Record) (p : Point) : Nat → Nat → Except UnknownNode (Option Nat)
  | 0, _ => .ok none
  | rounds + 1, id => do
    let r ← fetch rs id
    match ← scan rs p none r.children with
    | none => return some id
    | some c => lookUp rs p rounds c

/-! ## Iterating over a subtree -/

/-- The next id, and the stack after it. The top of the stack is its last entry. -/
def next? (rs : List Record) (stack : List Nat) :
    Except UnknownNode (Option (Nat × List Nat)) :=
  match stack.getLast? with
  | none => .ok none
  | some id => do
    let r ← fetch rs id
    return some (id, stack.dropLast ++ r.children.reverse)

/-- All ids that the iterator yields, if it is at its end within so many calls. -/
def drain (rs : List Record) : Nat → List Nat → Except UnknownNode (Option (List Nat))
  | 0, _ => .ok none
  | calls + 1, stack => do
    match ← next? rs stack with
    | none => return some []
    | some (id, stack) => return (← drain rs calls stack).map (id :: ·)

end Record

namespace Node

/-! ## The way down -/

/-- The child in a list through which the search for a point goes on, when `touching` is the first
before them that ends at the point. -/
def towardAmong? (p : Point) (touching : Option Node) (cs : List Node) : Option Node :=
  let reached := cs.takeWhile fun c => c.start ≤ p
  (reached.find? fun c => p < c.stop).or <|
    (touching.or (reached.find? fun c => p = c.stop)).filter fun c => c.start < c.stop

theorem toward?_eq (n : Node) (p : Point) : n.toward? p = towardAmong? p none n.children := by
  unfold toward? towardAmong? reached
  dsimp only
  cases (n.children.takeWhile fun c => c.start ≤ p).find? fun c => p < c.stop <;> rfl

section
variable {p : Point} {c : Node} (touching : Option Node) (cs : List Node)

theorem towardAmong?_nil :
    towardAmong? p touching [] = touching.filter fun c => c.start < c.stop := by
  simp [towardAmong?]

/-- A child that starts behind the point ends the search among the children. -/
theorem towardAmong?_of_behind (h : p < c.start) :
    towardAmong? p touching (c :: cs) = touching.filter fun c => c.start < c.stop := by
  have hnot : ¬ c.start ≤ p := Point.not_le.2 h
  simp [towardAmong?, hnot]

theorem towardAmong?_of_covers (h : c.Covers p) :
    towardAmong? p touching (c :: cs) = some c := by
  simp [towardAmong?, h.1, h.2]

/-- A child that does not end behind the point can only be the first that ends at it. -/
theorem towardAmong?_of_past (hs : c.start ≤ p) (he : ¬ p < c.stop) :
    towardAmong? p touching (c :: cs) =
      towardAmong? p (touching.or (if p = c.stop then some c else none)) cs := by
  unfold towardAmong?
  rw [List.takeWhile_cons_of_pos (by simpa using hs)]
  simp only [List.find?_cons_of_neg (p := fun c : Node => decide (p < c.stop)) (by simpa using he),
    List.find?_cons, Option.or_assoc]
  by_cases hat : p = c.stop <;> simp [hat]

end

/-- Everything on the way down, behind the node where it starts, touches the point. -/
theorem touches_of_mem_path_descendTo (n : Node) (p : Point) :
    ∀ x, x = n.descendTo p ∨ x ∈ (n.descendTo p).ancestors →
      x = n ∨ x ∈ n.ancestors ∨ x.Touches p := by
  induction n using descent_induction (p := p) with
  | stay n h =>
    rw [descendTo_of_none h]
    exact fun x hx => hx.imp_right .inl
  | enter n c h ih =>
    rw [descendTo_of_some h]
    intro x hx
    rcases ih x hx with rfl | ha | ht
    · exact .inr (.inr (touches_of_toward? h))
    · rw [ancestors_of_mem_children (mem_children_of_toward? h)] at ha
      rcases List.mem_cons.1 ha with rfl | ha
      · exact .inl rfl
      · exact .inr (.inl ha)
    · exact .inr (.inr ht)

/-- Where the way down ends, no child before the first that starts behind the point ends behind it,
and the first that ends at the point is empty. -/
theorem child_of_toward?_eq_none {n c : Node} {p : Point} {before after : List Node}
    (h : n.toward? p = none) (hn : n.children = before ++ c :: after)
    (hb : ∀ b ∈ before, b.start ≤ p) (hc : c.start ≤ p) :
    ¬ p < c.stop ∧ (p = c.stop → (∀ b ∈ before, p ≠ b.stop) → c.start = c.stop) := by
  have hreached : n.reached p = before ++ c :: after.takeWhile fun d => d.start ≤ p := by
    rw [reached, hn, List.takeWhile_append_of_pos (by simpa using hb),
      List.takeWhile_cons_of_pos (by simpa using hc)]
  have hmem : c ∈ n.reached p := by rw [hreached]; simp
  unfold toward? at h
  split at h
  · cases h
  · next hnone =>
    refine ⟨by simpa using List.find?_eq_none.1 hnone c hmem, ?_⟩
    intro he hfirst
    have hfind : (n.reached p).find? (fun d => decide (p = d.stop)) = some c := by
      rw [hreached, List.find?_append, List.find?_eq_none.2 (by simpa using hfirst),
        List.find?_cons_of_pos (by simpa using he)]
      rfl
    rw [hfind] at h
    have hle : c.stop ≤ c.start := by simpa using h
    exact Point.le_antisymm (he ▸ hc) hle

end Node

/-! ## In the records of a tree -/

namespace Record

variable {t : Tree}

theorem fetch_records {n : Node} (hn : n ∈ t.nodes) : fetch t.records n.id = .ok n.record := by
  rw [fetch, Tree.getElem?_records.2 ⟨n, hn, rfl, rfl⟩]

theorem settle_record (touching : Option Node) :
    settle (touching.map fun n => (n.id, n.record)) =
      (touching.filter fun n => n.start < n.stop).map Node.id := by
  rw [settle, Option.filter_map, Option.map_map]
  rfl

theorem scan_map_id (p : Point) (touching : Option Node) (cs : List Node)
    (hcs : ∀ c ∈ cs, c ∈ t.nodes) :
    scan t.records p (touching.map fun n => (n.id, n.record)) (cs.map Node.id) =
      .ok ((Node.towardAmong? p touching cs).map Node.id) := by
  induction cs generalizing touching with
  | nil => rw [List.map_nil, scan, settle_record, Node.towardAmong?_nil]
  | cons c cs ih =>
    obtain ⟨hc, hcs⟩ := List.forall_mem_cons.1 hcs
    rw [List.map_cons, scan, fetch_records hc]
    show (if p < c.start then Except.ok (settle _) else if p < c.stop then .ok (some c.id)
      else scan t.records p (Option.or _ (if p = c.stop then some (c.id, c.record) else none))
        (cs.map Node.id)) = _
    by_cases hs : p < c.start
    · rw [if_pos hs, settle_record, Node.towardAmong?_of_behind touching cs hs]
    · have hle : c.start ≤ p := Point.not_lt.1 hs
      by_cases he : p < c.stop
      · rw [if_neg hs, if_pos he, Node.towardAmong?_of_covers touching cs ⟨hle, he⟩]
        rfl
      · have hnext : (touching.map fun n => (n.id, n.record)).or
            (if p = c.stop then some (c.id, c.record) else none) =
              (touching.or (if p = c.stop then some c else none)).map
                fun n => (n.id, n.record) := by
          split <;> cases touching <;> rfl
        rw [if_neg hs, if_neg he, hnext, ih _ hcs, Node.towardAmong?_of_past touching cs hle he]

/-- **One round of the look-up.** -/
theorem scan_children {n : Node} (hn : n ∈ t.nodes) (p : Point) :
    scan t.records p none n.record.children = .ok ((n.toward? p).map Node.id) := by
  rw [n.toward?_eq]
  exact scan_map_id p none n.children fun c hc => Tree.mem_nodes_of_mem_children hn hc

/-- **The look-up ends.** Ids grow on the way down, so there are no more rounds than ids left. -/
theorem lookUp_records {n : Node} (hn : n ∈ t.nodes) (p : Point) {rounds : Nat}
    (h : t.size ≤ n.id + rounds) :
    lookUp t.records p rounds n.id = .ok (some (n.descendTo p).id) := by
  induction rounds generalizing n with
  | zero =>
    have := Tree.id_lt_size hn
    omega
  | succ rounds ih =>
    rw [lookUp, fetch_records hn]
    show (scan t.records p none n.record.children >>= _) = _
    rw [scan_children hn]
    cases hdown : n.toward? p with
    | none => rw [Node.descendTo_of_none hdown]; rfl
    | some c =>
      have hc := Node.mem_children_of_toward? hdown
      have hlt := Node.id_lt_of_mem_children hc
      rw [Node.descendTo_of_some hdown]
      exact ih (Tree.mem_nodes_of_mem_children hn hc) (by omega)

end Record

/-- The stack of ids that stands for a walk. -/
def Walk.stack (w : Walk) : List Nat :=
  (w.pending.map Node.id).reverse

theorem Walk.next?_cons (n : Node) (pending : List Node) :
    next? ⟨n :: pending⟩ = some (n, ⟨n.children ++ pending⟩) := rfl

theorem Walk.toList_cons (n : Node) (pending : List Node) :
    toList ⟨n :: pending⟩ = n :: toList ⟨n.children ++ pending⟩ := by
  rw [toList]
  rfl

namespace Record

variable {t : Tree}

/-- **One call of the iterator.** -/
theorem next?_stack {w : Walk} (hw : ∀ n ∈ w.pending, n ∈ t.nodes) :
    next? t.records w.stack = .ok (w.next?.map fun x => (x.1.id, x.2.stack)) := by
  obtain ⟨pending⟩ := w
  cases pending with
  | nil => rfl
  | cons n pending =>
    have hlast : (Walk.stack ⟨n :: pending⟩).getLast? = some n.id := by simp [Walk.stack]
    rw [next?, hlast]
    simp only [fetch_records (hw n List.mem_cons_self)]
    show Except.ok _ = _
    simp [Walk.stack, Walk.next?, Node.record]

/-- **The iterator ends.** It yields what the walk meets, and needs one call more than that. -/
theorem drain_stack {w : Walk} (hw : ∀ n ∈ w.pending, n ∈ t.nodes) {calls : Nat}
    (h : w.remaining < calls) :
    drain t.records calls w.stack = .ok (some (w.toList.map Node.id)) := by
  induction calls generalizing w with
  | zero => omega
  | succ calls ih =>
    rw [drain, next?_stack hw]
    obtain ⟨pending⟩ := w
    cases pending with
    | nil => rw [Walk.toList]; rfl
    | cons n pending =>
      obtain ⟨hn, hpending⟩ := List.forall_mem_cons.1 hw
      have hless := Walk.remaining_next? (Walk.next?_cons n pending)
      have hlater : ∀ m ∈ n.children ++ pending, m ∈ t.nodes := by
        intro m hm
        rcases List.mem_append.1 hm with hm | hm
        · exact Tree.mem_nodes_of_mem_children hn hm
        · exact hpending m hm
      rw [Walk.next?_cons, Walk.toList_cons]
      show (drain t.records calls (Walk.stack ⟨n.children ++ pending⟩) >>= _) = _
      rw [ih hlater (by omega)]
      rfl

end Record

/-! ## Built trees -/

/-- **Position lookup ends and is sound, however broken the ranges.** Let some steps build a tree,
with any ranges at all. Then the look-up of a point in the arena that the steps write ends at the
node that is the point's, within as many rounds as there are nodes. All nodes on the path from the
root to it, without the root, are not empty and have the point in them or at their end. And of its
children before the first that starts behind the point none ends behind the point, and the first
that ends at the point is empty. -/
theorem Builder.lookUp_sound {steps : List BuildStep} {t : Tree}
    (h : (Builder.empty.run steps).build = .ok t) (p : Point) :
    let r := t.descendantAt p
    (Arena.empty.run steps).build = .ok t.records ∧
      (∀ rounds, t.records.length ≤ rounds →
        Record.lookUp t.records p rounds 0 = .ok (some r.id)) ∧
      r ∈ t.nodes ∧
      (∀ n, n = r ∨ n ∈ r.ancestors → n ≠ t.root → n.start < n.stop ∧ n.start ≤ p ∧ p ≤ n.stop) ∧
      ∀ before c after, r.children = before ++ c :: after → (∀ b ∈ before, b.start ≤ p) →
        c.start ≤ p →
          ¬ p < c.stop ∧ (p = c.stop → (∀ b ∈ before, p ≠ b.stop) → c.start = c.stop) := by
  intro r
  refine ⟨?_, ?_, t.descendantAt_mem_nodes p, ?_, ?_⟩
  · rw [build_arena, h]
    rfl
  · intro rounds hrounds
    rw [Tree.length_records] at hrounds
    exact Record.lookUp_records t.root_mem_nodes p (by omega)
  · intro n hn hroot
    rcases t.root.touches_of_mem_path_descendTo p n hn with he | ha | ht
    · exact absurd he hroot
    · cases ha
    · exact ht
  · intro before c after hr hb hc
    exact Node.child_of_toward?_eq_none (t.root.toward?_descendTo p) hr hb hc

/-- A tree with a reversed range, overlapping siblings and children outside their parent. -/
def staleTree : Tree :=
  ⟨.onLine "source_file" 9 2,
    .cons (.onLine "reversed" 3 1) .nil <|
    .cons (.onLine "word" 0 6) .nil <|
    .cons (.onLine "block" 2 9)
      (.cons (.onLine "gap" 6 6) .nil <|
      .cons (.onLine "word" 1 6) .nil <|
      .cons (.onLine "late" 7 8) .nil <|
      .cons (.onLine "word" 0 9) .nil .nil) .nil⟩

/-- The block at the point is entered, and none of its children is: the first that ends there is
empty, and the one around the point stands behind one that starts later. -/
theorem lookUp_sound_staleTree :
    let r := staleTree.descendantAt ⟨0, 6⟩
    (Builder.empty.run (staleTree.script fun _ => true)).build = .ok staleTree ∧
    r.id = 3 ∧ r.ancestors = [staleTree.root] ∧
    (∀ rounds, staleTree.records.length ≤ rounds →
      Record.lookUp staleTree.records ⟨0, 6⟩ rounds 0 = .ok (some r.id)) ∧
    (∀ n, n = r ∨ n ∈ r.ancestors → n ≠ staleTree.root →
      n.start < n.stop ∧ n.start ≤ ⟨0, 6⟩ ∧ ⟨0, 6⟩ ≤ n.stop) ∧
    ∀ before c after, r.children = before ++ c :: after → (∀ b ∈ before, b.start ≤ ⟨0, 6⟩) →
      c.start ≤ ⟨0, 6⟩ →
        ¬ ⟨0, 6⟩ < c.stop ∧ (⟨0, 6⟩ = c.stop → (∀ b ∈ before, ⟨0, 6⟩ ≠ b.stop) →
          c.start = c.stop) := by
  have hbuilt := Builder.build_tree_script (fun _ => true) staleTree
  obtain ⟨-, hends, -, hpath, hchildren⟩ := Builder.lookUp_sound hbuilt ⟨0, 6⟩
  exact ⟨hbuilt, by decide +kernel, by decide +kernel, hends, hpath, hchildren⟩

/-- **The iterator with a stack is the recursive pre-order.** Let some steps build a tree. From any
node, the iterator over the arena that the steps write ends and yields the ids of the node's
descendants. These are the node and then the descendants of its children, one child after the other,
and their ids are as many as there are nodes in the subtree, from the node's own id on. The
descendants of the root are all nodes, in the order of their ids. -/
theorem Builder.descendants_preorder {steps : List BuildStep} {t : Tree}
    (h : (Builder.empty.run steps).build = .ok t) :
    (Arena.empty.run steps).build = .ok t.records ∧
      (∀ n ∈ t.nodes,
        (∀ calls, n.size < calls →
          Record.drain t.records calls [n.id] = .ok (some (n.descendants.map Node.id))) ∧
        n.descendants = n.preorder ∧
        n.preorder = n :: n.children.flatMap Node.preorder ∧
        n.descendants.map Node.id = List.range' n.id n.size) ∧
      t.root.descendants = t.nodes ∧
      t.nodes.map Node.id = List.range t.records.length := by
  refine ⟨?_, ?_, t.root.descendants_eq, ?_⟩
  · rw [build_arena, h]
    rfl
  · intro n hn
    refine ⟨?_, n.descendants_eq, ?_, ?_⟩
    · intro calls hcalls
      have hremaining : n.walk.remaining = n.size := by
        rw [Walk.remaining, Node.walk, List.flatMap_singleton, n.preorder_eq, List.length_cons,
          n.length_below, n.size_eq, Nat.add_comm]
      have hpending : ∀ m ∈ n.walk.pending, m ∈ t.nodes := by
        intro m hm
        rw [List.mem_singleton.1 hm]
        exact hn
      exact Record.drain_stack hpending (by omega)
    · rw [n.preorder_eq, n.below_eq]
    · rw [n.descendants_eq, n.map_id_preorder]
  · rw [t.map_id_nodes, t.length_records]

/-- The block is node 3 and has four nodes below it. -/
theorem descendants_preorder_staleTree : ∃ n ∈ staleTree.nodes,
    (Builder.empty.run (staleTree.script fun _ => true)).build = .ok staleTree ∧
    (∀ calls, n.size < calls →
      Record.drain staleTree.records calls [n.id] = .ok (some (n.descendants.map Node.id))) ∧
    n.descendants = n.preorder ∧ n.preorder = n :: n.children.flatMap Node.preorder ∧
    n.descendants.map Node.id = List.range' n.id n.size ∧ n.id = 3 ∧ n.size = 5 ∧
    staleTree.root.descendants = staleTree.nodes ∧
    staleTree.nodes.map Node.id = List.range staleTree.records.length := by
  have hbuilt := Builder.build_tree_script (fun _ => true) staleTree
  obtain ⟨-, hnodes, hroot, hids⟩ := Builder.descendants_preorder hbuilt
  have hmem : staleTree.root.children.getLast (by decide) ∈ staleTree.nodes :=
    Tree.mem_nodes_of_mem_children staleTree.root_mem_nodes (List.getLast_mem _)
  obtain ⟨hends, hpre, hrec, hrange⟩ := hnodes _ hmem
  exact ⟨_, hmem, hbuilt, hends, hpre, hrec, hrange, by decide +kernel, by decide +kernel, hroot,
    hids⟩

end MoveOutline
