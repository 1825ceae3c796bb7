import MoveOutline.Proofs.Syntax.Rebuild
import MoveOutline.Syntax.Cursor
/-!
# The tour of a cursor

A cursor that copies a tree comes to every node twice: for the first time from the parent or from
the sibling before it, and for the last time when everything below has been seen. Which visit is
next depends on the visit alone, and the visits that follow each other are a **trail**. The trail
from the root is a **tour**, which can be written down by recursion on the tree.

A copy tells an arena one step for each visit, the start of the node at the first visit and its
end at the last. So it tells the script of the tree, in which no step fails, and what it leaves is
read off as the tree again.

Results:
* `Visit.walk_eq_tellAll`: a copy tells the steps of its trail.
* `Tree.trail_eq`: the trail from the root is the tour of the tree.
* `Forest.filter_tour`: a tour has each node's first and last visit once, in this order.
* `Forest.answers_tour`: a builder numbers the nodes of a tour by their ids.
* `Tree.copy_eq`: what a copy leaves.
* `Tree.copy_faithful`: a copy is faithful and does not fail.
-/
namespace MoveOutline

/-! ## The moves of a cursor -/

namespace Node

theorem nextSibling?_level {f : Forest} {id i : Nat} :
    ((f.levels id)[i]?.bind fun level =>
        (level.after.levels (level.id + (1 + level.below.size))).head?) =
      (f.levels id)[i + 1]? := by
  induction f generalizing id i with
  | nil => rfl
  | cons label below rest _ ih =>
    rw [Forest.levels, List.getElem?_cons_succ]
    cases i with
    | zero =>
      rw [List.getElem?_cons_zero, Option.bind_some, ← Nat.add_assoc, List.head?_eq_getElem?]
    | succ i => rw [List.getElem?_cons_succ, ih]

/-- The next sibling of a child is the child after it. -/
theorem nextSibling?_child? (n : Node) (i : Nat) :
    (n.child? i).bind nextSibling? = n.child? (i + 1) := by
  simp only [child?, children, List.getElem?_map, ← nextSibling?_level, Option.map_bind,
    Option.bind_map]
  rfl

theorem parent?_child? (n : Node) (i : Nat) :
    (n.child? i).bind parent? = (n.child? i).map fun _ => n := by
  cases h : n.child? i with
  | none => rfl
  | some c => exact parent?_of_mem_children (List.mem_of_getElem? h)

end Node

/-! ## Visits -/

/-- A cursor at a node. -/
inductive Visit where
  /-- The cursor has just come to the node. -/
  | first (n : Node)
  /-- The cursor has seen everything below the node. -/
  | last (n : Node)
  deriving DecidableEq, Repr

namespace Visit

def node : Visit → Node
  | first n => n
  | last n => n

/-- The node, when it is new. -/
def started? : Visit → Option Node
  | first n => some n
  | last _ => none

/-- What an arena is told at the visit. -/
def step : Visit → BuildStep
  | first n => .start n.kind n.label.named n.label.start
  | last n => .finish n.label.stop

/-- What an arena is told at the visit, and the id of the node that it is about. -/
def told (v : Visit) : Told :=
  ⟨v.step, v.node.id⟩

/-- The visit after this one: down to the first child, over to the next sibling, or up to the
parent. -/
def next? : Visit → Option Visit
  | first n =>
    match n.firstChild? with
    | some c => some (first c)
    | none => some (last n)
  | last n =>
    match n.nextSibling? with
    | some s => some (first s)
    | none => n.parent?.map last

/-- The measure of `Node.enter` and `Node.leave`. -/
def remaining : Visit → Nat
  | first n => 3 * n.here.below.size + n.outstanding + 2
  | last n => n.outstanding

theorem remaining_next? {v w : Visit} (h : v.next? = some w) : w.remaining < v.remaining := by
  cases v with
  | first n =>
    simp only [next?] at h
    split at h
    · next c hc =>
      obtain rfl := Option.some.inj h
      have := Node.outstanding_firstChild? hc
      simp only [remaining]; omega
    · obtain rfl := Option.some.inj h
      simp only [remaining]; omega
  | last n =>
    simp only [next?] at h
    split at h
    · next s hs =>
      obtain rfl := Option.some.inj h
      have := Node.outstanding_nextSibling? hs
      simp only [remaining]; omega
    · obtain ⟨p, hp, rfl⟩ := Option.map_eq_some_iff.1 h
      exact Node.outstanding_parent? hp

/-- The visit and all that follow. -/
def trail (v : Visit) : List Visit :=
  v :: match _h : v.next? with
    | some w => w.trail
    | none => []
termination_by v.remaining
decreasing_by exact remaining_next? _h

theorem trail_of_some {v w : Visit} (h : v.next? = some w) : v.trail = v :: w.trail := by
  rw [trail]
  split
  · next w' hw =>
    rw [h] at hw
    obtain rfl := Option.some.inj hw
    rfl
  · next hnone =>
    rw [h] at hnone
    cases hnone

theorem trail_of_none {v : Visit} (h : v.next? = none) : v.trail = [v] := by
  rw [trail]
  split
  · next w' hw =>
    rw [h] at hw
    cases hw
  · rfl

end Visit

/-- The node that the step starts, by its id. -/
def Told.startedId? (e : Told) : Option Nat :=
  match e.step with
  | .start .. => some e.id
  | .token _ => none
  | .finish _ => none

/-- The visits of a cursor that starts at the root. -/
def Tree.trail (t : Tree) : List Visit :=
  (Visit.first t.root).trail

/-! ## Telling a trail -/

namespace Builder

/-- The answers to the steps of a script. -/
def answers (b : Builder) : List BuildStep → List (Except SyntaxError Nat)
  | [] => []
  | s :: steps => (b.perform s).1 :: (b.perform s).2.answers steps

theorem answers_append (b : Builder) (steps steps' : List BuildStep) :
    b.answers (steps ++ steps') = b.answers steps ++ (b.run steps).answers steps' := by
  induction steps generalizing b with
  | nil => rfl
  | cons s steps ih => rw [List.cons_append, answers, answers, ih, run_cons, List.cons_append]

/-- Telling a forest below an open node adds its trees to what is finished there. -/
theorem run_script_frame (asToken : Nat → Bool) (f : Forest) (id count : Nat) (frame : Frame)
    (outer : List Frame) (roots : List Tree) :
    run ⟨count, frame :: outer, roots⟩ (f.script asToken id) =
      ⟨count + f.size, { frame with finished := f.trees.reverse ++ frame.finished } :: outer,
        roots⟩ := by
  rw [run_script, foldl_push_cons]

end Builder

namespace Copying

/-- Tells the arena the steps of a script, up to the first one that fails. -/
def tellAll (c : Copying) : List BuildStep → Except SyntaxError Copying
  | [] => .ok c
  | s :: steps => do (← c.tell s).tellAll steps

/-- The arena of a builder answers as the builder does. -/
theorem tell_arena {b : Builder} (hb : b.Numbered) {s : BuildStep} {id : Nat}
    (h : (b.perform s).1 = .ok id) (told : List Told) :
    tell ⟨b.arena, told⟩ s = .ok ⟨(b.perform s).2.arena, told ++ [⟨s, id⟩]⟩ := by
  rw [tell, Builder.arena_perform hb, h]

theorem tellAll_arena {b : Builder} (hb : b.Numbered) {steps : List BuildStep} {ids : List Nat}
    (h : b.answers steps = ids.map .ok) (told : List Told) :
    tellAll ⟨b.arena, told⟩ steps =
      .ok ⟨(b.run steps).arena, told ++ List.zipWith Told.mk steps ids⟩ := by
  induction steps generalizing b ids told with
  | nil =>
    rw [List.zipWith_nil_left, List.append_nil]
    rfl
  | cons s steps ih =>
    cases ids with
    | nil => cases h
    | cons id ids =>
      obtain ⟨hid, hsteps⟩ := List.cons.inj h
      have hlater := ih (Builder.numbered_perform hb s) hsteps (told ++ [⟨s, id⟩])
      rw [tellAll, tell_arena hb hid]
      show tellAll ⟨(b.perform s).2.arena, told ++ [⟨s, id⟩]⟩ steps = _
      rw [hlater, List.append_assoc]
      rfl

end Copying

namespace Visit

/-- The walk from a visit on. -/
def walk (c : Copying) : Visit → Except SyntaxError Copying
  | first n => n.enter c
  | last n => n.leave c

/-- A walk tells the step of the visit and goes on to the next one. -/
theorem walk_eq (v : Visit) (c : Copying) : v.walk c =
    c.tell v.step >>= fun c => v.next?.elim (.ok c) fun w => w.walk c := by
  cases v with
  | first n =>
    rw [walk, Node.enter, step]
    refine bind_congr fun c => ?_
    rw [next?]
    split <;> simp [walk, *]
  | last n =>
    rw [walk, Node.leave, step]
    refine bind_congr fun c => ?_
    rw [next?]
    split
    · simp [walk, *]
    · split
      · simp [walk, *]
      · simp [*]
        rfl

theorem walk_eq_tellAll (v : Visit) (c : Copying) : v.walk c = c.tellAll (v.trail.map step) := by
  induction h : v.remaining using Nat.strongRecOn generalizing v c with
  | ind k ih =>
    subst h
    rw [walk_eq]
    cases hv : v.next? with
    | none =>
      rw [trail_of_none hv]
      rfl
    | some w =>
      rw [trail_of_some hv]
      exact bind_congr fun c => ih _ (remaining_next? hv) w c rfl

end Visit

/-! ## The tour of a tree -/

/-- The visits to the nodes of a forest, of which the first has the given id. -/
def Forest.tour (above : List Level) : Nat → Forest → List Visit
  | _, .nil => []
  | id, .cons label below rest =>
    let n : Node := ⟨⟨id, label, below, rest⟩, above⟩
    .first n :: (below.tour n.path (id + 1) ++ .last n :: rest.tour above (id + 1 + below.size))

namespace Visit

/-- What follows when nothing is left below the first level of a path. -/
def homeward : List Level → List Visit
  | [] => []
  | level :: above => (last ⟨level, above⟩).trail

/-- The trail from the first node of a forest, or from behind the forest if it has none. -/
def trailThrough (above : List Level) (id : Nat) (f : Forest) : List Visit :=
  (f.levels id).head?.elim (homeward above) fun level => (first ⟨level, above⟩).trail

theorem trail_first (n : Node) :
    (first n).trail = first n :: trailThrough n.path (n.id + 1) n.here.below := by
  rw [trailThrough]
  cases h : (n.here.below.levels (n.id + 1)).head? with
  | none => exact trail_of_some (by simp [next?, Node.firstChild?, Node.children, h])
  | some level => exact trail_of_some (by simp [next?, Node.firstChild?, Node.children, h])

theorem trail_last (n : Node) :
    (last n).trail = last n :: trailThrough n.above (n.id + n.size) n.here.after := by
  rw [trailThrough]
  cases h : (n.here.after.levels (n.id + n.size)).head? with
  | some level => exact trail_of_some (by simp [next?, Node.nextSibling?, h])
  | none =>
    have hup : (last n).next? = n.parent?.map last := by simp [next?, Node.nextSibling?, h]
    cases ha : n.above with
    | nil => exact trail_of_none (by simp [hup, Node.parent?, ha])
    | cons level above => exact trail_of_some (by simp [hup, Node.parent?, ha])

/-- A trail goes through a forest before it goes on. -/
theorem trailThrough_eq (above : List Level) (id : Nat) (f : Forest) :
    trailThrough above id f = f.tour above id ++ homeward above := by
  induction f generalizing above id with
  | nil => rfl
  | cons label below rest ih ih' =>
    let n : Node := ⟨⟨id, label, below, rest⟩, above⟩
    calc trailThrough above id (.cons label below rest)
        = first n :: trailThrough n.path (id + 1) below := trail_first n
      _ = first n :: (below.tour n.path (id + 1) ++ (last n).trail) := by rw [ih]; rfl
      _ = first n :: (below.tour n.path (id + 1) ++
            last n :: (rest.tour above (id + 1 + below.size) ++ homeward above)) := by
          rw [trail_last, n.size_eq, ← Nat.add_assoc, ← ih']; rfl
      _ = (Forest.cons label below rest).tour above id ++ homeward above := by
          simp [Forest.tour, n]

end Visit

/-- The trail from the root is the tour of the tree. -/
theorem Tree.trail_eq (t : Tree) : t.trail = (Forest.cons t.label t.below .nil).tour [] 0 :=
  (Visit.trailThrough_eq [] 0 (.cons t.label t.below .nil)).trans (List.append_nil _)

namespace Forest

theorem filterMap_started?_tour (f : Forest) (above : List Level) (id : Nat) :
    (f.tour above id).filterMap Visit.started? = f.nodes above id := by
  induction f generalizing above id with
  | nil => rfl
  | cons label below rest ih ih' =>
    simp [tour, nodes, List.filterMap_cons, Visit.started?, Node.path, ih, ih']

theorem node_mem_nodes_of_mem_tour {f : Forest} {above : List Level} {id : Nat} {v : Visit}
    (h : v ∈ f.tour above id) : v.node ∈ f.nodes above id := by
  induction f generalizing above id with
  | nil => cases h
  | cons label below rest ih ih' =>
    rw [nodes]
    rcases List.mem_cons.1 h with rfl | h
    · exact List.mem_cons_self
    rcases List.mem_append.1 h with h | h
    · exact List.mem_cons_of_mem _ (List.mem_append_left _ (ih h))
    rcases List.mem_cons.1 h with rfl | h
    · exact List.mem_cons_self
    · exact List.mem_cons_of_mem _ (List.mem_append_right _ (ih' h))

theorem id_of_mem_nodes {f : Forest} {above : List Level} {id : Nat} {n : Node}
    (h : n ∈ f.nodes above id) : id ≤ n.id ∧ n.id < id + f.size := by
  have hmem : n.id ∈ (f.nodes above id).map Node.id := List.mem_map_of_mem h
  rwa [map_id_nodes, List.mem_range'_1] at hmem

/-- A tour does not come to a node that lies before the forest or behind it. -/
theorem filter_tour_of_outside (f : Forest) (above : List Level) {id i : Nat}
    (h : i < id ∨ id + f.size ≤ i) : (f.tour above id).filter (·.node.id = i) = [] := by
  rw [List.filter_eq_nil_iff]
  intro v hv hi
  have hid := id_of_mem_nodes (node_mem_nodes_of_mem_tour hv)
  rw [decide_eq_true_eq] at hi
  omega

theorem filter_tour_cons (label : Label) (below rest : Forest) (above : List Level) (id i : Nat) :
    ((cons label below rest).tour above id).filter (·.node.id = i) =
      (if id = i then [.first ⟨⟨id, label, below, rest⟩, above⟩] else []) ++
        ((below.tour (⟨id, label, below, rest⟩ :: above) (id + 1)).filter (·.node.id = i) ++
          ((if id = i then [.last ⟨⟨id, label, below, rest⟩, above⟩] else []) ++
            (rest.tour above (id + 1 + below.size)).filter (·.node.id = i))) := by
  by_cases h : id = i
  · simp [tour, Visit.node, Node.id, Node.path, h]
  · simp [tour, Visit.node, Node.id, Node.path, h]

/-- A tour comes to each node for the first time and then for the last, and no more. -/
theorem filter_tour {f : Forest} {above : List Level} {id : Nat} {n : Node}
    (hn : n ∈ f.nodes above id) :
    (f.tour above id).filter (·.node.id = n.id) = [.first n, .last n] := by
  induction f generalizing above id with
  | nil => cases hn
  | cons label below rest ih ih' =>
    rw [filter_tour_cons]
    rw [nodes] at hn
    rcases List.mem_cons.1 hn with hhead | hn
    · have hid : n.id = id := congrArg Node.id hhead
      rw [hid, filter_tour_of_outside below _ (.inl (Nat.lt_succ_self id)),
        filter_tour_of_outside rest _ (.inl (by omega)), if_pos rfl, if_pos rfl, hhead]
      rfl
    rcases List.mem_append.1 hn with hn | hn
    · obtain ⟨hle, hlt⟩ := id_of_mem_nodes hn
      rw [ih hn, filter_tour_of_outside rest _ (.inl hlt), if_neg (by omega), if_neg (by omega)]
      rfl
    · obtain ⟨hle, hlt⟩ := id_of_mem_nodes hn
      rw [ih' hn, filter_tour_of_outside below _ (.inr hle), if_neg (by omega), if_neg (by omega)]
      rfl

/-- A tour tells the script of a forest, without tokens. -/
theorem map_step_tour (f : Forest) (above : List Level) (id : Nat) :
    (f.tour above id).map Visit.step = f.script (fun _ => false) id := by
  induction f generalizing above id with
  | nil => rfl
  | cons label below rest ih ih' =>
    simp [tour, script, Visit.step, Node.kind, Node.label, ih, ih']

/-- Each step is answered by the id of the node. -/
theorem answers_tour (f : Forest) (above : List Level) {b : Builder} {id : Nat}
    (h : b.count = id) :
    b.answers ((f.tour above id).map Visit.step) =
      ((f.tour above id).map fun v => v.node.id).map .ok := by
  induction f generalizing above id b with
  | nil => rfl
  | cons label below rest ih ih' =>
    obtain ⟨count, frames, roots⟩ := b
    subst h
    let n : Node := ⟨⟨count, label, below, rest⟩, above⟩
    let frame : Frame := ⟨count, label.kind, label.named, label.start, []⟩
    let behind : Builder := ⟨count + 1 + below.size, frames, roots⟩
    have hbelow := ih n.path (b := ⟨count + 1, frame :: frames, roots⟩) rfl
    have hrest := ih' above (behind.count_push ⟨label, below⟩)
    -- when the node ends, its frame is the innermost one, with the trees below in it
    have hlast : Builder.perform ⟨count + 1 + below.size,
        { frame with finished := below.trees.reverse ++ [] } :: frames, roots⟩
          (.finish label.stop) = (.ok count, behind.push ⟨label, below⟩) := by
      simp [Builder.perform, Builder.finish, Frame.close, frame, behind]
    have hinside : Builder.run ⟨count + 1, frame :: frames, roots⟩
        ((below.tour n.path (count + 1)).map Visit.step) =
          ⟨count + 1 + below.size,
            { frame with finished := below.trees.reverse ++ [] } :: frames, roots⟩ := by
      rw [map_step_tour, Builder.run_script_frame]
    calc Builder.answers ⟨count, frames, roots⟩ (((cons label below rest).tour above count).map
          Visit.step)
        = .ok count :: Builder.answers ⟨count + 1, frame :: frames, roots⟩
            ((below.tour n.path (count + 1)).map Visit.step ++ .finish label.stop ::
              (rest.tour above (count + 1 + below.size)).map Visit.step) := by
          rw [tour, List.map_cons, List.map_append, List.map_cons]; rfl
      _ = ((cons label below rest).tour above count |>.map fun v => v.node.id).map .ok := by
          rw [Builder.answers_append, hbelow, hinside, Builder.answers, hlast, hrest]
          simp [tour, Visit.node, Node.id, n, behind]

end Forest

namespace Tree

variable (t : Tree)

theorem map_step_trail : t.trail.map Visit.step = t.script fun _ => false := by
  rw [trail_eq, Forest.map_step_tour]
  rfl

theorem answers_trail : Builder.empty.answers (t.trail.map Visit.step) =
    (t.trail.map fun v => v.node.id).map .ok := by
  rw [trail_eq]
  exact Forest.answers_tour _ _ rfl

/-- An arena that is told the steps of the trail ends with the records of the tree. -/
theorem build_trail : (Arena.empty.run (t.trail.map Visit.step)).build = .ok t.records := by
  rw [Builder.build_arena, map_step_trail, Builder.build_tree_script]
  rfl

/-- What a copy leaves: the records of the tree, and a step for each visit of the trail. -/
theorem copy_eq : t.copy = .ok ⟨t.records, t.trail.map Visit.told⟩ := by
  have htold : List.zipWith Told.mk (t.trail.map Visit.step) (t.trail.map fun v => v.node.id) =
      t.trail.map Visit.told := by
    rw [List.zipWith_map, List.zipWith_self]
    rfl
  have hwalk : t.root.enter .empty =
      .ok ⟨(Builder.empty.run (t.trail.map Visit.step)).arena, t.trail.map Visit.told⟩ := by
    rw [← htold]
    exact (Visit.walk_eq_tellAll (.first t.root) .empty).trans
      (Copying.tellAll_arena Builder.numbered_empty t.answers_trail [])
  have hbuild : (Builder.empty.run (t.trail.map Visit.step)).arena.build = .ok t.records := by
    rw [← Builder.arena_run Builder.numbered_empty]
    exact t.build_trail
  rw [copy, hwalk]
  show (do return Copy.mk (← (Builder.empty.run (t.trail.map Visit.step)).arena.build) _) = _
  rw [hbuild]
  rfl

theorem node_mem_nodes_of_mem_trail {v : Visit} (h : v ∈ t.trail) : v.node ∈ t.nodes := by
  rw [trail_eq] at h
  rw [nodes_eq_nodes_cons]
  exact Forest.node_mem_nodes_of_mem_tour h

theorem filterMap_startedId?_trail :
    (t.trail.map Visit.told).filterMap Told.startedId? = List.range t.size := by
  have hstarted : Told.startedId? ∘ Visit.told = fun v => v.started?.map Node.id :=
    funext fun v => by cases v <;> rfl
  rw [List.filterMap_map, hstarted, ← List.map_filterMap, trail_eq,
    Forest.filterMap_started?_tour, ← nodes_eq_nodes_cons, map_id_nodes]

theorem filter_told_trail {n : Node} (hn : n ∈ t.nodes) :
    (t.trail.map Visit.told).filter (·.id = n.id) =
      [⟨.start n.kind n.label.named n.label.start, n.id⟩, ⟨.finish n.label.stop, n.id⟩] := by
  rw [nodes_eq_nodes_cons] at hn
  rw [List.filter_map, trail_eq]
  exact congrArg (List.map Visit.told) (Forest.filter_tour hn)

/-- **A copy is faithful and does not fail.** The moves of a cursor lead to the children of a node
one after the other, and from each of them back to the node; from the root they lead neither over
nor up. The copy made by these moves has a record for every node, with its label, its parent and
its children in order, at the place that the node has in pre-order, and it is read off as the tree
again. The arena was told the script of the tree and answered each step by the id of a node. It was
told the nodes in pre-order, and of each node the start and then the end, once each. -/
theorem copy_faithful :
    (∀ (n : Node) (i : Nat), n.firstChild? = n.child? 0 ∧
      (n.child? i).bind Node.nextSibling? = n.child? (i + 1) ∧
      (n.child? i).bind Node.parent? = (n.child? i).map fun _ => n) ∧
    t.root.nextSibling? = none ∧ t.root.parent? = none ∧
    t.nodes.map Node.id = List.range t.size ∧
    ∃ c, t.copy = .ok c ∧
      c.records =
        t.nodes.map (fun n => ⟨n.label, n.parent?.map Node.id, n.children.map Node.id⟩) ∧
      ofRecords? c.records = some t ∧
      c.told.map (·.step) = t.script (fun _ => false) ∧
      (Arena.empty.run (c.told.map (·.step))).build = .ok c.records ∧
      Builder.empty.answers (c.told.map (·.step)) = c.told.map (.ok ·.id) ∧
      c.told.filterMap Told.startedId? = List.range t.size ∧
      (∀ n ∈ t.nodes, c.told.filter (·.id = n.id) =
        [⟨.start n.kind n.label.named n.label.start, n.id⟩, ⟨.finish n.label.stop, n.id⟩]) ∧
      ∀ e ∈ c.told, ∃ n ∈ t.nodes, n.id = e.id := by
  have hsteps : (t.trail.map Visit.told).map (·.step) = t.trail.map Visit.step :=
    List.map_map ..
  refine ⟨?_, rfl, rfl, t.map_id_nodes, _, t.copy_eq, rfl, t.ofRecords?_records, ?_, ?_, ?_,
    t.filterMap_startedId?_trail, fun n hn => t.filter_told_trail hn, fun e he => ?_⟩
  · intro n i
    exact ⟨n.firstChild?_eq, n.nextSibling?_child? i, n.parent?_child? i⟩
  · rw [hsteps, map_step_trail]
  · rw [hsteps]
    exact t.build_trail
  · rw [hsteps, answers_trail, List.map_map, List.map_map]
    rfl
  · obtain ⟨v, hv, rfl⟩ := List.mem_map.1 he
    exact ⟨v.node, t.node_mem_nodes_of_mem_trail hv, rfl⟩

end Tree

end MoveOutline
