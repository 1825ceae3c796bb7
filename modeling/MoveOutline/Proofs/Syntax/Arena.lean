import Mathlib.Data.List.Basic
import MoveOutline.Proofs.Syntax.Ancestry
import MoveOutline.Syntax.Arena
/-!
# Builders as arenas

A builder keeps finished trees and no records. It is shown here that it stands for an arena at
every moment (`Builder.arena`): each step of the builder is the step of that arena, with the same
answer, and so is the end.

Results:
* `Builder.arena_perform`: one step, for a builder that numbers its nodes in order.
* `Builder.arena_run`: a whole script.
* `Builder.build_arena`: the records that an arena ends with are those of the built tree, and
  where one of the two fails both do, for the same reason.
-/
namespace MoveOutline

/-! ## The records of a forest -/

namespace Forest

/-- The ids of the roots, of which the first is given. -/
def rootIds (id : Nat) (f : Forest) : List Nat :=
  (f.levels id).map (·.id)

/-- The records of a forest below a given node, of which the first root has the given id. -/
def records (parent : Option Nat) : Nat → Forest → List Record
  | _, .nil => []
  | id, .cons label below rest =>
    ⟨label, parent, below.rootIds (id + 1)⟩ ::
      (below.records (some id) (id + 1) ++ rest.records parent (id + 1 + below.size))

@[simp] theorem rootIds_nil (id : Nat) : nil.rootIds id = [] := rfl

@[simp] theorem rootIds_cons (id : Nat) (l : Label) (below rest : Forest) :
    (cons l below rest).rootIds id = id :: rest.rootIds (id + 1 + below.size) := rfl

@[simp] theorem length_records (parent : Option Nat) (f : Forest) (id : Nat) :
    (f.records parent id).length = f.size := by
  induction f generalizing parent id with
  | nil => rfl
  | cons l below rest ih ih' => simp [records, ih, ih']; omega

theorem map_record_nodes (f : Forest) (above : List Level) (id : Nat) :
    (f.nodes above id).map Node.record = f.records (above.head?.map (·.id)) id := by
  induction f generalizing above id with
  | nil => rfl
  | cons l below rest ih ih' =>
    have hrecord : Node.record ⟨⟨id, l, below, rest⟩, above⟩ =
        ⟨l, above.head?.map (·.id), below.rootIds (id + 1)⟩ := by
      unfold Node.record Node.children rootIds
      rw [List.map_map]
      cases above <;> rfl
    rw [nodes, records, List.map_cons, List.map_append, ih, ih', hrecord]
    rfl

/-- Only the roots of a forest can lack a parent. -/
theorem parent_of_mem_records {f : Forest} {parent id : Nat} {r : Record}
    (h : r ∈ f.records (some parent) id) : r.parent.isNone = false := by
  induction f generalizing parent id with
  | nil => cases h
  | cons l below rest ih ih' =>
    rw [records, List.mem_cons, List.mem_append] at h
    rcases h with rfl | h | h
    · rfl
    · exact ih h
    · exact ih' h

/-! One more tree at the end of a forest. -/

theorem rootIds_ofTrees_append (ts : List Tree) (t : Tree) (id : Nat) :
    (ofTrees (ts ++ [t])).rootIds id = (ofTrees ts).rootIds id ++ [id + (ofTrees ts).size] := by
  induction ts generalizing id with
  | nil => rfl
  | cons s ts ih =>
    simp only [List.cons_append, ofTrees, rootIds_cons, size_cons, ih]
    congr 3; omega

theorem records_ofTrees_append (ts : List Tree) (t : Tree) (parent : Option Nat) (id : Nat) :
    (ofTrees (ts ++ [t])).records parent id =
      let next := id + (ofTrees ts).size
      (ofTrees ts).records parent id ++
        ⟨t.label, parent, t.below.rootIds (next + 1)⟩ :: t.below.records (some next) (next + 1) := by
  induction ts generalizing id with
  | nil => simp [ofTrees, records]
  | cons s ts ih =>
    have hnext : id + 1 + s.below.size + (ofTrees ts).size =
        id + (1 + s.below.size + (ofTrees ts).size) := by omega
    simp only [List.cons_append, ofTrees, records, size_cons, ih, List.append_assoc, hnext]

end Forest

theorem Tree.records_eq (t : Tree) :
    t.records = ⟨t.label, none, t.below.rootIds 1⟩ :: t.below.records (some 0) 1 := by
  have h := Forest.map_record_nodes (.cons t.label t.below .nil) [] 0
  simp only [Forest.nodes, Forest.records, List.append_nil, Nat.zero_add] at h
  exact h

/-! ## A builder as an arena -/

namespace Frame

/-- What is finished in the open node, in order. -/
def inside (f : Frame) : Forest :=
  Forest.ofTrees f.finished.reverse

/-- The number of nodes that are open or finished. -/
def total (roots : List Tree) : List Frame → Nat
  | [] => (Forest.ofTrees roots.reverse).size
  | f :: outer => total roots outer + 1 + f.inside.size

/-- Every open node has the number of nodes told before it for its id. -/
def Numbered (roots : List Tree) : List Frame → Prop
  | [] => True
  | f :: outer => f.id = total roots outer ∧ Numbered roots outer

/-- The records of the open nodes, each with what is finished in it, behind those of the finished
roots. An open node ends at its start, and `inner` is the node that is open in the first of them
and not among them. -/
def records (roots : List Tree) : Option Nat → List Frame → List Record
  | _, [] => (Forest.ofTrees roots.reverse).records none 0
  | inner, f :: outer =>
    records roots (some f.id) outer ++
      ⟨(f.close f.start).label, outer.head?.map (·.id),
          f.inside.rootIds (f.id + 1) ++ inner.toList⟩ ::
        f.inside.records (some f.id) (f.id + 1)

@[simp] theorem length_records (roots : List Tree) (inner : Option Nat) (fs : List Frame) :
    (records roots inner fs).length = total roots fs := by
  induction fs generalizing inner with
  | nil => simp [records, total]
  | cons f outer ih => simp [records, total, ih]; omega

end Frame

theorem modify_append_cons {α : Type} (f : α → α) {xs : List α} {i : Nat} (h : i = xs.length)
    (x : α) (ys : List α) : (xs ++ x :: ys).modify i f = xs ++ f x :: ys := by
  induction xs generalizing i with
  | nil => subst h; rfl
  | cons y xs ih => subst h; simpa using ih rfl

/-- Opening a node in the innermost open one enters it there. -/
theorem Frame.records_some {roots : List Tree} {f : Frame} {outer : List Frame}
    (h : f.id = total roots outer) (id : Nat) :
    records roots (some id) (f :: outer) =
      (records roots none (f :: outer)).modify f.id
        fun r => { r with children := r.children ++ [id] } := by
  have hlen : f.id = (records roots (some f.id) outer).length := by rw [h, length_records]
  simp only [records, modify_append_cons _ hlen, Option.toList_none, Option.toList_some,
    List.append_nil]

namespace Builder

/-- The arena that a builder stands for. -/
def arena (b : Builder) : Arena :=
  ⟨Frame.records b.roots none b.frames, b.frames.map (·.id)⟩

/-- The ids of a builder's open nodes and of the next one are those of the pre-order. -/
structure Numbered (b : Builder) : Prop where
  count : b.count = Frame.total b.roots b.frames
  frames : Frame.Numbered b.roots b.frames

theorem numbered_empty : empty.Numbered :=
  ⟨rfl, trivial⟩

/-! One more finished tree in the innermost open node. -/

@[simp] theorem count_push (b : Builder) (t : Tree) : (b.push t).count = b.count := by
  unfold push; split <;> rfl

theorem total_push (b : Builder) (t : Tree) :
    Frame.total (b.push t).roots (b.push t).frames = Frame.total b.roots b.frames + t.size := by
  obtain ⟨count, frames, roots⟩ := b
  cases frames with
  | nil => simp [push, Frame.total, Forest.ofTrees, Tree.size]
  | cons f outer => simp [push, Frame.total, Frame.inside, Forest.ofTrees, Tree.size]; omega

@[simp] theorem map_id_frames_push (b : Builder) (t : Tree) :
    (b.push t).frames.map (·.id) = b.frames.map (·.id) := by
  unfold push; split <;> simp [*]

theorem numbered_push {b : Builder} (h : Frame.Numbered b.roots b.frames) (t : Tree) :
    Frame.Numbered (b.push t).roots (b.push t).frames := by
  obtain ⟨count, frames, roots⟩ := b
  cases frames with
  | nil => trivial
  | cons f outer => exact h

/-- The records of one more finished tree come behind those of the builder, in which the tree is
entered as a child. -/
theorem records_push {b : Builder} (h : Frame.Numbered b.roots b.frames) (t : Tree) :
    Frame.records (b.push t).roots none (b.push t).frames =
      let id := Frame.total b.roots b.frames
      Frame.records b.roots (some id) b.frames ++
        ⟨t.label, b.frames.head?.map (·.id), t.below.rootIds (id + 1)⟩ ::
          t.below.records (some id) (id + 1) := by
  obtain ⟨count, frames, roots⟩ := b
  cases frames with
  | nil =>
    simp only [push, Frame.records, Frame.total, List.reverse_cons,
      Forest.records_ofTrees_append, Nat.zero_add]
    rfl
  | cons f outer =>
    have hid : f.id + 1 + f.inside.size = Frame.total roots (f :: outer) := by
      rw [h.1]; rfl
    simp only [push, Frame.records, Frame.inside, Frame.close, List.reverse_cons,
      Forest.records_ofTrees_append, Forest.rootIds_ofTrees_append] at hid ⊢
    rw [hid]
    simp

/-! ## Steps -/

theorem numbered_perform {b : Builder} (h : b.Numbered) (s : BuildStep) :
    (b.perform s).2.Numbered := by
  obtain ⟨hcount, hframes⟩ := h
  cases s with
  | start kind named pos =>
    refine ⟨?_, hcount, hframes⟩
    simp [perform, start, Frame.total, Frame.inside, Forest.ofTrees, hcount]
  | token label =>
    refine ⟨?_, b.numbered_push hframes _⟩
    show b.count + 1 = Frame.total (b.push ⟨label, .nil⟩).roots (b.push ⟨label, .nil⟩).frames
    rw [total_push, hcount]
    rfl
  | finish stop =>
    obtain ⟨count, frames, roots⟩ := b
    cases frames with
    | nil => exact ⟨hcount, hframes⟩
    | cons f outer =>
      refine ⟨?_, numbered_push (b := ⟨count, outer, roots⟩) hframes.2 _⟩
      show (push ⟨count, outer, roots⟩ (f.close stop)).count = Frame.total
        (push ⟨count, outer, roots⟩ (f.close stop)).roots
        (push ⟨count, outer, roots⟩ (f.close stop)).frames
      rw [count_push, total_push]
      simp only [Frame.total] at hcount
      simp only [Tree.size, Frame.close, Frame.inside] at hcount ⊢
      omega

/-- A new record, entered in the innermost open node. -/
theorem arena_add {b : Builder} (h : b.Numbered) (label : Label) :
    b.arena.add label =
      ⟨Frame.records b.roots (some b.count) b.frames ++
        [⟨label, b.frames.head?.map (·.id), []⟩], b.frames.map (·.id)⟩ := by
  have hlen : b.arena.records.length = b.count := by
    rw [h.count]; exact Frame.length_records ..
  have hframes := h.frames
  rw [Arena.add, hlen]
  obtain ⟨count, frames, roots⟩ := b
  cases frames with
  | nil => rfl
  | cons f outer =>
    simp only [Frame.records_some hframes.1]
    rfl

/-- **Step by step, a builder is its arena.** A step has the same answer on both sides and leads to
the arena of the builder after it. -/
theorem arena_perform {b : Builder} (h : b.Numbered) (s : BuildStep) :
    b.arena.perform s = ((b.perform s).1, (b.perform s).2.arena) := by
  have hlen : b.arena.records.length = b.count := by
    rw [h.count]; exact Frame.length_records ..
  cases s with
  | start kind named pos =>
    rw [Arena.perform, hlen, arena_add h]
    simp [perform, start, arena, Frame.records, Frame.close, Frame.inside, Forest.ofTrees,
      Forest.records]
  | token label =>
    have hpush := records_push h.frames ⟨label, .nil⟩
    rw [← h.count] at hpush
    rw [Arena.perform, hlen, arena_add h]
    simp only [perform, token, arena, hpush, map_id_frames_push]
    rfl
  | finish stop =>
    obtain ⟨count, frames, roots⟩ := b
    cases frames with
    | nil => rfl
    | cons f outer =>
      have hid : f.id = Frame.total roots outer := h.frames.1
      have hpush := records_push (b := ⟨count, outer, roots⟩) h.frames.2 (f.close stop)
      have hat : f.id = (Frame.records roots (some f.id) outer).length := by
        rw [hid, Frame.length_records]
      simp only [← hid] at hpush
      simp only [perform, finish, arena, Arena.perform, List.map_cons, hpush, map_id_frames_push,
        Frame.records, modify_append_cons _ hat]
      simp [Frame.close, Frame.inside]

/-! ## Scripts -/

theorem numbered_run {b : Builder} (h : b.Numbered) (steps : List BuildStep) :
    (b.run steps).Numbered := by
  induction steps generalizing b with
  | nil => exact h
  | cons s steps ih => exact ih (numbered_perform h s)

theorem arena_run {b : Builder} (h : b.Numbered) (steps : List BuildStep) :
    b.arena.run steps = (b.run steps).arena := by
  induction steps generalizing b with
  | nil => rfl
  | cons s steps ih =>
    have hstep : (b.arena.perform s).2 = (b.perform s).2.arena := by rw [arena_perform h]
    rw [run_cons, ← ih (numbered_perform h s), ← hstep]
    rfl

/-! ## The end -/

/-- With no open node, an arena ends as its finished roots do. -/
theorem arena_build_ofTrees (ts : List Tree) :
    Arena.build ⟨(Forest.ofTrees ts).records none 0, []⟩ =
      (Tree.ofForest (Forest.ofTrees ts)).map Tree.records := by
  match ts with
  | [] => rfl
  | [t] =>
    have hrest : ((t.below.records (some 0) 1).any fun r => r.parent.isNone) = false := by
      rw [List.any_eq_false]
      intro r hr
      simp [Forest.parent_of_mem_records hr]
    simp [Arena.build, Forest.ofTrees, Forest.records, Tree.ofForest, hrest, Except.map,
      Tree.records_eq]
  | t :: u :: ts =>
    simp [Arena.build, Forest.ofTrees, Forest.records, Tree.ofForest, Except.map]

/-- **Builders and arenas end alike.** A script brings the records of the built tree into an arena,
and where there is no tree the arena fails for the same reason. -/
theorem build_arena (steps : List BuildStep) :
    (Arena.empty.run steps).build = ((empty.run steps).build).map Tree.records := by
  have hrun : Arena.empty.run steps = (empty.run steps).arena := arena_run numbered_empty steps
  rw [hrun, build]
  unfold depth arena
  cases (empty.run steps).frames with
  | nil => exact arena_build_ofTrees _
  | cons f outer => simp [Arena.build, Except.map]

end Builder

end MoveOutline
