import Mathlib.Data.List.TakeWhile
import MoveOutline.Proofs.Syntax.Ancestry
import MoveOutline.Syntax.Locate
/-!
# The node at a point

A node **covers** a point from its start up to, but not including, its end. It **touches** a point
when it is not empty and the point is covered or right behind the node. A tree is **well nested**
when no range is reversed, children lie in their parents, and of two neighbouring children the
first ends before the second starts. Parsers hand over such trees for the text they have read.

The node at a point is then told by three conditions that do not mention the way down to it
(`Tree.InnermostAt`): everything that covers the point is at or above it, it touches the point
unless it is the root, and nothing below it touches the point.

Results:
* `Node.touches_of_toward?`: in any tree, a step down enters a node that touches the point.
* `Tree.WellNested.nested_or_apart`: two nodes of a well nested tree lie one in the other or one
  behind the other.
* `Tree.WellNested.innermostAt_iff`: exactly one node of a well nested tree meets the three
  conditions, and it is the one that the look-up finds.
-/
namespace MoveOutline

namespace Node

/-- The point lies at or behind the start of the node and before its end. -/
def Covers (n : Node) (p : Point) : Prop :=
  n.start ≤ p ∧ p < n.stop

/-- The node is not empty, and the point lies in it or right behind it. -/
def Touches (n : Node) (p : Point) : Prop :=
  n.start < n.stop ∧ n.start ≤ p ∧ p ≤ n.stop

instance (n : Node) (p : Point) : Decidable (n.Covers p) :=
  inferInstanceAs (Decidable (_ ∧ _))

instance (n : Node) (p : Point) : Decidable (n.Touches p) :=
  inferInstanceAs (Decidable (_ ∧ _))

theorem Covers.touches {n : Node} {p : Point} (h : n.Covers p) : n.Touches p :=
  ⟨Point.lt_of_le_of_lt h.1 h.2, h.1, Point.le_of_lt h.2⟩

/-- A node behind one that touches the point covers it, if it touches it at all. -/
theorem Touches.covers_of_behind {m n : Node} {p : Point} (hm : m.Touches p) (hn : n.Touches p)
    (h : m.stop ≤ n.start) : n.Covers p := by
  have hp : p ≤ n.start := Point.le_trans hm.2.2 h
  exact ⟨hn.2.1, Point.lt_of_le_of_lt hp hn.1⟩

/-! ## One step down, in any tree -/

theorem start_le_of_mem_reached {n c : Node} {p : Point} (h : c ∈ n.reached p) : c.start ≤ p := by
  simpa using List.mem_takeWhile_imp h

theorem touches_of_toward? {n c : Node} {p : Point} (h : n.toward? p = some c) : c.Touches p := by
  unfold toward? at h
  split at h
  · next d hd =>
    cases h
    have hs := start_le_of_mem_reached (List.mem_of_find?_eq_some hd)
    have he : p < c.stop := by simpa using List.find?_some hd
    exact Covers.touches ⟨hs, he⟩
  · obtain ⟨hd, hne⟩ := Option.filter_eq_some_iff.1 h
    have hs := start_le_of_mem_reached (List.mem_of_find?_eq_some hd)
    have he : p = c.stop := by simpa using List.find?_some hd
    exact ⟨by simpa using hne, hs, he ▸ Point.le_refl p⟩

theorem descendTo_of_none {n : Node} {p : Point} (h : n.toward? p = none) :
    n.descendTo p = n := by
  rw [descendTo]; split
  · rfl
  · next hc => rw [h] at hc; cases hc

theorem descendTo_of_some {n c : Node} {p : Point} (h : n.toward? p = some c) :
    n.descendTo p = c.descendTo p := by
  rw [descendTo]; split
  · next hc => rw [h] at hc; cases hc
  · next d hd => rw [h] at hd; cases hd; rfl

/-- Induction along the way down to a point. -/
theorem descent_induction {p : Point} {motive : Node → Prop}
    (stay : ∀ n, n.toward? p = none → motive n)
    (enter : ∀ n c, n.toward? p = some c → motive c → motive n) (n : Node) : motive n := by
  induction n using children_induction with
  | step n ih =>
    cases h : n.toward? p with
    | none => exact stay n h
    | some c => exact enter n c h (ih c (mem_children_of_toward? h))

theorem descendTo_mem_preorder (n : Node) (p : Point) : n.descendTo p ∈ n.preorder := by
  induction n using descent_induction (p := p) with
  | stay n h => rw [descendTo_of_none h]; exact n.self_mem_preorder
  | enter n c h ih =>
    rw [descendTo_of_some h]
    exact mem_preorder_iff_eq_or.2 (.inr ⟨c, mem_children_of_toward? h, ih⟩)

theorem descendTo_eq_or_touches (n : Node) (p : Point) :
    n.descendTo p = n ∨ (n.descendTo p).Touches p := by
  induction n using descent_induction (p := p) with
  | stay n h => exact .inl (descendTo_of_none h)
  | enter n c h ih =>
    right
    rw [descendTo_of_some h]
    rcases ih with ih | ih
    · rw [ih]; exact touches_of_toward? h
    · exact ih

theorem toward?_descendTo (n : Node) (p : Point) : (n.descendTo p).toward? p = none := by
  induction n using descent_induction (p := p) with
  | stay n h => rw [descendTo_of_none h]; exact h
  | enter n c h ih => rw [descendTo_of_some h]; exact ih

end Node

theorem Tree.descendantAt_mem_nodes (t : Tree) (p : Point) : t.descendantAt p ∈ t.nodes :=
  t.root.descendTo_mem_preorder p

/-! ## Well nested trees -/

/-- No range is reversed, every child lies in its parent, and of two neighbouring children the
first ends no later than the second starts. -/
structure Tree.WellNested (t : Tree) : Prop where
  ordered : ∀ n ∈ t.nodes, n.start ≤ n.stop
  inside : ∀ n ∈ t.nodes, ∀ c ∈ n.children, n.start ≤ c.start ∧ c.stop ≤ n.stop
  apart : ∀ n ∈ t.nodes, n.children.IsChain fun c d => c.stop ≤ d.start

instance (t : Tree) : Decidable t.WellNested :=
  decidable_of_iff
    ((∀ n ∈ t.nodes, n.start ≤ n.stop) ∧
      (∀ n ∈ t.nodes, ∀ c ∈ n.children, n.start ≤ c.start ∧ c.stop ≤ n.stop) ∧
      ∀ n ∈ t.nodes, n.children.IsChain fun c d => c.stop ≤ d.start)
    ⟨fun h => ⟨h.1, h.2.1, h.2.2⟩, fun h => ⟨h.ordered, h.inside, h.apart⟩⟩

/-- Neighbours apart are all apart, as long as no range is reversed. -/
theorem Node.pairwise_of_isChain : ∀ {ns : List Node}, (∀ n ∈ ns, n.start ≤ n.stop) →
    (ns.IsChain fun c d => c.stop ≤ d.start) → ns.Pairwise fun c d => c.stop ≤ d.start
  | [], _, _ => List.Pairwise.nil
  | [c], _, _ => List.pairwise_singleton _ c
  | c :: d :: ns, ho, hc => by
    obtain ⟨hcd, hrest⟩ := List.isChain_cons_cons.1 hc
    have hp := pairwise_of_isChain (fun n hn => ho n (List.mem_cons_of_mem _ hn)) hrest
    refine List.pairwise_cons.2 ⟨?_, hp⟩
    intro e he
    rcases List.mem_cons.1 he with rfl | he
    · exact hcd
    · have hd : d.start ≤ d.stop := ho d (by simp)
      have hde : d.stop ≤ e.start := (List.pairwise_cons.1 hp).1 e he
      exact Point.le_trans hcd (Point.le_trans hd hde)

namespace Tree.WellNested

variable {t : Tree} (h : t.WellNested)
include h

theorem pairwise_children {n : Node} (hn : n ∈ t.nodes) :
    n.children.Pairwise fun c d => c.stop ≤ d.start :=
  Node.pairwise_of_isChain (fun c hc => h.ordered c (mem_nodes_of_mem_children hn hc))
    (h.apart n hn)

theorem children_apart {n c d : Node} (hn : n ∈ t.nodes) (hc : c ∈ n.children)
    (hd : d ∈ n.children) : c = d ∨ c.stop ≤ d.start ∨ d.stop ≤ c.start := by
  have hp := h.pairwise_children hn
  refine List.Pairwise.forall_of_forall_of_flip
    (R := fun c d => c = d ∨ c.stop ≤ d.start ∨ d.stop ≤ c.start) ?_ ?_ ?_ hc hd
  · intro x _; exact .inl rfl
  · exact hp.imp fun hxy => .inr (.inl hxy)
  · exact hp.imp fun hyx => .inr (.inr hyx)

theorem range_of_mem_preorder {n x : Node} (hn : n ∈ t.nodes) (hx : x ∈ n.preorder) :
    n.start ≤ x.start ∧ x.stop ≤ n.stop := by
  induction n using Node.children_induction with
  | step n ih =>
    rcases Node.mem_preorder_iff_eq_or.1 hx with rfl | ⟨c, hc, hxc⟩
    · exact ⟨Point.le_refl _, Point.le_refl _⟩
    · obtain ⟨hs, he⟩ := h.inside n hn c hc
      obtain ⟨hs', he'⟩ := ih c hc (mem_nodes_of_mem_children hn hc) hxc
      exact ⟨Point.le_trans hs hs', Point.le_trans he' he⟩

theorem covers_of_mem_preorder {n x : Node} {p : Point} (hn : n ∈ t.nodes)
    (hx : x ∈ n.preorder) (hp : x.Covers p) : n.Covers p := by
  obtain ⟨hs, he⟩ := h.range_of_mem_preorder hn hx
  exact ⟨Point.le_trans hs hp.1, Point.lt_of_lt_of_le hp.2 he⟩

theorem touches_of_mem_preorder {n x : Node} {p : Point} (hn : n ∈ t.nodes)
    (hx : x ∈ n.preorder) (hp : x.Touches p) : n.Touches p := by
  obtain ⟨hs, he⟩ := h.range_of_mem_preorder hn hx
  obtain ⟨hne, hsp, hpe⟩ := hp
  have hlt : n.start < n.stop := Point.lt_of_le_of_lt hs (Point.lt_of_lt_of_le hne he)
  exact ⟨hlt, Point.le_trans hs hsp, Point.le_trans hpe he⟩

/-- **Nested or apart.** Of two nodes one lies in the subtree of the other, or one ends no later
than the other starts. -/
theorem nested_or_apart {a b : Node} (ha : a ∈ t.nodes) (hb : b ∈ t.nodes) :
    a ∈ b.preorder ∨ b ∈ a.preorder ∨ a.stop ≤ b.start ∨ b.stop ≤ a.start := by
  -- downwards from a common ancestor `q`, until `a` and `b` lie below different children
  have split : ∀ q ∈ t.nodes, a ∈ q.preorder → b ∈ q.preorder →
      a ∈ b.preorder ∨ b ∈ a.preorder ∨ a.stop ≤ b.start ∨ b.stop ≤ a.start := by
    intro q
    induction q using Node.children_induction with
    | step q ih =>
      intro hq haq hbq
      rcases Node.mem_preorder_iff_eq_or.1 haq with rfl | ⟨c, hc, hac⟩
      · exact .inr (.inl hbq)
      rcases Node.mem_preorder_iff_eq_or.1 hbq with rfl | ⟨d, hd, hbd⟩
      · exact .inl haq
      have hcn := mem_nodes_of_mem_children hq hc
      have hdn := mem_nodes_of_mem_children hq hd
      have hra := h.range_of_mem_preorder hcn hac
      have hrb := h.range_of_mem_preorder hdn hbd
      rcases h.children_apart hq hc hd with rfl | hcd | hdc
      · exact ih c hc hcn hac hbd
      · exact .inr (.inr (.inl (Point.le_trans hra.2 (Point.le_trans hcd hrb.1))))
      · exact .inr (.inr (.inr (Point.le_trans hrb.2 (Point.le_trans hdc hra.1))))
  exact split t.root t.root_mem_nodes ha hb

/-! ## One step down -/

/-- Behind a child that starts at or before the point, the scan of the children is still on. -/
theorem reached_of_start_le {n c : Node} {p : Point} {before after : List Node}
    (hn : n ∈ t.nodes) (hs : n.children = before ++ c :: after) (hc : c.start ≤ p) :
    (∀ d ∈ before, d.stop ≤ c.start) ∧
      n.reached p = before ++ c :: after.takeWhile fun d => d.start ≤ p := by
  have hp := h.pairwise_children hn
  rw [hs, List.pairwise_append] at hp
  have hb : ∀ d ∈ before, d.stop ≤ c.start := fun d hd => hp.2.2 d hd c List.mem_cons_self
  refine ⟨hb, ?_⟩
  have hall : ∀ d ∈ before, decide (d.start ≤ p) = true := by
    intro d hd
    have hdn : d ∈ n.children := by rw [hs]; exact List.mem_append_left _ hd
    have hdo := h.ordered d (mem_nodes_of_mem_children hn hdn)
    exact decide_eq_true (Point.le_trans hdo (Point.le_trans (hb d hd) hc))
  rw [Node.reached, hs, List.takeWhile_append_of_pos hall, List.takeWhile_cons,
    if_pos (decide_eq_true hc)]

/-- A child that covers the point is entered. -/
theorem toward?_of_covers {n c : Node} {p : Point} (hn : n ∈ t.nodes) (hc : c ∈ n.children)
    (hp : c.Covers p) : n.toward? p = some c := by
  obtain ⟨before, after, hs⟩ := List.append_of_mem hc
  obtain ⟨hb, hr⟩ := h.reached_of_start_le hn hs hp.1
  have hnone : before.find? (fun d => decide (p < d.stop)) = none := by
    rw [List.find?_eq_none]
    intro d hd
    simpa using Point.le_trans (hb d hd) hp.1
  have hfind : (n.reached p).find? (fun d => decide (p < d.stop)) = some c := by
    rw [hr, List.find?_append, hnone, List.find?_cons, decide_eq_true hp.2]; rfl
  rw [Node.toward?, hfind]

/-- Where a child touches the point, the way down goes on. -/
theorem toward?_ne_none {n c : Node} {p : Point} (hn : n ∈ t.nodes) (hc : c ∈ n.children)
    (hp : c.Touches p) : n.toward? p ≠ none := by
  by_cases hlt : p < c.stop
  · rw [h.toward?_of_covers hn hc ⟨hp.2.1, hlt⟩]; simp
  · have he : p = c.stop := Point.le_antisymm hp.2.2 (Point.not_lt.1 hlt)
    obtain ⟨before, after, hs⟩ := List.append_of_mem hc
    obtain ⟨hb, hr⟩ := h.reached_of_start_le hn hs hp.2.1
    -- no earlier child ends at the point: it would end before the non-empty `c` starts
    have hnone : before.find? (fun d => decide (p = d.stop)) = none := by
      rw [List.find?_eq_none]
      intro d hd heq
      have hcs : p ≤ c.start := of_decide_eq_true heq ▸ hb d hd
      have hne := Point.lt_of_le_of_lt hcs hp.1
      exact absurd (he ▸ hne) (Point.not_lt.2 (he ▸ Point.le_refl p))
    have hfind : (n.reached p).find? (fun d => decide (p = d.stop)) = some c := by
      rw [hr, List.find?_append, hnone, List.find?_cons, decide_eq_true he]; rfl
    intro htw
    rw [Node.toward?, hfind] at htw
    split at htw
    · cases htw
    · have hle : c.stop ≤ c.start := by simpa using htw
      exact Point.not_lt.2 hle hp.1

/-! ## The whole way down -/

/-- What covers the point is never left on the way down. -/
theorem descendTo_mem_of_covers {n x : Node} {p : Point} (hn : n ∈ t.nodes)
    (hx : x ∈ n.preorder) (hp : x.Covers p) : n.descendTo p ∈ x.preorder := by
  induction n using Node.descent_induction (p := p) with
  | stay n hstay =>
    rcases Node.mem_preorder_iff_eq_or.1 hx with rfl | ⟨c, hc, hxc⟩
    · rw [Node.descendTo_of_none hstay]; exact x.self_mem_preorder
    · have hcp := h.covers_of_mem_preorder (mem_nodes_of_mem_children hn hc) hxc hp
      rw [h.toward?_of_covers hn hc hcp] at hstay
      cases hstay
  | enter n c hc ih =>
    have hcn := mem_nodes_of_mem_children hn (Node.mem_children_of_toward? hc)
    rw [Node.descendTo_of_some hc]
    rcases Node.mem_preorder_iff_eq_or.1 hx with rfl | ⟨d, hd, hxd⟩
    · exact Node.mem_preorder_trans
        (Node.mem_preorder_of_mem_children (Node.mem_children_of_toward? hc))
        (c.descendTo_mem_preorder p)
    · have hdp := h.covers_of_mem_preorder (mem_nodes_of_mem_children hn hd) hxd hp
      have hdc : d = c := by
        rw [h.toward?_of_covers hn hd hdp] at hc; exact Option.some.inj hc
      subst hdc
      exact ih hcn hxd

/-- Nothing below the end of the way down touches the point. -/
theorem not_touches_below_descendTo {n d : Node} {p : Point} (hn : n ∈ t.nodes)
    (hd : d ∈ (n.descendTo p).below) : ¬ d.Touches p := by
  intro hp
  have hr : n.descendTo p ∈ t.nodes :=
    mem_nodes_of_mem_preorder hn (n.descendTo_mem_preorder p)
  obtain ⟨c, hc, hdc⟩ := Node.mem_below_iff.1 hd
  have hcp := h.touches_of_mem_preorder (mem_nodes_of_mem_children hr hc) hdc hp
  exact h.toward?_ne_none hr hc hcp (n.toward?_descendTo p)

end Tree.WellNested

/-! ## The node at a point -/

/-- What makes `r` the node at a point. -/
structure Tree.InnermostAt (t : Tree) (p : Point) (r : Node) : Prop where
  /-- Every node that covers the point is `r` or an ancestor of `r`. -/
  covers : ∀ n ∈ t.nodes, n.Covers p → n = r ∨ n ∈ r.ancestors
  /-- Unless it is the root, `r` touches the point. -/
  touches : r = t.root ∨ r.Touches p
  /-- No proper descendant of `r` touches the point. -/
  innermost : ∀ d ∈ t.nodes, r ∈ d.ancestors → ¬ d.Touches p

namespace Tree.WellNested

variable {t : Tree} (h : t.WellNested)
include h

theorem innermostAt_descendantAt (p : Point) : t.InnermostAt p (t.descendantAt p) where
  covers n hn hp := by
    have hr : t.descendantAt p ∈ n.preorder :=
      h.descendTo_mem_of_covers t.root_mem_nodes hn hp
    rcases (mem_preorder_iff (t.descendantAt_mem_nodes p)).1 hr with he | ha
    · exact .inl he.symm
    · exact .inr ha
  touches := t.root.descendTo_eq_or_touches p
  innermost d hd ha := by
    have hdr := mem_preorder_of_mem_ancestors hd ha
    rw [Node.preorder_eq] at hdr
    rcases List.mem_cons.1 hdr with rfl | hdr
    · intro _
      exact absurd ha (Node.not_mem_ancestors_self _)
    · exact h.not_touches_below_descendTo t.root_mem_nodes hdr

/-- At most one node is the node at a point. -/
theorem innermostAt_unique {p : Point} {r s : Node} (hr : r ∈ t.nodes) (hs : s ∈ t.nodes)
    (hrp : t.InnermostAt p r) (hsp : t.InnermostAt p s) : r = s := by
  by_contra hne
  -- neither lies below the other, for it would touch the point there
  have apart : ∀ {a b : Node}, a ∈ t.nodes → t.InnermostAt p a → t.InnermostAt p b → a ≠ b →
      b ∉ a.ancestors := by
    intro a b ha hap hbp hab hmem
    rcases hap.touches with rfl | hat
    · cases hmem
    · exact hbp.innermost a ha hmem hat
  have hsr := apart hr hrp hsp hne
  have hrs := apart hs hsp hrp (Ne.symm hne)
  -- and so neither is the root
  have touches : ∀ {a b : Node}, b ∈ t.nodes → t.InnermostAt p a → a ≠ b → a ∉ b.ancestors →
      a.Touches p := by
    intro a b hb hap hab hnot
    rcases hap.touches with rfl | hat
    · rcases (mem_preorder_iff hb).1 hb with rfl | hroot
      · exact absurd rfl hab
      · exact absurd hroot hnot
    · exact hat
  have hrt := touches hs hrp hne hrs
  have hst := touches hr hsp (Ne.symm hne) hsr
  rcases h.nested_or_apart hr hs with hin | hin | hle | hle
  · rcases (mem_preorder_iff hr).1 hin with he | ha
    · exact hne he
    · exact hsr ha
  · rcases (mem_preorder_iff hs).1 hin with he | ha
    · exact hne he.symm
    · exact hrs ha
  · rcases hrp.covers s hs (hrt.covers_of_behind hst hle) with he | ha
    · exact hne he.symm
    · exact hsr ha
  · rcases hsp.covers r hr (hst.covers_of_behind hrt hle) with he | ha
    · exact hne he
    · exact hrs ha

end Tree.WellNested

/-- **Position lookup is exact.** In a well nested tree, one node meets the three conditions on
the node at a point, namely the one that the look-up finds; and it is the root for every point
outside the root. -/
theorem Tree.innermostAt_iff {t : Tree} (h : t.WellNested) (p : Point) :
    t.descendantAt p ∈ t.nodes ∧
      (∀ r ∈ t.nodes, t.InnermostAt p r ↔ r = t.descendantAt p) ∧
      (¬ (t.root.start ≤ p ∧ p ≤ t.root.stop) → t.descendantAt p = t.root) := by
  have hmem := t.descendantAt_mem_nodes p
  have hat := h.innermostAt_descendantAt p
  refine ⟨hmem, ?_, ?_⟩
  · intro r hr
    constructor
    · intro hrp
      exact h.innermostAt_unique hr hmem hrp hat
    · rintro rfl
      exact hat
  · intro hout
    rcases hat.touches with he | ht
    · exact he
    · have hroot := h.touches_of_mem_preorder t.root_mem_nodes hmem ht
      exact absurd hroot.2 hout

/-- Two tokens and an empty node at one point, below a node that ends behind them. -/
def tokensInLine : Tree :=
  ⟨.onLine "line" 0 9,
    .cons (.onLine "word" 0 4) (.cons (.onLine "letter" 1 4) .nil .nil) <|
    .cons (.onLine "gap" 4 4) .nil <|
    .cons (.onLine "word" 4 9)
      (.cons (.onLine "letter" 5 7) .nil <| .cons (.onLine "gap" 7 7) .nil .nil) .nil⟩

/-- At the end of the first word the second one is found, which covers the point; at the end of a
letter inside it that letter is, and not the empty node behind it. -/
theorem innermostAt_tokensInLine : tokensInLine.WellNested ∧
    (∀ r ∈ tokensInLine.nodes,
      tokensInLine.InnermostAt ⟨0, 7⟩ r ↔ r = tokensInLine.descendantAt ⟨0, 7⟩) ∧
    (tokensInLine.descendantAt ⟨0, 4⟩).id = 4 ∧ (tokensInLine.descendantAt ⟨0, 7⟩).id = 5 :=
  ⟨by decide +kernel, (Tree.innermostAt_iff (by decide +kernel) ⟨0, 7⟩).2.1, by decide +kernel,
    by decide +kernel⟩

end MoveOutline
