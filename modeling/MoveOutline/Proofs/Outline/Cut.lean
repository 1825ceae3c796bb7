import MoveOutline.Proofs.Outline.Modules
/-!
# Outlines under a limit

A limit of `b` nodes cuts an outline at the node with id `b`, which is the last one that is paid
for. The modules up to there are listed, and of their members those up to there, each of them
complete; and a warning tells that nodes were left out.

Results:
* `Tree.filter_le_isPrefix`: nodes up to an id are the first ones of a list in pre-order.
* `outline_limit`: the outline with a limit beside the one without.
-/
namespace MoveOutline

namespace Tree

theorem filter_le_isPrefix {b b' : Nat} (hb : b ≤ b') (ns : List Node)
    (hns : ns.Pairwise fun x y => x.id < y.id) :
    ns.filter (fun n => decide (n.id ≤ b)) <+: ns.filter fun n => decide (n.id ≤ b') := by
  induction ns with
  | nil => exact List.prefix_refl _
  | cons n ns ih =>
    obtain ⟨hn, hns⟩ := List.pairwise_cons.1 hns
    by_cases h : n.id ≤ b
    · have h' : n.id ≤ b' := Nat.le_trans h hb
      rw [List.filter_cons, List.filter_cons, if_pos (decide_eq_true h),
        if_pos (decide_eq_true h')]
      exact (List.prefix_cons_inj n).2 (ih hns)
    · have hnil : (n :: ns).filter (fun n => decide (n.id ≤ b)) = [] := by
        rw [List.filter_eq_nil_iff]
        intro x hx
        rcases List.mem_cons.1 hx with rfl | hx
        · simpa using h
        · have := hn x hx
          simp only [decide_eq_true_eq]; omega
      rw [hnil]; exact List.nil_prefix

variable {t : Tree}

theorem mem_nodes_of_mem_outermostModules {m : Node} (h : m ∈ t.outermostModules) :
    m ∈ t.nodes :=
  List.mem_of_mem_filter h

theorem pairwise_id_outermostModules : t.outermostModules.Pairwise fun x y => x.id < y.id :=
  t.pairwise_id_nodes.filter _

end Tree

/-- **A node budget cuts an extraction exactly at a pre-order prefix.** With and without a limit
the outline lists the same records, of the modules and of the members that have an id of at most
`b` in the one case and of all of them in the other. There is a warning exactly if nodes are left
out. So a limit that is large enough changes nothing, and a larger limit extends the outline. -/
theorem outline_limit (settings : Settings) (t : Tree) (source : String) (hs : source ≠ "")
    (b : Nat) :
    let whole := outline { settings with nodeBudget := none } t source
    let cut (b : Nat) := outline { settings with nodeBudget := some b } t source
    whole.value = t.outermostModules.map (t.moduleRecord settings source fun _ => true) ∧
      (cut b).value = (t.outermostModules.filter (·.id ≤ b)).map
        (t.moduleRecord settings source (·.id ≤ b)) ∧
      (cut b).events =
        (if b < t.size - 1 then [.extractionStopped b (cut b).value.length] else []) ∧
      (t.size - 1 ≤ b → (cut b).value = whole.value) ∧
      ∀ b', b ≤ b' → ∃ first later, (cut b').value = first ++ later ∧
        List.Forall₂ ModuleDecl.IsStartOf (cut b).value first := by
  intro whole cut
  have hwhole : whole.value =
      t.outermostModules.map (t.moduleRecord settings source fun _ => true) :=
    outline_value_unlimited { settings with nodeBudget := none } t source hs rfl
  have hcut (b : Nat) : (cut b).value = (t.outermostModules.filter (·.id ≤ b)).map
      (t.moduleRecord settings source (·.id ≤ b)) :=
    outline_value { settings with nodeBudget := some b } t source hs
  refine ⟨hwhole, hcut b, outline_events _ t source hs b rfl, ?_, ?_⟩
  · intro hb
    have hall : ∀ n ∈ t.nodes, decide (n.id ≤ b) = true := by
      intro n hn
      have := Tree.id_lt_size hn
      exact decide_eq_true (by omega)
    rw [hwhole, hcut, List.filter_eq_self.2 fun m hm =>
      hall m (Tree.mem_nodes_of_mem_outermostModules hm)]
    apply List.map_congr_left
    intro m hm
    have hmem := Tree.mem_nodes_of_mem_outermostModules hm
    have hbelow : ∀ x ∈ m.below, decide (x.id ≤ b) = true := fun x hx =>
      hall x (Tree.mem_nodes_of_mem_preorder hmem (List.mem_cons_of_mem _ hx))
    rw [Tree.moduleRecord, Tree.moduleRecord, List.filter_eq_self.2 hbelow, List.filter_true]
  · intro b' hb
    obtain ⟨later, hlater⟩ := Tree.filter_le_isPrefix hb _ t.pairwise_id_outermostModules
    rw [hcut, hcut, ← hlater, List.map_append]
    refine ⟨_, _, rfl, ?_⟩
    rw [List.forall₂_map_left_iff, List.forall₂_map_right_iff, List.forall₂_same]
    intro m _
    exact ModuleDecl.ofMembers_isStartOf _ _ _ _
      (Tree.filter_le_isPrefix hb _ m.pairwise_id_below)

/-- A limit of seven nodes ends before the constant of the first module. -/
theorem outline_limit_twoModules : twoModulesText ≠ "" ∧
    (outline { nodeBudget := some 7 } twoModules twoModulesText).value =
      (twoModules.outermostModules.filter (·.id ≤ 7)).map
        (twoModules.moduleRecord {} twoModulesText (·.id ≤ 7)) ∧
    outline { nodeBudget := some 7 } twoModules twoModulesText =
      ⟨[{ name := "A", address := some "0x1" }], [.extractionStopped 7 1]⟩ :=
  ⟨by decide, (outline_limit {} twoModules twoModulesText (by decide) 7).2.1, by decide +kernel⟩

end MoveOutline
