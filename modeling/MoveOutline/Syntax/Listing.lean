import MoveOutline.Syntax.Builder
/-!
# Trees as listings

A **listing** writes a forest as one row per node, in pre-order, each with the node's depth. The
rows below a node are those that follow it with a larger depth.

**Results.**
* `Forest.ofListing_listing`: a forest can be read back from its listing.
-/
namespace MoveOutline

/-- One row of a listing. -/
structure Row where
  depth : Nat
  label : Label
  deriving DecidableEq, Repr

namespace Forest

/-- The rows of a forest whose roots have the given depth. -/
def listing (depth : Nat) : Forest → List Row
  | nil => []
  | cons label below rest => ⟨depth, label⟩ :: (below.listing (depth + 1) ++ rest.listing depth)

/-- The forest of a listing. -/
def ofListing : List Row → Forest
  | [] => nil
  | row :: rows =>
    cons row.label (ofListing (rows.takeWhile (row.depth < ·.depth)))
      (ofListing (rows.dropWhile (row.depth < ·.depth)))
termination_by rows => rows.length
decreasing_by
  · simpa using Nat.lt_succ_of_le (List.takeWhile_sublist _).length_le
  · simpa using Nat.lt_succ_of_le (List.dropWhile_sublist _).length_le

theorem le_depth_of_mem_listing {f : Forest} {depth : Nat} {row : Row}
    (h : row ∈ f.listing depth) : depth ≤ row.depth := by
  induction f generalizing depth with
  | nil => simp [listing] at h
  | cons l below rest ih ih' =>
    simp only [listing, List.mem_cons, List.mem_append] at h
    rcases h with rfl | h | h
    · exact Nat.le_refl _
    · exact Nat.le_of_succ_le (ih h)
    · exact ih' h

theorem listing_eq_nil_or_head (f : Forest) (depth : Nat) :
    f.listing depth = [] ∨ ∃ row rows, f.listing depth = row :: rows ∧ row.depth = depth := by
  cases f with
  | nil => exact .inl rfl
  | cons l below rest => exact .inr ⟨_, _, rfl, rfl⟩

theorem span_listing (below rest : Forest) (depth : Nat) :
    (below.listing (depth + 1) ++ rest.listing depth).takeWhile (depth < ·.depth) =
        below.listing (depth + 1) ∧
      (below.listing (depth + 1) ++ rest.listing depth).dropWhile (depth < ·.depth) =
        rest.listing depth := by
  have hall : ∀ row ∈ below.listing (depth + 1), decide (depth < row.depth) = true :=
    fun _ h => decide_eq_true (le_depth_of_mem_listing h)
  rw [List.takeWhile_append_of_pos hall, List.dropWhile_append_of_pos hall]
  rcases rest.listing_eq_nil_or_head depth with h | ⟨row, rows, h, hd⟩
  · simp [h]
  · simp [h, hd]

theorem ofListing_listing (f : Forest) (depth : Nat) : ofListing (f.listing depth) = f := by
  induction f generalizing depth with
  | nil => simp [listing, ofListing]
  | cons l below rest ih ih' =>
    obtain ⟨h, h'⟩ := span_listing below rest depth
    rw [listing, ofListing]
    simp only [h, h', ih, ih']

end Forest

/-- The tree of a listing, which must have one root. -/
def Tree.ofListing (rows : List Row) : Except SyntaxError Tree :=
  Tree.ofForest (Forest.ofListing rows)

end MoveOutline
