/-!
# Points and positions

A **point** is a zero-based row and a column inside the row; columns count bytes. Points are
ordered by row, then by column. A **position** is a point together with the byte offset it
stands for.
-/
namespace MoveOutline

/-- A zero-based row, and a column in bytes inside that row. -/
structure Point where
  row : Nat
  column : Nat
  deriving DecidableEq, Repr

namespace Point

/-- The earlier row comes first, and in one row the smaller column. -/
instance : LT Point :=
  ⟨fun p q => p.row < q.row ∨ p.row = q.row ∧ p.column < q.column⟩

instance : LE Point :=
  ⟨fun p q => p.row < q.row ∨ p.row = q.row ∧ p.column ≤ q.column⟩

instance (p q : Point) : Decidable (p < q) :=
  inferInstanceAs (Decidable (p.row < q.row ∨ p.row = q.row ∧ p.column < q.column))

instance (p q : Point) : Decidable (p ≤ q) :=
  inferInstanceAs (Decidable (p.row < q.row ∨ p.row = q.row ∧ p.column ≤ q.column))

instance : Ord Point :=
  ⟨fun p q => (compare p.row q.row).then (compare p.column q.column)⟩

/-- Row and column with a colon between them. -/
def text (p : Point) : String :=
  toString p.row ++ ":" ++ toString p.column

/-- The points in ascending order. -/
def sorted (points : List Point) : List Point :=
  points.mergeSort fun p q => decide (p ≤ q)

/-! ## The order -/

theorem lt_iff {p q : Point} :
    p < q ↔ p.row < q.row ∨ p.row = q.row ∧ p.column < q.column := Iff.rfl

theorem le_iff {p q : Point} :
    p ≤ q ↔ p.row < q.row ∨ p.row = q.row ∧ p.column ≤ q.column := Iff.rfl

@[simp] theorem not_lt {p q : Point} : ¬ p < q ↔ q ≤ p := by
  simp only [lt_iff, le_iff]; omega

@[simp] theorem not_le {p q : Point} : ¬ p ≤ q ↔ q < p := by
  simp only [lt_iff, le_iff]; omega

theorem le_antisymm {p q : Point} (h : p ≤ q) (h' : q ≤ p) : p = q := by
  cases p; cases q
  simp only [le_iff] at h h'
  simp only [mk.injEq]; omega

theorem lt_of_lt_of_le {p q r : Point} (h : p < q) (h' : q ≤ r) : p < r := by
  simp only [lt_iff, le_iff] at *; omega

theorem lt_of_le_of_lt {p q r : Point} (h : p ≤ q) (h' : q < r) : p < r := by
  simp only [lt_iff, le_iff] at *; omega

theorem le_trans {p q r : Point} (h : p ≤ q) (h' : q ≤ r) : p ≤ r := by
  simp only [le_iff] at *; omega

theorem le_refl (p : Point) : p ≤ p := .inr ⟨rfl, Nat.le_refl _⟩

theorem le_of_lt {p q : Point} (h : p < q) : p ≤ q := by
  simp only [lt_iff, le_iff] at *; omega

end Point

/-- A byte offset and the point that it stands for. -/
structure Position where
  byte : Nat
  point : Point
  deriving DecidableEq, Repr

end MoveOutline
