/-!
# Node budgets

A **budget** bounds how many nodes one walk may visit. A walk pays before each node. When it
cannot pay, the walk ends and the budget is overdrawn from then on.

**Results.**
* `Budget.take_left`: a budget of `n` nodes buys the first `n` items of a list, and is overdrawn
  exactly when the list has more.
-/
namespace MoveOutline

/-- What is left of a limit on the nodes that one walk may visit. -/
inductive Budget where
  | unbounded
  /-- So many nodes may still be visited. -/
  | left (nodes : Nat)
  /-- A node could not be paid for. -/
  | overdrawn
  deriving DecidableEq, Repr

namespace Budget

/-- No limit, or as many nodes as the limit says. -/
def ofLimit : Option Nat → Budget
  | none => unbounded
  | some n => left n

/-- Pays for one node: whether that was possible, and what is left. -/
def spend : Budget → Bool × Budget
  | unbounded => (true, unbounded)
  | left (n + 1) => (true, left n)
  | left 0 => (false, overdrawn)
  | overdrawn => (false, overdrawn)

/-- The items that can be paid for, up to the first that cannot, and what is left. -/
def take {α : Type} (b : Budget) : List α → List α × Budget
  | [] => ([], b)
  | x :: xs =>
    match b.spend with
    | (false, b) => ([], b)
    | (true, b) =>
      let (bought, b) := b.take xs
      (x :: bought, b)

variable {α : Type}

@[simp] theorem take_nil (b : Budget) : b.take ([] : List α) = ([], b) := rfl

@[simp] theorem take_unbounded (xs : List α) : unbounded.take xs = (xs, unbounded) := by
  induction xs with
  | nil => rfl
  | cons x xs ih => simp [take, spend, ih]

theorem take_left (n : Nat) (xs : List α) : (left n).take xs =
    (xs.take n, if xs.length ≤ n then left (n - xs.length) else overdrawn) := by
  induction xs generalizing n with
  | nil => simp
  | cons x xs ih =>
    cases n with
    | zero => simp [take, spend]
    | succ n => simp [take, spend, ih]

end Budget

end MoveOutline
