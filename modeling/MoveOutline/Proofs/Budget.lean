import MoveOutline.Budget
/-!
# Limits and ids

What a budget buys, said without its states. A walk under a limit buys the first items of a list
(`admitted`). A walk that meets nodes in the order of their ids, from 1 on, buys the nodes whose
id is `within` the limit, and what is left at any time follows from the next id alone (`before`).

Results:
* `Budget.take_ofLimit`: a fresh budget buys the admitted items, and is overdrawn exactly when
  there are more.
* `Budget.spend_before`, `Budget.take_before`: paying for the nodes in the order of their ids.
-/
namespace MoveOutline.Budget

variable {α : Type}

/-- The items that a limit admits, which are the first so many. -/
def admitted (limit : Option Nat) (xs : List α) : List α :=
  match limit with
  | none => xs
  | some n => xs.take n

theorem admitted_isPrefix (limit : Option Nat) (xs : List α) : admitted limit xs <+: xs := by
  cases limit with
  | none => exact List.prefix_refl xs
  | some n => exact List.take_prefix n xs

/-- What is left out lies behind the limit. -/
theorem lt_length_of_admitted_ne {limit : Option Nat} {xs : List α} (h : admitted limit xs ≠ xs) :
    limit.any (· < xs.length) = true := by
  cases limit with
  | none => exact absurd rfl h
  | some n =>
    rw [Option.any_some, decide_eq_true_eq, ← Nat.not_le]
    exact fun hle => h (List.take_of_length_le hle)

theorem take_ofLimit (limit : Option Nat) (xs : List α) :
    ((ofLimit limit).take xs).1 = admitted limit xs ∧
      (((ofLimit limit).take xs).2 = overdrawn ↔ limit.any (· < xs.length) = true) := by
  cases limit with
  | none => simp [ofLimit, admitted]
  | some n =>
    rw [ofLimit, take_left]
    refine ⟨rfl, ?_⟩
    by_cases h : xs.length ≤ n
    · simp [h]
    · simp [h, Nat.lt_of_not_le h]

theorem take_map {β : Type} (f : α → β) (budget : Budget) (xs : List α) :
    budget.take (xs.map f) = ((budget.take xs).1.map f, (budget.take xs).2) := by
  induction xs generalizing budget with
  | nil => rfl
  | cons x xs ih =>
    rw [List.map_cons, take, take]
    rcases budget.spend with ⟨_ | _, left⟩
    · rfl
    · simp only [ih, List.map_cons]

/-! ## Nodes in the order of their ids -/

/-- Whether a limit on the nodes below the root reaches the node with a given id. -/
def within (limit : Option Nat) (id : Nat) : Bool :=
  limit.all (id ≤ ·)

/-- What is left when the nodes below the root have been paid for up to a given id. -/
def before (limit : Option Nat) (id : Nat) : Budget :=
  match limit with
  | none => unbounded
  | some n => if id ≤ n + 1 then left (n + 1 - id) else overdrawn

@[simp] theorem within_none (id : Nat) : within none id = true := rfl

@[simp] theorem within_some (n id : Nat) : within (some n) id = decide (id ≤ n) := rfl

theorem within_of_le {limit : Option Nat} {i j : Nat} (hij : i ≤ j) (h : within limit j = true) :
    within limit i = true := by
  cases limit with
  | none => rfl
  | some n => simp only [within_some, decide_eq_true_eq] at h ⊢; omega

theorem ofLimit_eq_before (limit : Option Nat) : ofLimit limit = before limit 1 := by
  cases limit with
  | none => rfl
  | some n => simp [ofLimit, before]

theorem spend_before (limit : Option Nat) (id : Nat) :
    (before limit id).spend = (within limit id, before limit (id + 1)) := by
  cases limit with
  | none => rfl
  | some n =>
    by_cases h : id ≤ n
    · have hleft : n + 1 - id = (n - id) + 1 := by omega
      simp only [before, within_some, if_pos (show id ≤ n + 1 by omega),
        if_pos (show id + 1 ≤ n + 1 by omega), hleft, spend, h, decide_true]
      congr 2; omega
    · by_cases he : id = n + 1
      · subst he; simp [before, spend]
      · simp [before, spend, show ¬ id ≤ n + 1 by omega, h]

theorem before_of_not_within {limit : Option Nat} {i j : Nat} (hij : i < j)
    (h : within limit i = false) : before limit j = overdrawn := by
  cases limit with
  | none => cases h
  | some n =>
    simp only [within_some, decide_eq_false_iff_not] at h
    rw [before, if_neg (by omega)]

theorem before_eq_overdrawn_iff (n id : Nat) : before (some n) id = overdrawn ↔ n + 1 < id := by
  rw [before]
  split
  · simp; omega
  · simp; omega

/-- Behind the first node out of reach there is none within. -/
theorem filter_within_eq_nil {limit : Option Nat} {key : α → Nat} {id : Nat} {xs : List α}
    (h : within limit id = false) (hxs : ∀ x ∈ xs, id ≤ key x) :
    xs.filter (fun x => within limit (key x)) = [] := by
  rw [List.filter_eq_nil_iff]
  intro x hx hw
  rw [within_of_le (hxs x hx) hw] at h
  cases h

theorem take_before (limit : Option Nat) (key : α → Nat) (xs : List α) (id : Nat)
    (hxs : xs.map key = List.range' id xs.length) :
    (before limit id).take xs =
      (xs.filter fun x => within limit (key x), before limit (id + xs.length)) := by
  induction xs generalizing id with
  | nil => rfl
  | cons x xs ih =>
    rw [List.map_cons, List.length_cons, List.range'_succ, List.cons.injEq] at hxs
    obtain ⟨hx, hxs⟩ := hxs
    have hnext : id + (x :: xs).length = id + 1 + xs.length := by
      simp only [List.length_cons]; omega
    rw [take, spend_before, hnext]
    cases hw : within limit id with
    | true =>
      simp only [ih (id + 1) hxs]
      rw [List.filter_cons_of_pos (by rw [hx, hw])]
    | false =>
      have hge : ∀ y ∈ x :: xs, id ≤ key y := by
        intro y hy
        rcases List.mem_cons.1 hy with rfl | hy
        · exact Nat.le_of_eq hx.symm
        · have hmem : key y ∈ List.range' (id + 1) xs.length := by
            rw [← hxs]; exact List.mem_map_of_mem hy
          have := (List.mem_range'_1.1 hmem).1
          omega
      rw [filter_within_eq_nil hw hge, before_of_not_within (Nat.lt_succ_self id) hw,
        before_of_not_within (by omega) hw]

end MoveOutline.Budget
