import Mathlib.Data.List.TakeWhile
import MoveOutline.Text.Edit
/-!
# What cutting leaves of a text

Three ways to cut a text, each told by what it leaves and without the recursion that computes it:
the text before a character (`IsBefore`), without the blank characters around it (`IsTrimmed`) and
without a word (`IsErased`). Each of them leaves one text only.

Results:
* `isBefore_iff`, `isTrimmed_iff`, `isErased_iff`: what is left is what the function computes.
-/
namespace MoveOutline.Text

/-- `front` is what stands in `cs` before the first `c`, and all of `cs` if there is no `c`. -/
def IsBefore (c : Char) (cs front : List Char) : Prop :=
  c ∉ front ∧ (front = cs ∨ ∃ back, cs = front ++ c :: back)

/-- `inner` is `cs` without the blank characters at its two ends. -/
structure IsTrimmed (cs inner : List Char) : Prop where
  /-- Only blank characters have been taken away. -/
  around : ∃ front back, cs = front ++ inner ++ back ∧
    (∀ c ∈ front, isBlank c = true) ∧ ∀ c ∈ back, isBlank c = true
  /-- No blank character is left at the start. -/
  first : ∀ c ∈ inner.head?, isBlank c = false
  /-- No blank character is left at the end. -/
  last : ∀ c ∈ inner.getLast?, isBlank c = false

/-- `rest` is `cs` without the first occurrence of `word`, and all of `cs` if there is none. -/
def IsErased (word cs rest : List Char) : Prop :=
  (¬ word <:+: cs ∧ rest = cs) ∨
    ∃ front back, cs = front ++ word ++ back ∧ rest = front ++ back ∧
      ∀ front' back', cs = front' ++ word ++ back' → front.length ≤ front'.length

/-! ## Before a character -/

theorem isBefore_before (c : Char) (cs : List Char) : IsBefore c cs (before c cs) := by
  constructor
  · intro hmem
    simpa using List.mem_takeWhile_imp hmem
  · have hsplit : cs = before c cs ++ cs.dropWhile (· != c) := List.takeWhile_append_dropWhile.symm
    cases hback : cs.dropWhile (· != c) with
    | nil =>
      rw [hback, List.append_nil] at hsplit
      exact .inl hsplit.symm
    | cons b back =>
      have hb := List.head?_dropWhile_not (· != c) cs
      rw [hback] at hb
      obtain rfl : b = c := by simpa using hb
      rw [hback] at hsplit
      exact .inr ⟨back, hsplit⟩

theorem isBefore_iff {c : Char} {cs front : List Char} :
    IsBefore c cs front ↔ front = before c cs := by
  constructor
  · rintro ⟨hnot, hcs⟩
    have hfront : ∀ x ∈ front, (x != c) = true := by
      intro x hx
      rw [bne_iff_ne]
      rintro rfl
      exact hnot hx
    rcases hcs with rfl | ⟨back, rfl⟩
    · exact (List.takeWhile_eq_self_iff.2 hfront).symm
    · rw [before, List.takeWhile_append_of_pos hfront]
      simp
  · rintro rfl
    exact isBefore_before c cs

theorem before_of_notMem {c : Char} {cs : List Char} (h : c ∉ cs) : before c cs = cs :=
  (isBefore_iff.1 ⟨h, .inl rfl⟩).symm

/-- Nothing from a `c` on is looked at, also if another `c` stands before it. -/
theorem before_append_cons (c : Char) (cs rest : List Char) :
    before c (cs ++ c :: rest) = before c cs := by
  obtain ⟨hnot, hcs⟩ := isBefore_before c cs
  refine (isBefore_iff.1 ⟨hnot, .inr ?_⟩).symm
  rcases hcs with hall | ⟨back, hsplit⟩
  · exact ⟨rest, by rw [hall]⟩
  · refine ⟨back ++ c :: rest, ?_⟩
    calc cs ++ c :: rest
      _ = (before c cs ++ c :: back) ++ c :: rest := by rw [← hsplit]
      _ = before c cs ++ c :: (back ++ c :: rest) := List.append_assoc ..

/-! ## Blank characters at the ends -/

theorem exists_trimEnd_append (cs : List Char) :
    ∃ back, cs = trimEnd cs ++ back ∧ ∀ c ∈ back, isBlank c = true := by
  induction cs with
  | nil => exact ⟨[], rfl, by simp⟩
  | cons c cs ih =>
    obtain ⟨back, hcs, hback⟩ := ih
    rw [trimEnd_cons]
    split
    · next h =>
      rw [h.1, List.nil_append] at hcs
      refine ⟨c :: cs, rfl, ?_⟩
      rw [hcs]
      exact List.forall_mem_cons.2 ⟨h.2, hback⟩
    · exact ⟨back, by rw [List.cons_append, ← hcs], hback⟩

theorem getLast?_trimEnd (cs : List Char) : ∀ c ∈ (trimEnd cs).getLast?, isBlank c = false := by
  induction cs with
  | nil => simp [trimEnd]
  | cons c cs ih =>
    rw [trimEnd_cons]
    split
    · simp
    · next h =>
      cases hrest : trimEnd cs with
      | nil => simpa [hrest] using h
      | cons d ds => simpa [hrest] using ih

theorem trimEnd_append_blank {back : List Char} (h : ∀ c ∈ back, isBlank c = true)
    (cs : List Char) : trimEnd (cs ++ back) = trimEnd cs := by
  induction cs with
  | nil =>
    induction back with
    | nil => rfl
    | cons b back ih =>
      obtain ⟨hb, hback⟩ := List.forall_mem_cons.1 h
      have hnil : trimEnd back = [] := ih hback
      rw [List.nil_append, trimEnd_cons, if_pos ⟨hnil, hb⟩]
      rfl
  | cons c cs ih => rw [List.cons_append, trimEnd_cons, trimEnd_cons, ih]

theorem trimEnd_eq_self {cs : List Char} (h : ∀ c ∈ cs.getLast?, isBlank c = false) :
    trimEnd cs = cs := by
  induction cs with
  | nil => rfl
  | cons c cs ih =>
    rw [trimEnd_cons]
    cases cs with
    | nil =>
      have hc : isBlank c = false := h c rfl
      simp [trimEnd, hc]
    | cons d ds =>
      rw [ih (by simpa using h), if_neg (by simp)]

theorem isTrimmed_trim (cs : List Char) : IsTrimmed cs (trim cs) where
  around := by
    obtain ⟨back, hback, hblank⟩ := exists_trimEnd_append (cs.dropWhile isBlank)
    refine ⟨cs.takeWhile isBlank, back, ?_, fun c hc => List.mem_takeWhile_imp hc, hblank⟩
    rw [List.append_assoc, trim, ← hback, List.takeWhile_append_dropWhile]
  first := by
    intro c hc
    rw [trim] at hc
    cases hrest : cs.dropWhile isBlank with
    | nil => simp [hrest, trimEnd] at hc
    | cons d ds =>
      have hd : isBlank d = false := by
        have := List.head?_dropWhile_not isBlank cs
        simpa [hrest] using this
      rw [hrest, trimEnd_cons_of_not_blank hd] at hc
      obtain rfl : d = c := by simpa using hc
      exact hd
  last := getLast?_trimEnd _

theorem isTrimmed_iff {cs inner : List Char} : IsTrimmed cs inner ↔ inner = trim cs := by
  constructor
  · rintro ⟨⟨front, back, rfl, hfront, hback⟩, hfirst, hlast⟩
    have hstart : (front ++ inner ++ back).dropWhile isBlank = (inner ++ back).dropWhile isBlank := by
      rw [List.append_assoc, List.dropWhile_append_of_pos hfront]
    rw [trim, hstart]
    cases inner with
    | nil =>
      have hnil : back.dropWhile isBlank = [] := List.dropWhile_eq_nil_iff.2 hback
      rw [List.nil_append, hnil, trimEnd]
    | cons c cs =>
      have hc : isBlank c = false := hfirst c rfl
      rw [List.cons_append, List.dropWhile_cons_of_neg (by simp [hc]), ← List.cons_append,
        trimEnd_append_blank hback, trimEnd_eq_self hlast]
  · rintro rfl
    exact isTrimmed_trim cs

/-! ## A word -/

theorem isErased_eraseFirst (word cs : List Char) : IsErased word cs (eraseFirst word cs) := by
  induction cs with
  | nil =>
    cases word with
    | nil => exact .inr ⟨[], [], rfl, rfl, fun _ _ _ => Nat.zero_le _⟩
    | cons w ws => exact .inl ⟨by simp, rfl⟩
  | cons c cs ih =>
    rw [eraseFirst]
    split
    · next hpre =>
      obtain ⟨back, hback⟩ := List.isPrefixOf_iff_prefix.1 hpre
      refine .inr ⟨[], back, by rw [← hback]; rfl, ?_, fun _ _ _ => Nat.zero_le _⟩
      rw [← hback, List.drop_left, List.nil_append]
    · next hpre =>
      have hnot : ¬ word <+: c :: cs := fun h => hpre (List.isPrefixOf_iff_prefix.2 h)
      rcases ih with ⟨hwithin, hrest⟩ | ⟨front, back, hcs, hrest, hfirst⟩
      · refine .inl ⟨fun h => ?_, by rw [hrest]⟩
        rcases List.infix_cons_iff.1 h with h | h
        · exact hnot h
        · exact hwithin h
      · refine .inr ⟨c :: front, back, by rw [hcs]; rfl, by rw [hrest]; rfl, ?_⟩
        intro front' back' h
        cases front' with
        | nil => exact absurd ⟨back', h.symm⟩ hnot
        | cons d ds =>
          obtain ⟨-, htail⟩ := List.cons.inj h
          exact Nat.succ_le_succ (hfirst ds back' htail)

theorem IsErased.unique {word cs rest rest' : List Char} (h : IsErased word cs rest)
    (h' : IsErased word cs rest') : rest = rest' := by
  rcases h with ⟨hnot, rfl⟩ | ⟨front, back, hcs, rfl, hfirst⟩ <;>
    rcases h' with ⟨hnot', rfl⟩ | ⟨front', back', hcs', rfl, hfirst'⟩
  · rfl
  · exact absurd ⟨front', back', hcs'.symm⟩ hnot
  · exact absurd ⟨front, back, hcs.symm⟩ hnot'
  · have hlength : front.length = front'.length :=
      Nat.le_antisymm (hfirst _ _ hcs') (hfirst' _ _ hcs)
    rw [hcs, List.append_assoc, List.append_assoc] at hcs'
    obtain ⟨rfl, htail⟩ := List.append_inj hcs' hlength
    rw [List.append_cancel_left htail]

theorem isErased_iff {word cs rest : List Char} :
    IsErased word cs rest ↔ rest = eraseFirst word cs := by
  constructor
  · exact fun h => h.unique (isErased_eraseFirst word cs)
  · rintro rfl
    exact isErased_eraseFirst word cs

end MoveOutline.Text
