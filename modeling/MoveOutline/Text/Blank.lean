/-!
# Blank characters

`isBlank` is the Unicode property `White_Space`, and `trim` takes blank characters off both ends
of a text.

**Results.**
* `trim_infix`: a trimmed text is a contiguous part of the text.
* `trim_trim`: trimming a second time changes nothing.
-/
namespace MoveOutline.Text

/-- The Unicode property `White_Space`. -/
def isBlank (c : Char) : Bool :=
  let n := c.toNat
  (9 ≤ n && n ≤ 13) || n == 0x20 || n == 0x85 || n == 0xA0 || n == 0x1680 ||
    (0x2000 ≤ n && n ≤ 0x200A) || n == 0x2028 || n == 0x2029 || n == 0x202F || n == 0x205F ||
    n == 0x3000

/-- The text without the blank characters at its end. -/
def trimEnd : List Char → List Char
  | [] => []
  | c :: cs =>
    match trimEnd cs with
    | [] => if isBlank c then [] else [c]
    | kept => c :: kept

/-- The text without the blank characters at its two ends. -/
def trim (cs : List Char) : List Char :=
  trimEnd (cs.dropWhile isBlank)

/-! ## Trimming -/

theorem trimEnd_cons (c : Char) (cs : List Char) :
    trimEnd (c :: cs) = if trimEnd cs = [] ∧ isBlank c then [] else c :: trimEnd cs := by
  rw [trimEnd]
  split
  · next h => simp [h]
  · next h => rw [if_neg fun h' => h h'.1]

theorem trimEnd_isPrefixOf (cs : List Char) : trimEnd cs <+: cs := by
  induction cs with
  | nil => exact List.prefix_refl _
  | cons c cs ih =>
    rw [trimEnd_cons]
    split
    · exact List.nil_prefix
    · simpa using ih

theorem trimEnd_trimEnd (cs : List Char) : trimEnd (trimEnd cs) = trimEnd cs := by
  induction cs with
  | nil => rfl
  | cons c cs ih =>
    by_cases h : trimEnd cs = [] ∧ isBlank c
    · rw [trimEnd_cons, if_pos h, trimEnd]
    · rw [trimEnd_cons, if_neg h, trimEnd_cons, ih, if_neg h]

/-- A text that starts with a character that is not blank still does so after `trimEnd`. -/
theorem trimEnd_cons_of_not_blank {c : Char} (h : isBlank c = false) (cs : List Char) :
    trimEnd (c :: cs) = c :: trimEnd cs := by
  simp [trimEnd_cons, h]

theorem trim_infix (cs : List Char) : trim cs <:+: cs :=
  (trimEnd_isPrefixOf _).isInfix.trans (List.dropWhile_suffix _).isInfix

theorem trim_trim (cs : List Char) : trim (trim cs) = trim cs := by
  unfold trim
  cases h : cs.dropWhile isBlank with
  | nil => rfl
  | cons c rest =>
    have hc : isBlank c = false := by
      have := List.head?_dropWhile_not isBlank cs
      simpa [h] using this
    rw [trimEnd_cons_of_not_blank hc]
    simp [hc, trimEnd_cons_of_not_blank, trimEnd_trimEnd]

end MoveOutline.Text
