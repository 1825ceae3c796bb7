/-!
# Slices by byte offsets

Positions in a source count the bytes of its UTF-8 form, so a slice is asked for by two byte
offsets, which may come from another text: they may be reversed, too large, or fall inside a
character. `slice?` answers only when both offsets are boundaries between characters.

**Results.**
* `splitBytes?_eq_some_iff`: a text splits after `n` bytes exactly into the two parts of which
  the first has `n` bytes.
* `slice?_eq_some_iff`: a slice is the part of the text between its two offsets, and exists
  exactly when they are in order and both are boundaries.
* `slice_infix`: a slice is a contiguous part of the text, for any offsets.
-/
namespace MoveOutline.Text

/-- The number of bytes of a text in UTF-8. -/
def byteLength : List Char → Nat
  | [] => 0
  | c :: cs => c.utf8Size + byteLength cs

/-- The text up to byte `n` and the text from there on, if a character starts there or the text
ends there. -/
def splitBytes? : Nat → List Char → Option (List Char × List Char)
  | 0, cs => some ([], cs)
  | _ + 1, [] => none
  | n + 1, c :: cs =>
    if c.utf8Size ≤ n + 1 then
      (splitBytes? (n + 1 - c.utf8Size) cs).map fun (front, back) => (c :: front, back)
    else none

/-- The text from byte `start` to byte `stop`. -/
def slice? (start stop : Nat) (cs : List Char) : Option (List Char) :=
  if start ≤ stop then do
    let (_, back) ← splitBytes? start cs
    let (part, _) ← splitBytes? (stop - start) back
    return part
  else none

/-- The text from byte `start` to byte `stop`, empty when the two do not delimit one. -/
def slice (start stop : Nat) (text : String) : String :=
  String.ofList ((slice? start stop text.toList).getD [])

/-! ## What a slice holds -/

@[simp] theorem byteLength_nil : byteLength [] = 0 := rfl

@[simp] theorem byteLength_cons (c : Char) (cs : List Char) :
    byteLength (c :: cs) = c.utf8Size + byteLength cs := rfl

@[simp] theorem byteLength_append (xs ys : List Char) :
    byteLength (xs ++ ys) = byteLength xs + byteLength ys := by
  induction xs with
  | nil => simp
  | cons c xs ih => simp [ih, Nat.add_assoc]

theorem splitBytes?_append (front back : List Char) :
    splitBytes? (byteLength front) (front ++ back) = some (front, back) := by
  induction front with
  | nil => cases back <;> rfl
  | cons c front ih =>
    obtain ⟨k, hk⟩ : ∃ k, c.utf8Size + byteLength front = k + 1 :=
      ⟨c.utf8Size + byteLength front - 1, by have := c.utf8Size_pos; omega⟩
    have hsub : k + 1 - c.utf8Size = byteLength front := by omega
    rw [byteLength_cons, hk, List.cons_append, splitBytes?, if_pos (by omega), hsub, ih]
    rfl

theorem splitBytes?_eq_some_iff {n : Nat} {cs front back : List Char} :
    splitBytes? n cs = some (front, back) ↔ cs = front ++ back ∧ byteLength front = n := by
  constructor
  · intro h
    fun_induction splitBytes? n cs generalizing front back with
    | case1 cs => simp at h; simp [h]
    | case2 n => simp at h
    | case3 n c cs hle ih =>
      simp only [Option.map_eq_some_iff] at h
      obtain ⟨⟨f, b⟩, hfb, he⟩ := h
      obtain ⟨rfl, rfl⟩ : c :: f = front ∧ b = back := by simpa using he
      obtain ⟨rfl, hlen⟩ := ih hfb
      exact ⟨rfl, by simp only [byteLength_cons]; omega⟩
    | case4 n c cs hle => simp at h
  · rintro ⟨rfl, rfl⟩
    exact splitBytes?_append front back

theorem slice?_eq_some_iff {start stop : Nat} {cs part : List Char} :
    slice? start stop cs = some part ↔ ∃ before after, cs = before ++ part ++ after ∧
      byteLength before = start ∧ byteLength before + byteLength part = stop := by
  unfold slice?
  constructor
  · intro h
    split at h
    · next hle =>
      simp only [Option.bind_eq_bind, Option.bind_eq_some_iff, Option.pure_def,
        Option.some.injEq] at h
      obtain ⟨⟨before, back⟩, h1, ⟨front, after⟩, h2, rfl⟩ := h
      obtain ⟨rfl, hb⟩ := splitBytes?_eq_some_iff.1 h1
      obtain ⟨hback, hp⟩ := splitBytes?_eq_some_iff.1 h2
      subst hback
      exact ⟨before, after, by simp, hb, by simp only at *; omega⟩
    · simp at h
  · rintro ⟨before, after, rfl, rfl, rfl⟩
    have hsub : byteLength before + byteLength part - byteLength before = byteLength part := by
      omega
    rw [if_pos (by omega), hsub, List.append_assoc, splitBytes?_append]
    simp [splitBytes?_append]

theorem slice_infix (start stop : Nat) (text : String) :
    (slice start stop text).toList <:+: text.toList := by
  unfold slice
  cases h : slice? start stop text.toList with
  | none => simp
  | some part =>
    obtain ⟨before, after, he, -, -⟩ := slice?_eq_some_iff.1 h
    exact ⟨before, after, by simp [he]⟩

end MoveOutline.Text
