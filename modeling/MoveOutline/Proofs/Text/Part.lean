import Mathlib.Data.List.Infix
import MoveOutline.Proofs.Text.Cut
import MoveOutline.Text.Slice
/-!
# Parts of a text

A **part** of a text is a contiguous piece of it. Slicing and trimming leave parts, and taking a
word out does so if the word stands at the start or nowhere.

Slices are asked for by offsets in the UTF-8 form of the text. Two offsets **delimit** a part when
they are in order, not behind the end, and both between two characters. Then the slice has exactly
the bytes between them, and otherwise it is empty. A cut by offset in any other place would not
leave a text at all (`before?`); the offset of a character is never such a place.

Results:
* `isPart_iff`: parts by their characters.
* `toByteArray_slice`, `slice_eq_empty`: slices by their bytes.
* `before?_eq`: the cut before the first occurrence of a character does not fail.
-/
namespace MoveOutline.Text

/-- The text stands in the source from some place on. -/
def IsPart (source text : String) : Prop :=
  ∃ front back, source = front ++ text ++ back

/-- The offsets are in order, not behind the end, and both between two characters or at an end. -/
structure Delimits (source : String) (start stop : Nat) : Prop where
  ordered : start ≤ stop
  within : stop ≤ source.utf8ByteSize
  start : String.Pos.Raw.IsValid source ⟨start⟩
  stop : String.Pos.Raw.IsValid source ⟨stop⟩

/-! ## Parts -/

theorem isPart_iff {source text : String} :
    IsPart source text ↔ text.toList <:+: source.toList := by
  constructor
  · rintro ⟨front, back, rfl⟩
    exact ⟨front.toList, back.toList, by simp⟩
  · rintro ⟨front, back, h⟩
    refine ⟨String.ofList front, String.ofList back, ?_⟩
    rw [← String.toList_inj, ← h]
    simp

theorem isPart_empty (source : String) : IsPart source "" :=
  ⟨"", source, by simp⟩

theorem IsPart.trans {source text inner : String} (h : IsPart source text)
    (h' : IsPart text inner) : IsPart source inner :=
  isPart_iff.2 ((isPart_iff.1 h').trans (isPart_iff.1 h))

theorem isPart_slice (source : String) (start stop : Nat) :
    IsPart source (slice start stop source) := by
  rw [isPart_iff]
  exact slice_infix start stop source

theorem isPart_trim (cs : List Char) : IsPart (String.ofList cs) (String.ofList (trim cs)) := by
  rw [isPart_iff, String.toList_ofList, String.toList_ofList]
  exact trim_infix cs

theorem isPart_before (c : Char) (source : String) :
    IsPart source (String.ofList (before c source.toList)) := by
  rw [isPart_iff, String.toList_ofList]
  exact (List.takeWhile_prefix _).isInfix

/-- What is left without a word is a part, unless the word stands behind something else. -/
theorem isPart_eraseFirst {word source : String}
    (h : word.toList <+: source.toList ∨ ¬ word.toList <:+: source.toList) :
    IsPart source (String.ofList (eraseFirst word.toList source.toList)) := by
  rw [isPart_iff, String.toList_ofList]
  rcases h with ⟨rest, hrest⟩ | hnot
  · rw [← hrest, eraseFirst_append]
    exact (List.suffix_append _ rest).isInfix
  · have hrest := eraseFirst_of_not_infix hnot
    rw [hrest]

/-! ## Bytes -/

theorem byteLength_toList (text : String) : byteLength text.toList = text.utf8ByteSize := by
  have ofList (cs : List Char) : byteLength cs = (String.ofList cs).utf8ByteSize := by
    induction cs with
    | nil => rfl
    | cons c cs ih =>
      rw [byteLength_cons, ih, String.ofList_cons, String.utf8ByteSize_append,
        String.utf8ByteSize_singleton]
  rw [ofList, String.ofList_toList]

/-- Of two texts at the start of one text, the one with fewer bytes is at the start of the other. -/
theorem isPrefix_of_byteLength_le {xs ys cs : List Char} (hx : xs <+: cs) (hy : ys <+: cs)
    (h : byteLength xs ≤ byteLength ys) : xs <+: ys := by
  rcases List.prefix_or_prefix_of_prefix hx hy with hxy | ⟨rest, rfl⟩
  · exact hxy
  · cases rest with
    | nil => simp
    | cons c rest =>
      have := c.utf8Size_pos
      simp only [byteLength_append, byteLength_cons] at h
      omega

/-- Offsets delimit a part where the text can be split in three. -/
theorem delimits_iff {source : String} {start stop : Nat} : Delimits source start stop ↔
    ∃ front part back : String, source = front ++ part ++ back ∧ front.utf8ByteSize = start ∧
      front.utf8ByteSize + part.utf8ByteSize = stop := by
  constructor
  · rintro ⟨hordered, -, hstart, hstop⟩
    obtain ⟨front, rest, hsource, hfront⟩ := String.Pos.Raw.isValid_iff_exists_append.1 hstart
    obtain ⟨whole, back, hsource', hwhole⟩ := String.Pos.Raw.isValid_iff_exists_append.1 hstop
    obtain rfl : start = front.utf8ByteSize := congrArg String.Pos.Raw.byteIdx hfront
    obtain rfl : stop = whole.utf8ByteSize := congrArg String.Pos.Raw.byteIdx hwhole
    have hx : front.toList <+: source.toList := ⟨rest.toList, by rw [hsource, String.toList_append]⟩
    have hy : whole.toList <+: source.toList := ⟨back.toList, by rw [hsource', String.toList_append]⟩
    obtain ⟨part, hpart⟩ := isPrefix_of_byteLength_le hx hy (by simpa only [byteLength_toList])
    obtain rfl : whole = front ++ String.ofList part := by
      rw [← String.toList_inj, ← hpart, String.toList_append, String.toList_ofList]
    exact ⟨front, String.ofList part, back, hsource', rfl, (String.utf8ByteSize_append ..).symm⟩
  · rintro ⟨front, part, back, rfl, rfl, rfl⟩
    refine ⟨Nat.le_add_right _ _, ?_, ?_, ?_⟩
    · simp only [String.utf8ByteSize_append]
      omega
    · rw [String.Pos.Raw.isValid_iff_exists_append]
      exact ⟨front, part ++ back, String.append_assoc .., rfl⟩
    · rw [String.Pos.Raw.isValid_iff_exists_append]
      exact ⟨front ++ part, back, rfl, by simp [String.Pos.Raw.ext_iff]⟩

theorem slice?_toList_eq_some_iff {source part : String} {start stop : Nat} :
    slice? start stop source.toList = some part.toList ↔
      ∃ front back, source = front ++ part ++ back ∧ front.utf8ByteSize = start ∧
        front.utf8ByteSize + part.utf8ByteSize = stop := by
  rw [slice?_eq_some_iff]
  constructor
  · rintro ⟨front, back, hsource, hfront, hpart⟩
    refine ⟨String.ofList front, String.ofList back, ?_, ?_, ?_⟩
    · rw [← String.toList_inj, hsource]
      simp
    · rw [← byteLength_toList, String.toList_ofList, hfront]
    · rw [← byteLength_toList, ← byteLength_toList, String.toList_ofList, hpart]
  · rintro ⟨front, back, rfl, rfl, rfl⟩
    exact ⟨front.toList, back.toList, by simp, byteLength_toList _, by
      rw [byteLength_toList, byteLength_toList]⟩

/-- Between two offsets that delimit a part, a slice has the bytes of the text. -/
theorem toByteArray_slice {source : String} {start stop : Nat} (h : Delimits source start stop) :
    (slice start stop source).toByteArray = source.toByteArray.extract start stop := by
  obtain ⟨front, part, back, rfl, rfl, rfl⟩ := delimits_iff.1 h
  have hslice : slice? front.utf8ByteSize (front.utf8ByteSize + part.utf8ByteSize)
      (front ++ part ++ back).toList = some part.toList :=
    slice?_toList_eq_some_iff.2 ⟨front, back, rfl, rfl, rfl⟩
  have hbytes : (front ++ part ++ back).toByteArray =
      front.toByteArray ++ (part.toByteArray ++ back.toByteArray) := by
    simp [ByteArray.append_assoc]
  rw [slice, hslice, Option.getD_some, String.ofList_toList, hbytes, ← String.size_toByteArray,
    ← String.size_toByteArray, ← Nat.add_zero front.toByteArray.size, Nat.add_assoc,
    ByteArray.extract_append_size_add, Nat.zero_add, ByteArray.extract_append_eq_left rfl]

/-- Between other offsets there is nothing. -/
theorem slice_eq_empty {source : String} {start stop : Nat} (h : ¬ Delimits source start stop) :
    slice start stop source = "" := by
  have hnone : slice? start stop source.toList = none := by
    rw [Option.eq_none_iff_forall_ne_some]
    intro part hpart
    rw [← String.toList_ofList (l := part), slice?_toList_eq_some_iff] at hpart
    obtain ⟨front, back, hsource⟩ := hpart
    exact h (delimits_iff.2 ⟨front, _, back, hsource⟩)
  rw [slice, hnone]
  rfl

/-! ## Cutting by an offset -/

/-- The offset of the first `c`. -/
def offset? (c : Char) : List Char → Option Nat
  | [] => none
  | d :: ds => if d = c then some 0 else (offset? c ds).map (d.utf8Size + ·)

/-- The text before the first `c`, cut off at its offset, which must be between two characters; all
of the text if there is no `c`. -/
def before? (c : Char) (cs : List Char) : Option (List Char) :=
  match offset? c cs with
  | none => some cs
  | some n => (splitBytes? n cs).map (·.1)

theorem offset?_of_notMem {c : Char} {cs : List Char} (h : c ∉ cs) : offset? c cs = none := by
  induction cs with
  | nil => rfl
  | cons d ds ih =>
    rw [List.mem_cons, not_or] at h
    rw [offset?, if_neg (Ne.symm h.1), ih h.2]
    rfl

theorem offset?_append {c : Char} {front : List Char} (h : c ∉ front) (back : List Char) :
    offset? c (front ++ c :: back) = some (byteLength front) := by
  induction front with
  | nil => rw [List.nil_append, offset?, if_pos rfl, byteLength_nil]
  | cons d ds ih =>
    rw [List.mem_cons, not_or] at h
    rw [List.cons_append, offset?, if_neg (Ne.symm h.1), ih h.2, Option.map_some, byteLength_cons]

/-- The cut before the first occurrence of a character falls between two characters. -/
theorem before?_eq (c : Char) (cs : List Char) : before? c cs = some (before c cs) := by
  obtain ⟨hnot, hcs⟩ := isBefore_before c cs
  rw [before?]
  generalize before c cs = front at hnot hcs
  rcases hcs with rfl | ⟨back, rfl⟩
  · rw [offset?_of_notMem hnot]
  · simp only [offset?_append hnot, splitBytes?_append, Option.map_some]

end MoveOutline.Text
