import MoveOutline.Json.Basic
import MoveOutline.Json.Literal
/-!
# Tokens of JSON

A JSON text is a sequence of tokens with white space between them. Two values never follow each
other without a comma or a colon, so it does no harm that a token ends where the next character
cannot belong to it.

**Results.**
* `Token.scan?_length`: a token takes at least one character.
-/
namespace MoveOutline.Json

/-- The parts of a JSON text. A string may turn out to be a key, so it is not yet a value. -/
inductive Token where
  | openBracket
  | closeBracket
  | openBrace
  | closeBrace
  | comma
  | colon
  | string (text : Option String)
  /-- A number, a truth value or `null`. -/
  | plain (value : Json)
  deriving Repr

namespace Token

/-- The four characters of white space that JSON knows. -/
def isSpace (c : Char) : Bool :=
  c == ' ' || c == '\t' || c == '\n' || c == '\r'

/-- At least one digit, and what is behind the digits. -/
def digits? (cs : List Char) : Option (List Char × List Char) :=
  match cs.takeWhile Char.isDigit with
  | [] => none
  | ds => some (ds, cs.dropWhile Char.isDigit)

/-- The integer part of a number: a zero, or digits of which the first is not zero. -/
def integer? : List Char → Option (List Char × List Char)
  | '0' :: cs => some (['0'], cs)
  | cs => digits? cs

/-- What is behind the fraction, if the text starts with one. A point without digits is an error. -/
def afterFraction? : List Char → Option (List Char)
  | '.' :: cs => (digits? cs).map (·.2)
  | cs => some cs

/-- The text without a plus or minus in front. -/
def dropSign : List Char → List Char
  | '+' :: cs => cs
  | '-' :: cs => cs
  | cs => cs

/-- What is behind the exponent, if the text starts with one. -/
def afterExponent? : List Char → Option (List Char)
  | 'e' :: cs => (digits? (dropSign cs)).map (·.2)
  | 'E' :: cs => (digits? (dropSign cs)).map (·.2)
  | cs => some cs

/-- A number without sign. -/
def number? (cs : List Char) : Option (Json × List Char) := do
  let (ds, rest) ← integer? cs
  let behind ← afterExponent? (← afterFraction? rest)
  let value := if behind.length = rest.length then .natural (Nat.ofDigitChars 10 ds 0)
    else .otherNumber
  return (value, behind)

/-- The first token of a text that does not start with white space, and what is behind it. -/
def scan? : List Char → Option (Token × List Char)
  | '[' :: cs => some (openBracket, cs)
  | ']' :: cs => some (closeBracket, cs)
  | '\x7b' :: cs => some (openBrace, cs)
  | '\x7d' :: cs => some (closeBrace, cs)
  | ',' :: cs => some (comma, cs)
  | ':' :: cs => some (colon, cs)
  | '"' :: cs => (Literal.scan cs).map fun (pieces, rest) =>
    (string ((Literal.text? pieces).map String.ofList), rest)
  | 'n' :: 'u' :: 'l' :: 'l' :: cs => some (plain .null, cs)
  | 't' :: 'r' :: 'u' :: 'e' :: cs => some (plain (.bool true), cs)
  | 'f' :: 'a' :: 'l' :: 's' :: 'e' :: cs => some (plain (.bool false), cs)
  | '-' :: cs => (number? cs).map fun (_, rest) => (plain .otherNumber, rest)
  | cs => (number? cs).map fun (value, rest) => (plain value, rest)

/-! ## Progress -/

theorem digits?_length {cs ds rest : List Char} (h : digits? cs = some (ds, rest)) :
    rest.length < cs.length := by
  unfold digits? at h
  split at h
  · simp at h
  · next hne =>
    simp only [Option.some.injEq, Prod.mk.injEq] at h
    have hlen := congrArg List.length (cs.takeWhile_append_dropWhile (p := Char.isDigit))
    simp only [h.2, List.length_append] at hlen
    have := List.length_pos_iff.2 hne
    omega

theorem integer?_length {cs ds rest : List Char} (h : integer? cs = some (ds, rest)) :
    rest.length < cs.length := by
  unfold integer? at h
  split at h
  · simp only [Option.some.injEq, Prod.mk.injEq] at h
    simp [h.2]
  · exact digits?_length h

theorem dropSign_length (cs : List Char) : (dropSign cs).length ≤ cs.length := by
  unfold dropSign; split <;> simp

theorem afterFraction?_length {cs rest : List Char} (h : afterFraction? cs = some rest) :
    rest.length ≤ cs.length := by
  unfold afterFraction? at h
  split at h
  · obtain ⟨⟨ds, r⟩, hd, rfl⟩ := Option.map_eq_some_iff.1 h
    have := digits?_length hd
    simp only [List.length_cons] at *; omega
  · simp only [Option.some.injEq] at h
    simp [h]

theorem afterExponent?_length {cs rest : List Char} (h : afterExponent? cs = some rest) :
    rest.length ≤ cs.length := by
  unfold afterExponent? at h
  split at h
  case h_3 =>
    simp only [Option.some.injEq] at h
    simp [h]
  all_goals
    next cs =>
    obtain ⟨⟨ds, r⟩, hd, rfl⟩ := Option.map_eq_some_iff.1 h
    have := digits?_length hd
    have := dropSign_length cs
    simp only [List.length_cons] at *; omega

theorem number?_length {cs rest : List Char} {value : Json}
    (h : number? cs = some (value, rest)) : rest.length < cs.length := by
  simp only [number?, Option.bind_eq_bind, Option.bind_eq_some_iff, Option.pure_def,
    Option.some.injEq, Prod.mk.injEq] at h
  obtain ⟨⟨ds, r⟩, hi, f, hf, e, he, -, rfl⟩ := h
  have := integer?_length hi
  have := afterFraction?_length hf
  have := afterExponent?_length he
  simp only at *; omega

theorem scan?_length {cs rest : List Char} {t : Token} (h : scan? cs = some (t, rest)) :
    rest.length < cs.length := by
  unfold scan? at h
  split at h
  case h_7 =>
    obtain ⟨⟨ps, r⟩, hs, he⟩ := Option.map_eq_some_iff.1 h
    simp only [Prod.mk.injEq] at he
    have := Literal.scan_length hs
    simp only [List.length_cons, ← he.2]; omega
  case h_11 =>
    obtain ⟨⟨v, r⟩, hs, he⟩ := Option.map_eq_some_iff.1 h
    simp only [Prod.mk.injEq] at he
    have := number?_length hs
    simp only [List.length_cons, ← he.2]; omega
  case h_12 =>
    obtain ⟨⟨v, r⟩, hs, he⟩ := Option.map_eq_some_iff.1 h
    simp only [Prod.mk.injEq] at he
    simpa only [← he.2] using number?_length hs
  all_goals
    simp only [Option.some.injEq, Prod.mk.injEq] at h
    simp only [List.length_cons, ← h.2]; omega

end Token

/-- The tokens of a text. -/
def tokens? (cs : List Char) : Option (List Token) :=
  match _hd : cs.dropWhile Token.isSpace with
  | [] => some []
  | c :: rest =>
    match _hs : Token.scan? (c :: rest) with
    | none => none
    | some (t, rest) => (tokens? rest).map (t :: ·)
termination_by cs.length
decreasing_by
  have hlt := Token.scan?_length _hs
  have hle := (List.dropWhile_sublist Token.isSpace (l := cs)).length_le
  rw [_hd] at hle
  omega

end MoveOutline.Json
