/-!
# String literals of JSON

Between its quotes a string literal holds characters and escapes. An escape by code unit may
give half of a surrogate pair; two halves that follow each other make one character, and a
literal in which a half is left alone is well formed but denotes no text.

**Results.**
* `scan_body`: what `body` writes for a text is scanned up to the closing quote, with any
  characters behind it, as the characters of the text.
* `text?_map_char`: characters denote the text that they make up.
* `scan_length`: a scan takes at least the closing quote.
-/
namespace MoveOutline.Json.Literal

/-- What a literal is made of. -/
inductive Piece where
  | char (c : Char)
  /-- Half of a surrogate pair, by code unit. -/
  | surrogate (unit : Nat)
  deriving DecidableEq, Repr

/-- The piece that a code unit stands for. -/
def Piece.ofUnit (unit : Nat) : Piece :=
  if 0xD800 ≤ unit ∧ unit ≤ 0xDFFF then surrogate unit else char (Char.ofNat unit)

/-- The value of a hexadecimal digit. -/
def hexDigit? (c : Char) : Option Nat :=
  if '0' ≤ c ∧ c ≤ '9' then some (c.toNat - '0'.toNat)
  else if 'a' ≤ c ∧ c ≤ 'f' then some (c.toNat - 'a'.toNat + 10)
  else if 'A' ≤ c ∧ c ≤ 'F' then some (c.toNat - 'A'.toNat + 10)
  else none

/-- The code unit that four hexadecimal digits write. -/
def unit? (a b c d : Char) : Option Nat := do
  let a ← hexDigit? a
  let b ← hexDigit? b
  let c ← hexDigit? c
  let d ← hexDigit? d
  return ((a * 16 + b) * 16 + c) * 16 + d

/-- The character of an escape by letter. -/
def escaped? : Char → Option Char
  | '"' => some '"'
  | '\\' => some '\\'
  | '/' => some '/'
  | 'b' => some '\x08'
  | 'f' => some '\x0c'
  | 'n' => some '\n'
  | 'r' => some '\r'
  | 't' => some '\t'
  | _ => none

/-- The pieces up to the closing quote, and what is behind it. Control characters must be
escaped. -/
def scan : List Char → Option (List Piece × List Char)
  | [] => none
  | '"' :: cs => some ([], cs)
  | '\\' :: 'u' :: a :: b :: c :: d :: cs => do
    let unit ← unit? a b c d
    let (pieces, rest) ← scan cs
    return (.ofUnit unit :: pieces, rest)
  | '\\' :: e :: cs => do
    let c ← escaped? e
    let (pieces, rest) ← scan cs
    return (.char c :: pieces, rest)
  | c :: cs =>
    if 0x20 ≤ c.toNat ∧ c ≠ '\\' then do
      let (pieces, rest) ← scan cs
      return (.char c :: pieces, rest)
    else none

/-- The character that two halves of a surrogate pair make. -/
def pair? (high low : Nat) : Option Char :=
  if 0xD800 ≤ high ∧ high < 0xDC00 ∧ 0xDC00 ≤ low ∧ low < 0xE000 then
    some (Char.ofNat (0x10000 + (high - 0xD800) * 0x400 + (low - 0xDC00)))
  else none

/-- The text that a literal denotes. -/
def text? : List Piece → Option (List Char)
  | [] => some []
  | .char c :: pieces => do
    return c :: (← text? pieces)
  | .surrogate high :: .surrogate low :: pieces => do
    let c ← pair? high low
    return c :: (← text? pieces)
  | .surrogate _ :: _ => none

/-- How a character is written inside a literal. -/
def escape (c : Char) : List Char :=
  match c with
  | '"' => ['\\', '"']
  | '\\' => ['\\', '\\']
  | '\x08' => ['\\', 'b']
  | '\x0c' => ['\\', 'f']
  | '\n' => ['\\', 'n']
  | '\r' => ['\\', 'r']
  | '\t' => ['\\', 't']
  | c =>
    if c.toNat < 0x20 then
      ['\\', 'u', '0', '0', Nat.digitChar (c.toNat / 16), Nat.digitChar (c.toNat % 16)]
    else [c]

/-- The inside of the literal for a text. -/
def body (cs : List Char) : List Char :=
  cs.flatMap escape

/-! ## Writing and scanning -/

theorem text?_map_char (cs : List Char) : text? (cs.map .char) = some cs := by
  induction cs with
  | nil => rfl
  | cons c cs ih => simp [text?, ih]

/-- The code unit of a control character can be read from its two hexadecimal digits. -/
theorem unit?_digitChar : ∀ n < 0x20,
    unit? '0' '0' (Nat.digitChar (n / 16)) (Nat.digitChar (n % 16)) = some n := by
  decide

theorem ofUnit_toNat {c : Char} (h : c.toNat < 0x20) : Piece.ofUnit c.toNat = .char c := by
  rw [Piece.ofUnit, if_neg (by omega), Char.ofNat_toNat]

/-- A character that stands for itself is scanned as itself. -/
theorem scan_cons {c : Char} {cs rest : List Char} {pieces : List Piece} (hc : 0x20 ≤ c.toNat)
    (hq : c ≠ '"') (hb : c ≠ '\\') (h : scan cs = some (pieces, rest)) :
    scan (c :: cs) = some (.char c :: pieces, rest) := by
  rw [scan.eq_def]
  split
  case h_5 =>
    next he =>
    cases he
    simp [hc, hb, h]
  all_goals simp_all

theorem scan_escape {c : Char} {cs rest : List Char} {pieces : List Piece}
    (h : scan cs = some (pieces, rest)) :
    scan (escape c ++ cs) = some (.char c :: pieces, rest) := by
  unfold escape
  split
  case h_8 hq hb _ _ _ _ _ =>
    split
    · next hc =>
      simp [scan, unit?_digitChar c.toNat hc, ofUnit_toNat hc, h]
    · next hc => exact scan_cons (by omega) hq hb h
  all_goals simp [scan, escaped?, h]

theorem scan_body (cs rest : List Char) :
    scan (body cs ++ '"' :: rest) = some (cs.map .char, rest) := by
  induction cs with
  | nil => simp [body, scan]
  | cons c cs ih =>
    rw [body, List.flatMap_cons, List.append_assoc]
    exact scan_escape ih

theorem scan_length {cs rest : List Char} {pieces : List Piece}
    (h : scan cs = some (pieces, rest)) : rest.length < cs.length := by
  fun_induction scan cs generalizing pieces with
  | case1 => simp at h
  | case2 cs => simp at h; simp [h]
  | case3 a b c d cs ih =>
    simp only [Option.bind_eq_bind, Option.bind_eq_some_iff, Option.pure_def, Option.some.injEq,
      Prod.mk.injEq] at h
    obtain ⟨unit, -, ⟨ps, r⟩, hs, -, rfl⟩ := h
    have := ih hs
    simp only [List.length_cons] at *; omega
  | case4 e cs _ ih =>
    simp only [Option.bind_eq_bind, Option.bind_eq_some_iff, Option.pure_def, Option.some.injEq,
      Prod.mk.injEq] at h
    obtain ⟨c, -, ⟨ps, r⟩, hs, -, rfl⟩ := h
    have := ih hs
    simp only [List.length_cons] at *; omega
  | case5 c cs _ _ _ _ ih =>
    simp only [Option.bind_eq_bind, Option.bind_eq_some_iff, Option.pure_def, Option.some.injEq,
      Prod.mk.injEq] at h
    obtain ⟨⟨ps, r⟩, hs, -, rfl⟩ := h
    have := ih hs
    simp only [List.length_cons] at *; omega
  | case6 => cases h

end MoveOutline.Json.Literal
