import MoveOutline.Json.Parse
import MoveOutline.Json.Render
/-!
# Reading what was written

A written value is read back as it was. The writer puts nothing between tokens, so a token has to
end by itself. A string does at its closing quote. A number does because nothing that could belong
to it comes next: behind a written value the text ends, or a comma or a closing bracket or brace
follows (`Boundary`).

Results:
* `tokens?_chars`: the tokens of a written value, with any text behind the boundary.
* `foldlM_tokens`: the tokens of a value lead from the state that expects a value to the state
  behind it, whatever is open around it.
* `parse?_render`: every value is read back from its text.
-/
namespace MoveOutline.Json

/-- What can follow a written value. -/
def Boundary : List Char → Prop
  | [] => True
  | c :: _ => c = ',' ∨ c = ']' ∨ c = '\x7d'

theorem Boundary.isDigit_head {c : Char} {cs : List Char} (h : Boundary (c :: cs)) :
    c.isDigit = false := by
  rcases h with rfl | rfl | rfl <;> rfl

namespace Token

/-! ## Numbers -/

theorem digits?_append {ds rest : List Char} (hne : ds ≠ []) (hds : ∀ c ∈ ds, c.isDigit = true)
    (h : Boundary rest) : digits? (ds ++ rest) = some (ds, rest) := by
  have hrest : rest.takeWhile Char.isDigit = [] ∧ rest.dropWhile Char.isDigit = rest := by
    cases rest with
    | nil => exact ⟨rfl, rfl⟩
    | cons c cs =>
      have hc : ¬ c.isDigit = true := by rw [Boundary.isDigit_head h]; simp
      exact ⟨List.takeWhile_cons_of_neg hc, List.dropWhile_cons_of_neg hc⟩
  unfold digits?
  rw [List.takeWhile_append_of_pos hds, List.dropWhile_append_of_pos hds, hrest.1, hrest.2,
    List.append_nil]
  cases ds with
  | nil => exact absurd rfl hne
  | cons d ds => rfl

/-- A number is written with at least one digit. -/
theorem toDigits_eq_cons (n : Nat) :
    ∃ d ds, d.isDigit = true ∧ Nat.toDigits 10 n = d :: ds := by
  obtain ⟨d, ds, hds⟩ := List.exists_cons_of_ne_nil (Nat.toDigits_ne_nil (n := n) (b := 10))
  refine ⟨d, ds, ?_, hds⟩
  exact Nat.isDigit_of_mem_toDigits (b := 10) (n := n) (by decide) (by decide)
    (hds ▸ List.mem_cons_self)

/-- Only zero is written with a zero in front. -/
theorem eq_zero_of_toDigits {n : Nat} {cs : List Char} (h : Nat.toDigits 10 n = '0' :: cs) :
    n = 0 := by
  induction n using Nat.strongRecOn generalizing cs with
  | ind n ih =>
    rw [Nat.toDigits_eq_if (by decide)] at h
    split at h
    · exact Nat.digitChar_eq_zero.1 (List.cons.inj h).1
    · next hn =>
      obtain ⟨d, ds, -, hds⟩ := toDigits_eq_cons (n / 10)
      rw [hds, List.cons_append, List.cons.injEq] at h
      rw [h.1] at hds
      have := ih (n / 10) (by omega) hds
      omega

theorem integer?_toDigits (n : Nat) {rest : List Char} (h : Boundary rest) :
    integer? (Nat.toDigits 10 n ++ rest) = some (Nat.toDigits 10 n, rest) := by
  have hdigits := digits?_append Nat.toDigits_ne_nil
    (fun c => Nat.isDigit_of_mem_toDigits (b := 10) (n := n) (by decide) (by decide)) h
  unfold integer?
  split
  · next cs hcs =>
    obtain ⟨d, ds, -, hds⟩ := toDigits_eq_cons n
    rw [hds, List.cons_append, List.cons.injEq] at hcs
    rw [hcs.1] at hds
    have hzero := eq_zero_of_toDigits hds
    subst hzero
    simp only [Nat.toDigits_zero, List.cons.injEq, true_and] at hds
    rw [Nat.toDigits_zero, ← hcs.2, ← hds]
    rfl
  · exact hdigits

theorem afterFraction?_boundary {rest : List Char} (h : Boundary rest) :
    afterFraction? rest = some rest := by
  unfold afterFraction?
  split
  · rcases h with h | h | h <;> cases h
  · rfl

theorem afterExponent?_boundary {rest : List Char} (h : Boundary rest) :
    afterExponent? rest = some rest := by
  unfold afterExponent?
  split
  · rcases h with h | h | h <;> cases h
  · rcases h with h | h | h <;> cases h
  · rfl

theorem number?_toDigits (n : Nat) {rest : List Char} (h : Boundary rest) :
    number? (Nat.toDigits 10 n ++ rest) = some (.natural n, rest) := by
  simp only [number?, integer?_toDigits n h, afterFraction?_boundary h, afterExponent?_boundary h,
    Option.bind_eq_bind, Option.bind_some, Nat.ofDigitChars_ten_toDigits, if_true, Option.pure_def]

/-! ## Tokens -/

theorem isSpace_of_isDigit {c : Char} (h : c.isDigit = true) : isSpace c = false := by
  rw [Bool.eq_false_iff]
  intro hspace
  simp only [isSpace, Bool.or_eq_true, beq_iff_eq] at hspace
  rcases hspace with ((rfl | rfl) | rfl) | rfl <;> exact absurd h (by decide)

theorem scan?_toDigits (n : Nat) {rest : List Char} (h : Boundary rest) :
    scan? (Nat.toDigits 10 n ++ rest) = some (plain (.natural n), rest) := by
  have hnumber := number?_toDigits n h
  obtain ⟨d, ds, hd, hds⟩ := toDigits_eq_cons n
  rw [hds, List.cons_append] at hnumber ⊢
  -- a digit starts none of the other tokens
  unfold scan?
  split
  case h_12 => rw [hnumber]; rfl
  all_goals
    next heq =>
    rw [List.cons.injEq] at heq
    rw [heq.1] at hd
    exact absurd hd (by decide)

theorem scan?_literal (text : Option String) (rest : List Char) :
    scan? (literal text ++ rest) = some (string text, rest) := by
  cases text with
  | none => rfl
  | some text =>
    have hbody := Literal.scan_body text.toList rest
    simp only [literal, List.cons_append, List.append_assoc, List.nil_append]
    simp [scan?, hbody, Literal.text?_map_char]

end Token

/-- The first token of a text that does not start with white space. -/
theorem tokens?_of_scan? {c : Char} {cs rest : List Char} {t : Token}
    (hc : Token.isSpace c = false) (h : Token.scan? (c :: cs) = some (t, rest)) :
    tokens? (c :: cs) = (tokens? rest).map (t :: ·) := by
  have hdrop : (c :: cs).dropWhile Token.isSpace = c :: cs :=
    List.dropWhile_cons_of_neg (by simp [hc])
  rw [tokens?]
  split
  · next hnil => rw [hdrop] at hnil; cases hnil
  · next c' cs' hcons =>
    rw [hdrop, List.cons.injEq] at hcons
    obtain ⟨rfl, rfl⟩ := hcons
    split
    · next hnone => rw [h] at hnone; cases hnone
    · next t' rest' hsome =>
      rw [h, Option.some.injEq, Prod.mk.injEq] at hsome
      rw [hsome.1, hsome.2]

/-! ## The tokens of a value -/

mutual

/-- The tokens that a value is written with. -/
def tokens : Json → List Token
  | .string text => [.string text]
  | .array items => .openBracket :: (itemTokens items ++ [.closeBracket])
  | .object members => .openBrace :: (memberTokens members ++ [.closeBrace])
  | v => [.plain v]

/-- The tokens of the items of an array. -/
def itemTokens : List Json → List Token
  | [] => []
  | [v] => v.tokens
  | v :: vs => v.tokens ++ .comma :: itemTokens vs

/-- The tokens of the members of an object. -/
def memberTokens : List (Option String × Json) → List Token
  | [] => []
  | [(k, v)] => .string k :: .colon :: v.tokens
  | (k, v) :: ms => .string k :: .colon :: (v.tokens ++ .comma :: memberTokens ms)

end

/-! ## From characters to tokens -/

/-- The character of a token that is one mark. -/
def Token.mark? : Token → Option Char
  | .openBracket => some '['
  | .closeBracket => some ']'
  | .openBrace => some '\x7b'
  | .closeBrace => some '\x7d'
  | .comma => some ','
  | .colon => some ':'
  | _ => none

theorem tokens?_mark {t : Token} {c : Char} (h : t.mark? = some c) (cs : List Char) :
    tokens? (c :: cs) = (tokens? cs).map (t :: ·) := by
  cases t with
  | string => cases h
  | plain => cases h
  | _ =>
    cases h
    exact tokens?_of_scan? rfl rfl

theorem tokens?_literal (text : Option String) (rest : List Char) :
    tokens? (literal text ++ rest) = (tokens? rest).map (.string text :: ·) := by
  have hscan := Token.scan?_literal text rest
  cases text with
  | none => exact tokens?_of_scan? rfl hscan
  | some text => exact tokens?_of_scan? rfl hscan

theorem tokens?_toDigits (n : Nat) {rest : List Char} (h : Boundary rest) :
    tokens? (Nat.toDigits 10 n ++ rest) = (tokens? rest).map (.plain (.natural n) :: ·) := by
  have hscan := Token.scan?_toDigits n h
  obtain ⟨d, ds, hd, hds⟩ := Token.toDigits_eq_cons n
  rw [hds, List.cons_append] at hscan ⊢
  exact tokens?_of_scan? (Token.isSpace_of_isDigit hd) hscan

theorem tokens?_otherNumber {rest : List Char} (h : Boundary rest) :
    tokens? ('-' :: '0' :: rest) = (tokens? rest).map (.plain .otherNumber :: ·) := by
  have hnumber := Token.number?_toDigits 0 h
  rw [Nat.toDigits_zero, List.singleton_append] at hnumber
  refine tokens?_of_scan? rfl ?_
  simp only [Token.scan?, hnumber, Option.map_some]

mutual

/-- A written value is cut into its tokens. -/
theorem tokens?_chars (v : Json) (rest : List Char) (h : Boundary rest) :
    tokens? (v.chars ++ rest) = (tokens? rest).map (v.tokens ++ ·) := by
  match v with
  | .null => exact tokens?_of_scan? rfl rfl
  | .bool true => exact tokens?_of_scan? rfl rfl
  | .bool false => exact tokens?_of_scan? rfl rfl
  | .natural n => exact tokens?_toDigits n h
  | .otherNumber => exact tokens?_otherNumber h
  | .string text => exact tokens?_literal text rest
  | .array items =>
    have hitems := tokens?_itemChars items (']' :: rest) (.inr (.inl rfl))
    simp only [chars, tokens, List.cons_append, List.append_assoc, List.nil_append, hitems,
      tokens?_mark (t := .openBracket) rfl, tokens?_mark (t := .closeBracket) rfl,
      Option.map_map, Function.comp_def]
  | .object members =>
    have hmembers := tokens?_memberChars members ('\x7d' :: rest) (.inr (.inr rfl))
    simp only [chars, tokens, List.cons_append, List.append_assoc, List.nil_append, hmembers,
      tokens?_mark (t := .openBrace) rfl, tokens?_mark (t := .closeBrace) rfl,
      Option.map_map, Function.comp_def]

theorem tokens?_itemChars (items : List Json) (rest : List Char) (h : Boundary rest) :
    tokens? (itemChars items ++ rest) = (tokens? rest).map (itemTokens items ++ ·) := by
  match items with
  | [] => simp [itemChars, itemTokens]
  | [v] => exact tokens?_chars v rest h
  | v :: w :: vs =>
    have hv := tokens?_chars v (',' :: (itemChars (w :: vs) ++ rest)) (.inl rfl)
    have hvs := tokens?_itemChars (w :: vs) rest h
    simp only [itemChars, itemTokens, List.append_assoc, List.cons_append, hv, hvs,
      tokens?_mark (t := .comma) rfl, Option.map_map, Function.comp_def]

theorem tokens?_memberChars (members : List (Option String × Json)) (rest : List Char)
    (h : Boundary rest) :
    tokens? (memberChars members ++ rest) = (tokens? rest).map (memberTokens members ++ ·) := by
  match members with
  | [] => simp [memberChars, memberTokens]
  | [(k, v)] =>
    have hv := tokens?_chars v rest h
    simp only [memberChars, memberTokens, List.append_assoc, List.cons_append, hv,
      tokens?_literal, tokens?_mark (t := .colon) rfl, Option.map_map, Function.comp_def]
  | (k, v) :: m :: ms =>
    have hv := tokens?_chars v (',' :: (memberChars (m :: ms) ++ rest)) (.inl rfl)
    have hms := tokens?_memberChars (m :: ms) rest h
    simp only [memberChars, memberTokens, List.append_assoc, List.cons_append, hv, hms,
      tokens?_literal, tokens?_mark (t := .colon) rfl, tokens?_mark (t := .comma) rfl,
      Option.map_map, Function.comp_def]

end

/-! ## From tokens to the value -/

open State

/-- No value starts with the end of an array. -/
theorem tokens_eq_cons (v : Json) : ∃ t ts, v.tokens = t :: ts ∧ t ≠ .closeBracket := by
  cases v <;> exact ⟨_, _, rfl, by simp⟩

/-- The first item of an array is read like any value. -/
theorem foldlM_firstItem (v : Json) (ts : List Token) (around : List Container) :
    (v.tokens ++ ts).foldlM step? (firstItem around) =
      (v.tokens ++ ts).foldlM step? (value (.array [] :: around)) := by
  obtain ⟨t, us, htokens, hne⟩ := v.tokens_eq_cons
  have hstep : step? (firstItem around) t = step? (value (.array [] :: around)) t := by
    cases t with
    | closeBracket => exact absurd rfl hne
    | _ => rfl
  rw [htokens, List.cons_append, List.foldlM_cons, List.foldlM_cons, hstep]

/-- Behind a key and its colon a value is expected. -/
theorem foldlM_key (k : Option String) (ts : List Token) (before : List (Option String × Json))
    (around : List Container) :
    (Token.string k :: Token.colon :: ts).foldlM step? (key before around) =
      ts.foldlM step? (value (.object before k :: around)) := rfl

theorem itemTokens_eq_append (v : Json) (vs : List Json) :
    ∃ ts, itemTokens (v :: vs) = v.tokens ++ ts := by
  cases vs with
  | nil => exact ⟨[], (List.append_nil _).symm⟩
  | cons w vs => exact ⟨_, rfl⟩

theorem memberTokens_eq_cons (m : Option String × Json) (ms : List (Option String × Json)) :
    ∃ ts, memberTokens (m :: ms) = .string m.1 :: ts := by
  cases ms with
  | nil => exact ⟨_, rfl⟩
  | cons m' ms => exact ⟨_, rfl⟩

mutual

/-- The tokens of a value are read as the value. -/
theorem foldlM_tokens (v : Json) (around : List Container) :
    v.tokens.foldlM step? (value around) = some (after v around) := by
  match v with
  | .null => rfl
  | .bool b => rfl
  | .natural n => rfl
  | .otherNumber => rfl
  | .string text => rfl
  | .array [] => rfl
  | .array (v :: vs) =>
    have hitems := foldlM_itemTokens (v :: vs) (List.cons_ne_nil _ _) [] around
    obtain ⟨ts, hts⟩ := itemTokens_eq_append v vs
    rw [hts, List.append_assoc, ← foldlM_firstItem] at hitems
    rw [tokens, hts, List.append_assoc]
    exact hitems
  | .object [] => rfl
  | .object (m :: ms) =>
    have hmembers := foldlM_memberTokens (m :: ms) (List.cons_ne_nil _ _) [] around
    obtain ⟨ts, hts⟩ := memberTokens_eq_cons m ms
    rw [hts] at hmembers
    rw [tokens, hts]
    exact hmembers

/-- The items of an array are read behind those before them. -/
theorem foldlM_itemTokens (items : List Json) (hne : items ≠ []) (before : List Json)
    (around : List Container) :
    (itemTokens items ++ [Token.closeBracket]).foldlM step? (value (.array before :: around)) =
      some (after (.array (before.reverse ++ items)) around) := by
  match items with
  | [v] =>
    have hv := foldlM_tokens v (.array before :: around)
    simp only [itemTokens, List.foldlM_append, hv]
    simp [step?]
  | v :: w :: vs =>
    have hv := foldlM_tokens v (.array before :: around)
    have hvs := foldlM_itemTokens (w :: vs) (List.cons_ne_nil _ _) (v :: before) around
    rw [List.reverse_cons, List.append_assoc] at hvs
    simp only [itemTokens, List.append_assoc, List.foldlM_append (l := v.tokens), hv]
    exact hvs

/-- The members of an object are read behind those before them. -/
theorem foldlM_memberTokens (members : List (Option String × Json)) (hne : members ≠ [])
    (before : List (Option String × Json)) (around : List Container) :
    (memberTokens members ++ [Token.closeBrace]).foldlM step? (key before around) =
      some (after (.object (before.reverse ++ members)) around) := by
  match members with
  | [(k, v)] =>
    have hv := foldlM_tokens v (.object before k :: around)
    simp only [memberTokens, List.cons_append, foldlM_key, List.foldlM_append, hv]
    simp [step?]
  | (k, v) :: m :: ms =>
    have hv := foldlM_tokens v (.object before k :: around)
    have hms := foldlM_memberTokens (m :: ms) (List.cons_ne_nil _ _) ((k, v) :: before) around
    rw [List.reverse_cons, List.append_assoc] at hms
    simp only [memberTokens, List.cons_append, List.append_assoc, foldlM_key,
      List.foldlM_append (l := v.tokens), hv]
    exact hms

end

theorem ofTokens?_tokens (v : Json) : ofTokens? v.tokens = some v := by
  rw [ofTokens?, foldlM_tokens]
  rfl

/-- A written value is read back. -/
theorem parse?_render (v : Json) : parse? v.render = some v := by
  have htokens : tokens? v.chars = some v.tokens := by
    have h := tokens?_chars v [] trivial
    rw [List.append_nil] at h
    rw [h, tokens?]
    simp
  rw [parse?, render, String.toList_ofList, htokens]
  exact ofTokens?_tokens v

end MoveOutline.Json
