import MoveOutline.Text.Blank
import MoveOutline.Text.Hidden
/-!
# Cutting and quoting texts

* `before` is a text up to the first occurrence of a character.
* `eraseFirst` takes the first occurrence of a word out of a text.
* `quoted` writes a text between double quotes, for messages.
-/
namespace MoveOutline.Text

/-- The text before the first `c`, all of it if there is none. -/
def before (c : Char) (cs : List Char) : List Char :=
  cs.takeWhile (· != c)

/-- The text without the first occurrence of `word`; a text without that word stays as it is. -/
def eraseFirst (word : List Char) : List Char → List Char
  | [] => []
  | c :: cs =>
    if word.isPrefixOf (c :: cs) then (c :: cs).drop word.length
    else c :: eraseFirst word cs

/-- A character as quoted texts have it. The quote and the backslash are spelled out, and so are the
characters that do not show, by code point if they have no letter of their own. -/
def quotedChar (c : Char) : List Char :=
  match c with
  | '"' => ['\\', '"']
  | '\\' => ['\\', '\\']
  | '\n' => ['\\', 'n']
  | '\r' => ['\\', 'r']
  | '\t' => ['\\', 't']
  | '\x00' => ['\\', '0']
  | c =>
    if isHidden c then ['\\', 'u', '\x7b'] ++ Nat.toDigits 16 c.toNat ++ ['\x7d']
    else [c]

/-- The text between double quotes. -/
def quoted (text : String) : String :=
  String.ofList ('"' :: (text.toList.flatMap quotedChar ++ ['"']))

/-- A letter stays as it is, also one of two bytes, but not the accent that is set over another. -/
example : quoted "é\te\u0301" = "\"é\\te\\u\x7b301\x7d\"" := by
  decide +kernel

/-! ## Erasing a word -/

theorem eraseFirst_of_not_infix {word cs : List Char} (h : ¬ word <:+: cs) :
    eraseFirst word cs = cs := by
  induction cs with
  | nil => rfl
  | cons c cs ih =>
    have hp : ¬ word <+: c :: cs := fun hp => h hp.isInfix
    have ht : ¬ word <:+: cs := fun ht => h (ht.trans (List.suffix_cons c cs).isInfix)
    rw [eraseFirst, if_neg (by simpa using hp), ih ht]

theorem eraseFirst_append (word cs : List Char) : eraseFirst word (word ++ cs) = cs := by
  cases h : word ++ cs with
  | nil => simp at h; simp [h, eraseFirst]
  | cons c rest =>
    have hp : word <+: c :: rest := ⟨cs, h⟩
    rw [eraseFirst, if_pos (by simpa using hp), ← h]
    simp

end MoveOutline.Text
