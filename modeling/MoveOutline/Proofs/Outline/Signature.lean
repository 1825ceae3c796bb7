import MoveOutline.Proofs.Outline.Verbatim
/-!
# Signatures without bodies

The signature of an ordinary function ends before the first opening brace of its text. That brace
need not be the one of the body, since the text before it is not parsed and may hold anything. So
what is kept is told by the brace alone: text behind any opening brace is never read, and cutting
and trimming a second time finds nothing more to take away.

An edit behind the brace changes the text of the definition, the end of its range, and whatever
the parser makes of the new body. `Label.Covers` says of both ranges, the one before and the one
after the edit, where they stand in their sources.

Results:
* `FunctionDecl.signatureOf_append`: what comes behind an opening brace is not read.
* `FunctionDecl.signatureOf_signatureOf`: signatures are their own signatures.
* `FunctionDecl.signatureText_read`: the signature in the record of a definition.
* `FunctionDecl.signature_bodyIrrelevant`: all of it, with edits of the source.
-/
namespace MoveOutline

open Text (before trim)

/-- The range of the label is that of `part` in every source that starts with `front ++ part`. -/
structure Label.Covers (l : Label) (front part : String) : Prop where
  start : front.utf8ByteSize = l.start.byte
  stop : front.utf8ByteSize + part.utf8ByteSize = l.stop.byte

theorem Label.Covers.text_eq {l : Label} {front part : String} (h : l.Covers front part)
    (back : String) : l.text (front ++ part ++ back) = part := by
  have hslice : Text.slice? l.start.byte l.stop.byte (front ++ part ++ back).toList =
      some part.toList :=
    Text.slice?_toList_eq_some_iff.2 ⟨front, back, rfl, h.start, h.stop⟩
  rw [Label.text, Text.slice, hslice, Option.getD_some, String.ofList_toList]

namespace FunctionDecl

/-! ## The text of a signature -/

theorem toList_signatureOf (text : String) :
    (signatureOf text).toList = trim (before '\x7b' text.toList) := by
  rw [signatureOf, String.toList_ofList]

theorem signatureOf_append (text rest : String) :
    signatureOf (text ++ "\x7b" ++ rest) = signatureOf text := by
  have htext : (text ++ "\x7b" ++ rest).toList = text.toList ++ '\x7b' :: rest.toList := by
    simp
  rw [signatureOf, htext, Text.before_append_cons, signatureOf]

theorem brace_notMem_signatureOf (text : String) : '\x7b' ∉ (signatureOf text).toList := by
  obtain ⟨front, ⟨hnot, -⟩, htrimmed⟩ := isTrimmed_signatureOf text
  obtain ⟨left, right, hfront, -, -⟩ := htrimmed.around
  intro hmem
  apply hnot
  rw [hfront]
  exact List.mem_append_left right (List.mem_append_right left hmem)

theorem signatureOf_signatureOf (text : String) :
    signatureOf (signatureOf text) = signatureOf text := by
  rw [← String.toList_inj, toList_signatureOf (signatureOf text),
    Text.before_of_notMem (brace_notMem_signatureOf text), toList_signatureOf, Text.trim_trim]

/-! ## The signature in a record -/

/-- The children of a definition do not touch the signature. -/
theorem signatureText_read (settings : Settings) (source : String) (form : FunctionForm)
    (d : Tree) :
    (read settings source form d).signatureText = signature form (d.label.text source) := by
  rw [read, field_foldl_note_of_kept source form (·.signatureText)]
  intro f c
  rw [note_eq]

theorem signatureText_of_covers (settings : Settings) {front text rest : String} (back : String)
    {d : Tree} (h : d.label.Covers front (text ++ "\x7b" ++ rest)) :
    (read settings (front ++ (text ++ "\x7b" ++ rest) ++ back) .ordinary d).signatureText =
      signatureOf text := by
  rw [signatureText_read, h.text_eq, signature, signatureOf_append]

/-- **The signature does not depend on the body.** What comes behind an opening brace is not read,
whatever stands before it, and the cut at the offset of the first brace does not fail. A signature
is its own signature, has no opening brace in it, and neither starts nor ends with a blank
character. Two definitions that agree up to an opening brace have the same signature in their
records, wherever they stand in their sources and whatever children they have. -/
theorem signature_bodyIrrelevant (text rest : String) :
    signatureOf (text ++ "\x7b" ++ rest) = signatureOf text ∧
    signature? .ordinary (text ++ "\x7b" ++ rest) = some (signatureOf text) ∧
    signature? .ordinary text = some (signatureOf text) ∧
    signatureOf (signatureOf text) = signatureOf text ∧
    '\x7b' ∉ (signatureOf text).toList ∧
    (∀ c ∈ (signatureOf text).toList.head?, Text.isBlank c = false) ∧
    (∀ c ∈ (signatureOf text).toList.getLast?, Text.isBlank c = false) ∧
    ∀ (settings : Settings) (front back front' rest' back' : String) (d d' : Tree),
      d.label.Covers front (text ++ "\x7b" ++ rest) →
      d'.label.Covers front' (text ++ "\x7b" ++ rest') →
      (read settings (front ++ (text ++ "\x7b" ++ rest) ++ back) .ordinary d).signatureText =
          signatureOf text ∧
        (read settings (front' ++ (text ++ "\x7b" ++ rest') ++ back') .ordinary d').signatureText =
          signatureOf text := by
  obtain ⟨_, -, htrimmed⟩ := isTrimmed_signatureOf text
  refine ⟨signatureOf_append text rest, ?_, signature?_eq .ordinary text,
    signatureOf_signatureOf text, brace_notMem_signatureOf text, htrimmed.first, htrimmed.last, ?_⟩
  · rw [signature?_eq, signature, signatureOf_append]
  · intro settings front back front' rest' back' d d' h h'
    exact ⟨signatureText_of_covers settings back h, signatureText_of_covers settings back' h'⟩

/-- The text of a function up to its body, with a blank character of three bytes in front and a
brace in the parameters. -/
def braceInParameters : String := "\u2003fun é(s: \x7b) "

/-- That function with its body, behind a letter of two bytes. -/
def bodyAsBlock : Tree :=
  ⟨.onLine "usual_function_definition" 2 21,
    .cons (.onLine "function_identifier" 9 11) .nil <|
    .cons (.onLine "block" 18 21) .nil .nil⟩

/-- The same function in front of other text, with a body that the parser makes nothing of. -/
def bodyUnread : Tree :=
  ⟨.onLine "usual_function_definition" 0 24, .nil⟩

/-- The signature ends inside the parameters, before the edit and after it. -/
theorem signature_bodyIrrelevant_braceInParameters :
    bodyAsBlock.label.Covers "é" (braceInParameters ++ "\x7b" ++ " \x7d") ∧
    bodyUnread.label.Covers "" (braceInParameters ++ "\x7b" ++ "é\x7b\x7b\u3000") ∧
    signatureOf braceInParameters = "fun é(s:" ∧
    (read {} "é\u2003fun é(s: \x7b) \x7b \x7d" .ordinary bodyAsBlock).signatureText =
      "fun é(s:" ∧
    (read {} "\u2003fun é(s: \x7b) \x7bé\x7b\x7b\u3000//" .ordinary bodyUnread).signatureText =
      "fun é(s:" := by
  have hbefore : bodyAsBlock.label.Covers "é" (braceInParameters ++ "\x7b" ++ " \x7d") :=
    ⟨by decide +kernel, by decide +kernel⟩
  have hafter : bodyUnread.label.Covers "" (braceInParameters ++ "\x7b" ++ "é\x7b\x7b\u3000") :=
    ⟨by decide +kernel, by decide +kernel⟩
  have hsignature : signatureOf braceInParameters = "fun é(s:" := by decide +kernel
  obtain ⟨-, -, -, -, -, -, -, hedit⟩ := signature_bodyIrrelevant braceInParameters " \x7d"
  obtain ⟨hread, hread'⟩ :=
    hedit {} "é" "" "" "é\x7b\x7b\u3000" "//" bodyAsBlock bodyUnread hbefore hafter
  rw [hsignature] at hread hread'
  exact ⟨hbefore, hafter, hsignature, hread, hread'⟩

end FunctionDecl

end MoveOutline
