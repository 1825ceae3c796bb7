import MoveOutline.Proofs.Json.Reading
import MoveOutline.Proofs.Wire.Fields
import MoveOutline.Wire.Codec
/-!
# Sending and reading back

What is sent is the text of a value's JSON, and what is received is read from the JSON of a text.
A record is sent as an object that gives the values of its fields to their names, so all of its
fields are found again, and each kind of value is read as it was written. Numbers are the one
place where a value can be too large for that, since words have 64 bits.

Results:
* `Point.ofJson?_toJson` and its like: each type is read as it was written.
* `Wire.decode?_encode`: every value is read back from its text.
-/
namespace MoveOutline

/-! ## Values of fields -/

namespace Json

/-- A record that is written with all of its fields. -/
theorem slots?_record (names : List String) (items : List Json) (form : ArrayForm)
    (hnames : names.Nodup) (hlen : items.length = names.length) :
    (record (names.zip items)).slots? names form = some (items.map some) := by
  rw [slots?_zip hnames (Nat.le_of_eq hlen), hlen, Nat.sub_self, List.replicate_zero,
    List.append_nil]

theorem word?_natural {n : Nat} (h : n < UInt64.size) : word? (.natural n) = some n :=
  if_pos h

theorem text?_ofText (text : String) : text? (ofText text) = some text := rfl

theorem list?_ofTexts (texts : List String) : list? text? (ofTexts texts) = some texts :=
  list?_map fun _ _ => rfl

theorem optional_ofOption_natural {o : Option Nat} (h : ∀ n, o = some n → n < UInt64.size) :
    optional word? (some (ofOption .natural o)) = some o := by
  cases o with
  | none => rfl
  | some n => simp [ofOption, optional, word?_natural (h n rfl)]

theorem optional_ofOption_ofText (o : Option String) :
    optional text? (some (ofOption ofText o)) = some o := by
  cases o <;> rfl

end Json

theorem NamePolicy.ofJson?_toJson (p : NamePolicy) : ofJson? p.toJson = some p := by
  cases p <;> rfl

theorem NativePolicy.ofJson?_toJson (p : NativePolicy) : ofJson? p.toJson = some p := by
  cases p <;> rfl

theorem Context.ofJson?_toJson (c : Context) : ofJson? c.toJson = some c :=
  ofName?_name c

/-! ## Records -/

section

open Json

theorem Point.ofJson?_toJson {p : Point} (hrow : p.row < UInt64.size)
    (hcolumn : p.column < UInt64.size) : ofJson? p.toJson = some p := by
  have hslots : p.toJson.slots? fields .complete = some [_, _] :=
    slots?_record fields [.natural p.row, .natural p.column] .complete (by decide) rfl
  have hrow := word?_natural hrow
  have hcolumn := word?_natural hcolumn
  unfold ofJson?
  rw [hslots]
  simp [required, hrow, hcolumn]

theorem Settings.ofJson?_toJson {s : Settings} (h : ∀ n, s.nodeBudget = some n → n < UInt64.size) :
    ofJson? s.toJson = some s := by
  have hslots : s.toJson.slots? fields .mayEndEarly = some [_, _, _, _] :=
    slots?_record fields
      [s.namePolicy.toJson, s.nativePolicy.toJson, .ofOption .natural s.nodeBudget,
        .bool s.functionContexts] .mayEndEarly (by decide) rfl
  have hbudget := optional_ofOption_natural h
  unfold ofJson?
  rw [hslots]
  simp [defaulted, NamePolicy.ofJson?_toJson, NativePolicy.ofJson?_toJson, bool?, hbudget]

theorem ImportDecl.ofJson?_toJson (d : ImportDecl) : ofJson? d.toJson = some d := by
  have hslots : d.toJson.slots? fields .complete = some [_, _, _, _] :=
    slots?_record fields
      [.ofText d.sourceAddress, .ofText d.moduleName, .ofTexts d.importedMembers,
        .ofText d.rawText] .complete (by decide) rfl
  unfold ofJson?
  rw [hslots]
  simp [required, text?_ofText, list?_ofTexts]

theorem FunctionDecl.ofJson?_toJson (d : FunctionDecl) : ofJson? d.toJson = some d := by
  have hslots : d.toJson.slots? fields .complete = some [_, _, _, _, _, _, _, _] :=
    slots?_record fields
      [.ofText d.name, .ofText d.generics, .bool d.isPublic, .bool d.isNative,
        .ofText d.parametersText, .ofText d.signatureText, .ofText d.returnTypeText,
        .ofText d.acquiresText] .complete (by decide) rfl
  unfold ofJson?
  rw [hslots]
  simp [required, text?_ofText, bool?]

theorem ModuleDecl.ofJson?_toJson (d : ModuleDecl) : ofJson? d.toJson = some d := by
  have hslots : d.toJson.slots? fields .complete = some [_, _, _, _, _, _] :=
    slots?_record fields
      [.ofText d.name, .ofOption .ofText d.address, .ofTexts d.constants,
        .array (d.imports.map ImportDecl.toJson), .ofTexts d.types,
        .array (d.functions.map FunctionDecl.toJson)] .complete (by decide) rfl
  have himports := list?_map fun i (_ : i ∈ d.imports) => i.ofJson?_toJson
  have hfunctions := list?_map fun f (_ : f ∈ d.functions) => f.ofJson?_toJson
  unfold ofJson?
  rw [hslots]
  simp [required, text?_ofText, optional_ofOption_ofText, list?_ofTexts, himports, hfunctions]

theorem Scope.ofJson?_toJson (s : Scope) : ofJson? s.toJson = some s := by
  have hslots : s.toJson.slots? fields .complete = some [_, _] :=
    slots?_record fields
      [.ofOption .ofText s.moduleName, .array (s.contexts.map Context.toJson)] .complete
      (by decide) rfl
  have hcontexts := list?_map fun c (_ : c ∈ s.contexts) => c.ofJson?_toJson
  unfold ofJson?
  rw [hslots]
  simp [required, optional_ofOption_ofText, hcontexts]

end

/-! ## Texts -/

namespace Wire

/-- The text that a value is sent as. -/
def encode {α : Type} (toJson : α → Json) (a : α) : String :=
  (toJson a).render

/-- The value that a text stands for. -/
def decode? {α : Type} (ofJson? : Json → Option α) (text : String) : Option α :=
  (Json.parse? text).bind ofJson?

/-- A value is sent as an object with the given members and read back from it. -/
structure ReadsBack {α : Type} (members : List (String × Json)) (toJson : α → Json)
    (ofJson? : Json → Option α) (a : α) : Prop where
  written : Json.parse? (encode toJson a) = some (.record members)
  read : decode? ofJson? (encode toJson a) = some a

section

variable {α : Type} {toJson : α → Json} {ofJson? : Json → Option α} {a : α}

theorem decode?_encode_of_ofJson? (h : ofJson? (toJson a) = some a) :
    decode? ofJson? (encode toJson a) = some a := by
  rw [decode?, encode, Json.parse?_render]
  exact h

theorem ReadsBack.of_ofJson? {members : List (String × Json)}
    (hwritten : toJson a = .record members) (h : ofJson? (toJson a) = some a) :
    ReadsBack members toJson ofJson? a where
  written := by rw [encode, Json.parse?_render, hwritten]
  read := decode?_encode_of_ofJson? h

end

/-- **Wire round trip.** Every value is read back from the text that it is sent as, whatever texts
it holds and however long its lists are, as long as its numbers are words of 64 bits. A record is
sent as an object with its fields in order, in which what is absent is `null`, and an alternative
as its name. -/
theorem decode?_encode :
    (∀ p : Point, p.row < UInt64.size → p.column < UInt64.size →
      ReadsBack [("row", .natural p.row), ("column", .natural p.column)]
        Point.toJson Point.ofJson? p) ∧
    (∀ s : Settings, (∀ n, s.nodeBudget = some n → n < UInt64.size) →
      ReadsBack
        [("moduleNamePolicy", s.namePolicy.toJson), ("nativeFlag", s.nativePolicy.toJson),
          ("nodeBudget", .ofOption .natural s.nodeBudget),
          ("functionDefinitionContext", .bool s.functionContexts)]
        Settings.toJson Settings.ofJson? s) ∧
    (∀ d : ImportDecl,
      ReadsBack
        [("sourceAddress", .ofText d.sourceAddress), ("moduleName", .ofText d.moduleName),
          ("importedMembers", .ofTexts d.importedMembers), ("rawText", .ofText d.rawText)]
        ImportDecl.toJson ImportDecl.ofJson? d) ∧
    (∀ d : FunctionDecl,
      ReadsBack
        [("name", .ofText d.name), ("generics", .ofText d.generics), ("isPublic", .bool d.isPublic),
          ("isNative", .bool d.isNative), ("parametersText", .ofText d.parametersText),
          ("signatureText", .ofText d.signatureText), ("returnTypeText", .ofText d.returnTypeText),
          ("acquiresText", .ofText d.acquiresText)]
        FunctionDecl.toJson FunctionDecl.ofJson? d) ∧
    (∀ d : ModuleDecl,
      ReadsBack
        [("name", .ofText d.name), ("address", .ofOption .ofText d.address),
          ("constants", .ofTexts d.constants),
          ("imports", .array (d.imports.map ImportDecl.toJson)), ("types", .ofTexts d.types),
          ("functions", .array (d.functions.map FunctionDecl.toJson))]
        ModuleDecl.toJson ModuleDecl.ofJson? d) ∧
    (∀ s : Scope,
      ReadsBack
        [("enclosingModuleName", .ofOption .ofText s.moduleName),
          ("contextStack", .array (s.contexts.map Context.toJson))]
        Scope.toJson Scope.ofJson? s) ∧
    (∀ c : Context, decode? Context.ofJson? (encode Context.toJson c) = some c) ∧
    [Context.structField, .structGeneric, .structDefinition, .moduleBody, .scriptBlock,
        .importDecl, .functionDefinition, .functionArguments, .functionBody].map Context.toJson =
      ["StructField", "StructGeneric", "StructDefinition", "Module", "Script", "Import",
        "FunctionDefinition", "FunctionArguments", "FunctionBody"].map Json.ofText ∧
    [NamePolicy.outermost, .nearest].map NamePolicy.toJson =
      ["outermost", "nearest"].map Json.ofText ∧
    [NativePolicy.byDeclarationKind, .alwaysNative].map NativePolicy.toJson =
      ["byDeclarationKind", "alwaysNative"].map Json.ofText := by
  refine ⟨?_, ?_, ?_, ?_, ?_, ?_, ?_, rfl, rfl, rfl⟩
  · intro p hrow hcolumn
    exact .of_ofJson? rfl (Point.ofJson?_toJson hrow hcolumn)
  · intro s h
    exact .of_ofJson? rfl (Settings.ofJson?_toJson h)
  · intro d
    exact .of_ofJson? rfl d.ofJson?_toJson
  · intro d
    exact .of_ofJson? rfl d.ofJson?_toJson
  · intro d
    exact .of_ofJson? rfl d.ofJson?_toJson
  · intro s
    exact .of_ofJson? rfl s.ofJson?_toJson
  · intro c
    exact decode?_encode_of_ofJson? c.ofJson?_toJson

/-- The largest word is read back, as a row and as a budget. -/
theorem decode?_encode_largestWord :
    let p : Point := ⟨18446744073709551615, 0⟩
    let s : Settings := { nodeBudget := some 18446744073709551615 }
    p.row < UInt64.size ∧ p.column < UInt64.size ∧ (∀ n, s.nodeBudget = some n → n < UInt64.size) ∧
      ReadsBack [("row", .natural 18446744073709551615), ("column", .natural 0)]
        Point.toJson Point.ofJson? p ∧
      decode? Settings.ofJson? (encode Settings.toJson s) = some s ∧
      encode Point.toJson p = "\x7b\"row\":18446744073709551615,\"column\":0\x7d" := by
  intro p s
  have hbudget : ∀ n, s.nodeBudget = some n → n < UInt64.size := by
    rintro n ⟨⟩
    decide
  exact ⟨by decide, by decide, hbudget, decode?_encode.1 p (by decide) (by decide),
    (decode?_encode.2.1 s hbudget).read, by decide +kernel⟩

/-- Quotes, backslashes and control characters are escaped, and nothing else is. -/
example : encode Scope.toJson { moduleName := some "a\"\\\n\x01é🪙", contexts := [.moduleBody] } =
    "\x7b\"enclosingModuleName\":\"a\\\"\\\\\\n\\u0001é🪙\",\"contextStack\":[\"Module\"]\x7d" := by
  decide +kernel

end Wire

end MoveOutline
