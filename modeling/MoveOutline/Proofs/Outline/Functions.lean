import MoveOutline.Proofs.Outline.Naming
import MoveOutline.Proofs.Text.Cut
/-!
# What the record of a function says

The record of a function is filled in from the children of its definition, one after the other, and
a child may overwrite what an earlier one has told. So each text in the record is that of the last
child of a kind. Nothing below the children is looked at, which matters for a definition that is
still being typed: its children may come twice, in another order or not at all, and what is in the
body may look like them.

Results:
* `FunctionDecl.note_eq`: all that one child changes.
* `FunctionDecl.field_foldl_note`: what all children together make of one field.
* `FunctionDecl.read_eq`: the record, by the last children of each kind.
* `functionDefinition_read`: the same in the terms of the two forms of definitions.
-/
namespace MoveOutline

/-- The text of the last child with one of the given tags, empty if there is none. -/
def Node.lastText (source : String) (kinds : List String) (n : Node) : String :=
  (((n.children.filter fun c => c.kind ∈ kinds).getLast?).map (·.text source)).getD ""

namespace FunctionDecl

/-- What the record of a function says in both forms of a definition. -/
structure IsOf (source : String) (n : Node) (f : FunctionDecl) : Prop where
  name : f.name = n.lastText source ["function_identifier"]
  parameters : f.parametersText = n.lastText source ["func_params"]
  generics : f.generics = n.lastText source ["type_parameters"]
  returnType : f.returnTypeText = n.lastText source ["apply_type", "tuple_type"]

/-- What the record of a function with a body says. -/
structure IsOfOrdinary (settings : Settings) (source : String) (n : Node) (f : FunctionDecl) : Prop
    extends f.IsOf source n where
  /-- The first child is the keyword. -/
  isPublic : f.isPublic = true ↔ ∃ c, n.child? 0 = some c ∧ c.kind = "public"
  isNative : f.isNative = true ↔ settings.nativePolicy = .alwaysNative
  /-- The text before the first opening brace, trimmed. -/
  signature : ∃ front, Text.IsBefore '\x7b' (n.text source).toList front ∧
    Text.IsTrimmed front f.signatureText.toList
  /-- The last clause without the first `acquires` in it, trimmed. -/
  acquires : ∃ resources,
    Text.IsErased "acquires".toList (n.lastText source ["resource_accquires"]).toList resources ∧
      Text.IsTrimmed resources f.acquiresText.toList

/-- What the record of a native function says. -/
structure IsOfNative (source : String) (n : Node) (f : FunctionDecl) : Prop
    extends f.IsOf source n where
  /-- The keyword is among the children before the first `fun`. -/
  isPublic : f.isPublic = true ↔ ∃ before c after, n.children = before ++ c :: after ∧
    c.kind = "public" ∧ ∀ b ∈ before, b.kind ≠ "fun"
  isNative : f.isNative = true
  signature : f.signatureText = n.text source
  /-- The last clause as it stands. -/
  acquires : f.acquiresText = n.lastText source ["resource_accquires"]

/-! ## The children one after the other -/

section
variable (source : String) (form : FunctionForm)

/-- What one child changes. -/
theorem note_eq (f : FunctionDecl) (c : Label) : note source form f c =
    { f with
      name := if c.is .functionIdentifier then c.text source else f.name
      parametersText := if c.is .funcParams then c.text source else f.parametersText
      generics := if c.is .typeParameters then c.text source else f.generics
      returnTypeText :=
        if c.is .applyType || c.is .tupleType then c.text source else f.returnTypeText
      acquiresText :=
        if c.is .resourceAcquires then FunctionDecl.acquires form (c.text source)
        else f.acquiresText } := by
  simp only [Label.is_eq c]
  unfold note
  cases c.symbol? with
  | none => rfl
  | some s => cases s <;> rfl

/-- A field that some labels set and the others leave alone is set for good by the last of them. -/
theorem field_foldl_note {α : Type} (field : FunctionDecl → α) (sets : Label → Bool)
    (value : Label → α)
    (h : ∀ f c, field (note source form f c) = if sets c then value c else field f)
    (cs : List Label) (f : FunctionDecl) : field (cs.foldl (note source form) f) =
      (((cs.filter sets).getLast?).map value).getD (field f) := by
  induction cs generalizing f with
  | nil => rfl
  | cons c cs ih =>
    rw [List.foldl_cons, ih, h, List.filter_cons]
    split
    · rw [List.getLast?_cons]
      cases (cs.filter sets).getLast? <;> rfl
    · rfl

/-- A field that no label sets stays as it was. -/
theorem field_foldl_note_of_kept {α : Type} (field : FunctionDecl → α)
    (h : ∀ f c, field (note source form f c) = field f) (cs : List Label) (f : FunctionDecl) :
    field (cs.foldl (note source form) f) = field f := by
  rw [field_foldl_note source form field (fun _ => false) (fun _ => field f) fun f c => h f c,
    List.filter_false]
  rfl

/-- A field that the children with some tags set by their text tells the text of the last child
with one of these tags. -/
theorem text_foldl_note (field : FunctionDecl → String) (value : String → String)
    {sets : Label → Bool} {kinds : List String} (n : Node)
    (h : ∀ f c, field (note source form f c) = if sets c then value (c.text source) else field f)
    (hsets : ∀ c : Label, sets c = decide (c.kind ∈ kinds)) {f : FunctionDecl}
    (hf : field f = value "") :
    field (n.tree.childLabels.foldl (note source form) f) = value (n.lastText source kinds) := by
  have hpick : sets ∘ Node.label = fun c => decide (c.kind ∈ kinds) :=
    funext fun c => hsets c.label
  rw [field_foldl_note source form field sets _ h, hf, ← n.map_label_children, List.filter_map,
    hpick, List.getLast?_map, Option.map_map, Node.lastText]
  cases (n.children.filter fun c => decide (c.kind ∈ kinds)).getLast? <;> rfl

end

theorem acquires_empty (form : FunctionForm) : acquires form "" = "" := by
  cases form <;> rfl

/-- The record of a function, with the text of the last child of each kind. -/
theorem read_eq (settings : Settings) (source : String) (form : FunctionForm) (n : Node) :
    read settings source form n.tree =
      { name := n.lastText source ["function_identifier"]
        generics := n.lastText source ["type_parameters"]
        isPublic := hasPublic form n.tree.childLabels
        isNative := settings.nativePolicy.isNative (form == .native)
        parametersText := n.lastText source ["func_params"]
        signatureText := signature form (n.text source)
        returnTypeText := n.lastText source ["apply_type", "tuple_type"]
        acquiresText := acquires form (n.lastText source ["resource_accquires"]) } := by
  have htag (s : Symbol) (c : Label) : c.is s = decide (c.kind ∈ [s.kind]) := by
    simp only [List.mem_singleton]
    rfl
  have htags (s s' : Symbol) (c : Label) :
      (c.is s || c.is s') = decide (c.kind ∈ [s.kind, s'.kind]) := by
    rw [htag, htag, ← Bool.decide_or]
    simp
  let start : FunctionDecl :=
    { isPublic := hasPublic form n.tree.childLabels
      isNative := settings.nativePolicy.isNative (form == .native)
      signatureText := signature form (n.text source) }
  let f := n.tree.childLabels.foldl (note source form) start
  have hname : f.name = n.lastText source ["function_identifier"] :=
    text_foldl_note source form (·.name) id n (fun f c => by rw [note_eq]; rfl)
      (htag .functionIdentifier) rfl
  have hgenerics : f.generics = n.lastText source ["type_parameters"] :=
    text_foldl_note source form (·.generics) id n (fun f c => by rw [note_eq]; rfl)
      (htag .typeParameters) rfl
  have hparameters : f.parametersText = n.lastText source ["func_params"] :=
    text_foldl_note source form (·.parametersText) id n (fun f c => by rw [note_eq]; rfl)
      (htag .funcParams) rfl
  have hreturnType : f.returnTypeText = n.lastText source ["apply_type", "tuple_type"] :=
    text_foldl_note source form (·.returnTypeText) id n (fun f c => by rw [note_eq]; rfl)
      (htags .applyType .tupleType) rfl
  have hacquires : f.acquiresText = acquires form (n.lastText source ["resource_accquires"]) :=
    text_foldl_note source form (·.acquiresText) (acquires form) n (fun f c => by rw [note_eq])
      (htag .resourceAcquires) (acquires_empty form).symm
  have hpublic : f.isPublic = hasPublic form n.tree.childLabels :=
    field_foldl_note_of_kept source form (·.isPublic) (fun f c => by rw [note_eq]) _ _
  have hnative : f.isNative = settings.nativePolicy.isNative (form == .native) :=
    field_foldl_note_of_kept source form (·.isNative) (fun f c => by rw [note_eq]) _ _
  have hsignature : f.signatureText = signature form (n.text source) :=
    field_foldl_note_of_kept source form (·.signatureText) (fun f c => by rw [note_eq]) _ _
  rw [← hname, ← hgenerics, ← hparameters, ← hreturnType, ← hacquires, ← hpublic, ← hnative,
    ← hsignature]
  rfl

/-! ## Keywords -/

/-- An ordinary function is public if the first child says so. -/
theorem hasPublic_ordinary_iff (n : Node) : hasPublic .ordinary n.tree.childLabels = true ↔
    ∃ c, n.child? 0 = some c ∧ c.kind = "public" := by
  rw [hasPublic, ← n.map_label_children, List.head?_map, Node.child?, ← List.head?_eq_getElem?]
  cases n.children.head? with
  | none => simp
  | some c => simp [Label.is, Symbol.kind, Node.kind]

/-- A native function is public if a child before the first `fun` says so. -/
theorem hasPublic_native_iff (n : Node) : hasPublic .native n.tree.childLabels = true ↔
    ∃ before c after, n.children = before ++ c :: after ∧ c.kind = "public" ∧
      ∀ b ∈ before, b.kind ≠ "fun" := by
  let early (c : Node) : Bool := c.kind ≠ "fun"
  have hearly : hasPublic .native n.tree.childLabels =
      (n.children.takeWhile early).any fun c => c.kind = "public" := by
    rw [hasPublic, ← n.map_label_children, List.takeWhile_map, List.any_map]
    congr 2
    funext c
    exact (decide_not).symm
  rw [hearly, List.any_eq_true]
  constructor
  · rintro ⟨c, hc, hpublic⟩
    obtain ⟨before, between, hsplit⟩ := List.append_of_mem hc
    refine ⟨before, c, between ++ n.children.dropWhile early, ?_, by simpa using hpublic, ?_⟩
    · rw [← List.cons_append, ← List.append_assoc, ← hsplit, List.takeWhile_append_dropWhile]
    · intro b hb
      have hmem : b ∈ n.children.takeWhile early := hsplit ▸ List.mem_append_left _ hb
      simpa [early] using List.mem_takeWhile_imp hmem
  · rintro ⟨before, c, after, hsplit, hpublic, hbefore⟩
    have hall : ∀ b ∈ before, early b = true := fun b hb => by simpa [early] using hbefore b hb
    refine ⟨c, ?_, by simpa using hpublic⟩
    rw [hsplit, List.takeWhile_append_of_pos hall, List.takeWhile_cons_of_pos]
    · exact List.mem_append_right _ List.mem_cons_self
    · simp [early, hpublic]

/-! ## Cut texts -/

theorem isTrimmed_signatureOf (text : String) :
    ∃ front, Text.IsBefore '\x7b' text.toList front ∧
      Text.IsTrimmed front (signatureOf text).toList := by
  refine ⟨Text.before '\x7b' text.toList, Text.isBefore_before _ _, ?_⟩
  rw [signatureOf, String.toList_ofList]
  exact Text.isTrimmed_trim _

theorem isTrimmed_resourcesOf (clause : String) :
    ∃ resources, Text.IsErased acquiresKeyword.toList clause.toList resources ∧
      Text.IsTrimmed resources (resourcesOf clause).toList := by
  refine ⟨Text.eraseFirst acquiresKeyword.toList clause.toList, Text.isErased_eraseFirst _ _, ?_⟩
  rw [resourcesOf, String.toList_ofList]
  exact Text.isTrimmed_trim _

/-! ## The two forms -/

theorem isOf_read (settings : Settings) (source : String) (form : FunctionForm) (n : Node) :
    (read settings source form n.tree).IsOf source n := by
  rw [read_eq]
  exact ⟨rfl, rfl, rfl, rfl⟩

theorem isOfOrdinary_read (settings : Settings) (source : String) (n : Node) :
    (read settings source .ordinary n.tree).IsOfOrdinary settings source n where
  toIsOf := isOf_read ..
  isPublic := by
    rw [read_eq]
    exact hasPublic_ordinary_iff n
  isNative := by
    have hpolicy (p : NativePolicy) : p.isNative false = true ↔ p = .alwaysNative := by
      cases p <;> decide
    rw [read_eq]
    exact hpolicy _
  signature := by
    rw [read_eq]
    exact isTrimmed_signatureOf _
  acquires := by
    rw [read_eq]
    exact isTrimmed_resourcesOf _

theorem isOfNative_read (settings : Settings) (source : String) (n : Node) :
    (read settings source .native n.tree).IsOfNative source n where
  toIsOf := isOf_read ..
  isPublic := by
    rw [read_eq]
    exact hasPublic_native_iff n
  isNative := by
    rw [read_eq]
    cases settings.nativePolicy <;> rfl
  signature := by rw [read_eq]; rfl
  acquires := by rw [read_eq]; rfl

end FunctionDecl

/-- **What the record of a function says.** A definition in one of the two forms is listed with a
record that says what the definition's children tell in that form. Definitions with one label
and children with the same labels have the same record, whatever is below the children. -/
theorem functionDefinition_read (settings : Settings) (source : String) (n : Node) :
    (n.kind = "usual_function_definition" → ∃ f : FunctionDecl,
      f.IsOfOrdinary settings source n ∧
        ∀ m, ModuleDecl.note settings source n.tree m = { m with functions := f :: m.functions }) ∧
    (n.kind = "native_function_definition" → ∃ f : FunctionDecl,
      f.IsOfNative source n ∧
        ∀ m, ModuleDecl.note settings source n.tree m = { m with functions := f :: m.functions }) ∧
    ∀ (n' : Node) (form : FunctionForm), n'.label = n.label →
      n'.children.map (·.label) = n.children.map (·.label) →
        FunctionDecl.read settings source form n'.tree =
          FunctionDecl.read settings source form n.tree := by
  have hsymbol {s : Symbol} (h : n.kind = s.kind) : n.tree.label.symbol? = some s :=
    Symbol.ofKind?_eq_some_iff.2 h
  refine ⟨?_, ?_, ?_⟩
  · intro hkind
    refine ⟨_, FunctionDecl.isOfOrdinary_read settings source n, fun m => ?_⟩
    rw [ModuleDecl.note, hsymbol (s := .usualFunctionDefinition) hkind]
  · intro hkind
    refine ⟨_, FunctionDecl.isOfNative_read settings source n, fun m => ?_⟩
    rw [ModuleDecl.note, hsymbol (s := .nativeFunctionDefinition) hkind]
  · intro n' form hlabel hchildren
    rw [n'.map_label_children, n.map_label_children] at hchildren
    have hlabel' : n'.tree.label = n.tree.label := hlabel
    rw [FunctionDecl.read, FunctionDecl.read, hchildren, hlabel']

/-- The text of an ordinary function with two names and a native one. -/
def halfTypedText : String :=
  " public fun f(a) g(b): A acquires acquires R \x7b fun h \x7d native public fun k()"

/-- The tree of that text, with a given forest in the body of the first function. -/
def halfTyped (body : Forest) : Tree :=
  ⟨.onLine "source_file" 0 76,
    .cons (.onLine "usual_function_definition" 0 54)
      (.cons (.onLine "public" 1 7) .nil <|
      .cons (.onLine "fun" 8 11) .nil <|
      .cons (.onLine "function_identifier" 12 13) .nil <|
      .cons (.onLine "func_params" 13 16) .nil <|
      .cons (.onLine "function_identifier" 17 18) .nil <|
      .cons (.onLine "func_params" 18 21) .nil <|
      .cons (.onLine "apply_type" 23 24) .nil <|
      .cons (.onLine "resource_accquires" 25 45) .nil <|
      .cons (.onLine "block" 45 54) body .nil) <|
    .cons (.onLine "native_function_definition" 55 76)
      (.cons (.onLine "native" 55 61) .nil <|
      .cons (.onLine "public" 62 68) .nil <|
      .cons (.onLine "fun" 69 72) .nil <|
      .cons (.onLine "function_identifier" 73 74) .nil <|
      .cons (.onLine "func_params" 74 76) .nil .nil) .nil⟩

/-- What stands in the body of the first function. -/
def halfTypedBody : Forest :=
  .cons (.onLine "fun" 47 50) .nil <| .cons (.onLine "function_identifier" 51 52) .nil .nil

/-- The second name of the first function counts, and the one in its body does not. -/
theorem functionDefinition_read_halfTyped : ∃ n n' bare : Node,
    (halfTyped halfTypedBody).root.children = [n, n'] ∧
    (halfTyped .nil).root.children.head? = some bare ∧
    n.kind = "usual_function_definition" ∧
    (∃ f : FunctionDecl, f.IsOfOrdinary {} halfTypedText n ∧
      ∀ m, ModuleDecl.note {} halfTypedText n.tree m = { m with functions := f :: m.functions }) ∧
    n'.kind = "native_function_definition" ∧
    (∃ f : FunctionDecl, f.IsOfNative halfTypedText n' ∧
      ∀ m, ModuleDecl.note {} halfTypedText n'.tree m = { m with functions := f :: m.functions }) ∧
    bare.label = n.label ∧ bare.children.map (·.label) = n.children.map (·.label) ∧
    FunctionDecl.read {} halfTypedText .ordinary bare.tree =
      FunctionDecl.read {} halfTypedText .ordinary n.tree ∧
    FunctionDecl.read {} halfTypedText .ordinary n.tree =
      { name := "g", isPublic := true, parametersText := "(b)", returnTypeText := "A",
        signatureText := "public fun f(a) g(b): A acquires acquires R",
        acquiresText := "acquires R" } ∧
    FunctionDecl.read {} halfTypedText .native n'.tree =
      { name := "k", isPublic := true, isNative := true, parametersText := "()",
        signatureText := "native public fun k()" } := by
  obtain ⟨hordinary, -, hsame⟩ := functionDefinition_read {} halfTypedText
    ((halfTyped halfTypedBody).root.children.head (by decide))
  obtain ⟨-, hnative, -⟩ := functionDefinition_read {} halfTypedText
    ((halfTyped halfTypedBody).root.children.getLast (by decide))
  exact ⟨_, _, _, rfl, rfl, rfl, hordinary rfl, rfl, hnative rfl, rfl, rfl, hsame _ _ rfl rfl,
    by decide +kernel, by decide +kernel⟩

end MoveOutline
