import MoveOutline.Proofs.Outline.Functions
import MoveOutline.Proofs.Outline.Contents
import MoveOutline.Proofs.Text.Part
/-!
# Texts of an outline as parts of the source

An outline can be asked for with a tree of another text, and then the ranges in the tree say nothing
about the source. Still each text in the outline stands in the source as it is. It is the text of
a node, which is empty if the range of the node does not fit, or such a text cut and trimmed. Only
the resources of an ordinary function are put together anew, when the keyword that is taken out of
the clause has something before it and something behind it.

Two things could fail on the way: following a link to a node that is not there, and cutting a
definition inside a character. `FunctionDecl.read?` reads a definition with such a cut.

Results:
* `Node.readable`: at a node of a tree, nothing fails.
* `FunctionDecl.isVerbatim_read`: the texts in the record of a function.
* `ImportDecl.isVerbatim_read`: the texts in an import.
* `outline_verbatim`: all texts of an outline.
-/
namespace MoveOutline

open Text (IsPart)

/-! ## Imports and functions -/

/-- The texts of an import are parts of the source. -/
structure ImportDecl.IsVerbatim (source : String) (i : ImportDecl) : Prop where
  sourceAddress : IsPart source i.sourceAddress
  moduleName : IsPart source i.moduleName
  importedMembers : ∀ text ∈ i.importedMembers, IsPart source text
  rawText : IsPart source i.rawText

/-- The texts in the record of the function at a node are parts of the source. -/
structure FunctionDecl.IsVerbatim (source : String) (n : Node) (f : FunctionDecl) : Prop where
  name : IsPart source f.name
  generics : IsPart source f.generics
  parametersText : IsPart source f.parametersText
  signatureText : IsPart source f.signatureText
  returnTypeText : IsPart source f.returnTypeText
  /-- In the clause of an ordinary function something may stand before the keyword. -/
  acquiresText : n.form = .native ∨
      "acquires".toList <+: (n.lastText source ["resource_accquires"]).toList ∨
      ¬ "acquires".toList <:+: (n.lastText source ["resource_accquires"]).toList →
    IsPart source f.acquiresText

/-! ## Cutting a definition -/

/-- The signature, if the text can be cut off at the offset of the brace. -/
def FunctionDecl.signature? : FunctionForm → String → Option String
  | .ordinary, text =>
    (Text.before? '\x7b' text.toList).map fun front => String.ofList (Text.trim front)
  | .native, text => some text

/-- The function that a definition declares, if its text can be cut off at the offset of the brace.
-/
def FunctionDecl.read? (settings : Settings) (source : String) (form : FunctionForm) (d : Tree) :
    Option FunctionDecl := do
  let signatureText ← signature? form (d.label.text source)
  let children := d.childLabels
  return children.foldl (note source form)
    { isPublic := hasPublic form children
      isNative := settings.nativePolicy.isNative (form == .native)
      signatureText }

/-! ## Modules and nodes -/

/-- The texts in the record of a module of the tree are parts of the source. -/
structure ModuleDecl.IsVerbatim (settings : Settings) (t : Tree) (source : String)
    (d : ModuleDecl) : Prop where
  name : IsPart source d.name
  address : ∀ text ∈ d.address, IsPart source text
  constants : ∀ text ∈ d.constants, IsPart source text
  types : ∀ text ∈ d.types, IsPart source text
  imports : ∀ i ∈ d.imports, i.IsVerbatim source
  /-- Each function is read from a definition of its own. -/
  functions : ∃ ns, ns.Sublist (t.nodes.filter Node.isFunction) ∧
    List.Forall₂ (fun n f => FunctionDecl.read? settings source n.form n.tree = some f ∧
      f.IsVerbatim source n) ns d.functions

/-- What is read at a node is there, and the text of the node is what its range says. -/
structure Node.Readable (settings : Settings) (t : Tree) (source : String) (n : Node) : Prop where
  /-- The nodes that it is linked with are found under their ids. -/
  links : ∀ x, n.parent? = some x ∨ (∃ i, n.child? i = some x) ∨ x ∈ n.children ∨
    n.nextSibling? = some x ∨ x ∈ n.descendants → t.node x.id = .ok x
  /-- The definition of a function can be cut. -/
  definition : ∀ form, FunctionDecl.read? settings source form n.tree =
    some (.read settings source form n.tree)
  bytes : Text.Delimits source n.label.start.byte n.label.stop.byte →
    (n.text source).toByteArray =
      source.toByteArray.extract n.label.start.byte n.label.stop.byte
  foreign : ¬ Text.Delimits source n.label.start.byte n.label.stop.byte → n.text source = ""

section

variable (settings : Settings) (source : String)

/-! ## Nothing fails -/

theorem FunctionDecl.signature?_eq (form : FunctionForm) (text : String) :
    signature? form text = some (signature form text) := by
  cases form with
  | ordinary => rw [signature?, Text.before?_eq]; rfl
  | native => rfl

theorem FunctionDecl.read?_eq (form : FunctionForm) (d : Tree) :
    read? settings source form d = some (read settings source form d) := by
  rw [read?, signature?_eq]
  rfl

theorem Node.readable {t : Tree} {n : Node} (hn : n ∈ t.nodes) :
    n.Readable settings t source where
  links _ hx := Tree.node_id (Tree.mem_nodes_of_link hn hx)
  definition form := FunctionDecl.read?_eq settings source form n.tree
  bytes := Text.toByteArray_slice
  foreign := Text.slice_eq_empty

/-! ## Texts -/

theorem Label.isPart_text (l : Label) : IsPart source (l.text source) :=
  Text.isPart_slice source l.start.byte l.stop.byte

theorem Node.isPart_text (n : Node) : IsPart source (n.text source) :=
  n.label.isPart_text source

/-- The text of a node that may be missing, with nothing for the default. -/
theorem isPart_getD {α : Type} {read : α → String} (h : ∀ a, IsPart source (read a))
    (a? : Option α) : IsPart source ((a?.map read).getD "") := by
  cases a? with
  | none => exact Text.isPart_empty source
  | some a => exact h a

/-- The texts of a list of nodes. -/
theorem isPart_of_mem_map {α : Type} {read : α → String} (h : ∀ a, IsPart source (read a))
    {items : List α} {text : String} (htext : text ∈ items.map read) : IsPart source text := by
  obtain ⟨a, -, rfl⟩ := List.mem_map.1 htext
  exact h a

theorem Label.isPart_getD_text (l? : Option Label) :
    IsPart source ((l?.map (·.text source)).getD "") :=
  isPart_getD source (Label.isPart_text source) l?

theorem Node.isPart_lastText (kinds : List String) (n : Node) :
    IsPart source (n.lastText source kinds) :=
  isPart_getD source (Node.isPart_text source) _

/-! ## Records -/

theorem ImportDecl.isVerbatim_read (d : Tree) : (read source d).IsVerbatim source where
  sourceAddress := Label.isPart_getD_text source _
  moduleName := Label.isPart_getD_text source _
  importedMembers _ := isPart_of_mem_map source (Label.isPart_text source)
  rawText := d.label.isPart_text source

theorem FunctionDecl.isPart_signature (form : FunctionForm) {text : String}
    (h : IsPart source text) : IsPart source (signature form text) := by
  cases form with
  | native => exact h
  | ordinary =>
    have hfront := h.trans (Text.isPart_before '\x7b' text)
    exact hfront.trans (Text.isPart_trim _)

/-- An ordinary clause loses its keyword, which must stand at the start or nowhere. -/
theorem FunctionDecl.isPart_acquires (form : FunctionForm) {clause : String}
    (hclause : IsPart source clause)
    (h : form = .native ∨ acquiresKeyword.toList <+: clause.toList ∨
      ¬ acquiresKeyword.toList <:+: clause.toList) : IsPart source (acquires form clause) := by
  cases form with
  | native => exact hclause
  | ordinary =>
    have hresources := hclause.trans (Text.isPart_eraseFirst (h.resolve_left (by simp)))
    exact hresources.trans (Text.isPart_trim _)

theorem FunctionDecl.isVerbatim_read (n : Node) :
    (read settings source n.form n.tree).IsVerbatim source n := by
  have hlast (kinds : List String) := Node.isPart_lastText source kinds n
  rw [read_eq]
  exact
    { name := hlast _
      generics := hlast _
      parametersText := hlast _
      signatureText := isPart_signature source n.form (n.isPart_text source)
      returnTypeText := hlast _
      acquiresText := isPart_acquires source n.form (hlast _) }

theorem isPart_of_mem_lastAddress {ns : List Node} {text : String}
    (h : text ∈ lastAddress source ns) : IsPart source text := by
  rw [lastAddress, Option.mem_def, Option.map_eq_some_iff] at h
  obtain ⟨literal, -, rfl⟩ := h
  exact literal.isPart_text source

/-- A record made from nodes of a tree, and from the text of an address. -/
theorem ModuleDecl.isVerbatim_ofMembers {t : Tree} {address : Option String} (m : Node)
    {ns : List Node} (haddress : ∀ text ∈ address, IsPart source text)
    (hns : ns.Sublist t.nodes) :
    (ofMembers settings source address m ns).IsVerbatim settings t source where
  name := Label.isPart_getD_text source _
  address := haddress
  constants _ := isPart_of_mem_map source (Node.isPart_text source)
  types _ := isPart_of_mem_map source (Node.isPart_text source)
  imports := by
    intro i hi
    obtain ⟨d, -, rfl⟩ := List.mem_map.1 hi
    exact ImportDecl.isVerbatim_read source d.tree
  functions := by
    refine ⟨ns.filter Node.isFunction, hns.filter _, ?_⟩
    rw [show (ofMembers settings source address m ns).functions = _ from filterMap_function? ns,
      List.forall₂_map_right_iff, List.forall₂_same]
    intro n _
    exact ⟨FunctionDecl.read?_eq settings source n.form n.tree,
      FunctionDecl.isVerbatim_read settings source n⟩

end

/-- **Every text of an outline is a part of the source.** With a tree of any other text, no node is
missing and no cut fails, the text of a node is what stands between the ends of its range, or
nothing if there is no such text, and the records of the modules hold only parts of the source. -/
theorem outline_verbatim (settings : Settings) (t : Tree) (source : String) :
    (∀ n ∈ t.nodes, n.Readable settings t source) ∧
    ∀ d ∈ (outline settings t source).value, d.IsVerbatim settings t source := by
  refine ⟨fun n hn => Node.readable settings source hn, ?_⟩
  intro d hd
  by_cases hs : source = ""
  · rw [outline, if_pos hs] at hd
    cases hd
  · rw [outline_value settings t source hs] at hd
    obtain ⟨m, hm, rfl⟩ := List.mem_map.1 hd
    have hbelow : m.below.Sublist t.nodes := by
      have hmem := Tree.mem_nodes_of_mem_outermostModules (List.mem_of_mem_filter hm)
      rw [← Tree.inside_eq hmem]
      exact List.filter_sublist
    exact ModuleDecl.isVerbatim_ofMembers settings source m
      (fun _ => isPart_of_mem_lastAddress source) (List.filter_sublist.trans hbelow)

/-- The text of a module with a letter of two bytes for its name. -/
def strayRangesText : String := "module é fun f() R acquires S \x7b\x7d"

/-- A tree with ranges that do not fit that text: inside the letter, reversed and behind the end. The
last two ranges of the module are the same function in its two forms. -/
def strayRanges : Tree :=
  let function : Forest :=
    .cons (.onLine "function_identifier" 14 15) .nil <|
    .cons (.onLine "resource_accquires" 18 30) .nil .nil
  ⟨.onLine "source_file" 0 33,
    .cons (.onLine "module_definition" 0 33)
      (.cons (.onLine "module" 0 6) .nil <|
      .cons (.onLine "module_identifier" 8 9) .nil <|
      .cons (.onLine "constant" 9 7) .nil <|
      .cons (.onLine "constant" 7 9) .nil <|
      .cons (.onLine "struct_definition" 7 40) .nil <|
      .cons (.onLine "usual_function_definition" 10 33) function <|
      .cons (.onLine "native_function_definition" 10 33) function .nil) .nil⟩

/-- The resources of the ordinary function are the one text that is not in the source. -/
theorem outline_verbatim_strayRanges :
    (∀ n ∈ strayRanges.nodes, n.Readable {} strayRanges strayRangesText) ∧
    (∀ d ∈ (outline {} strayRanges strayRangesText).value,
      d.IsVerbatim {} strayRanges strayRangesText) ∧
    (outline {} strayRanges strayRangesText).value =
      [{ name := "", constants := ["", "é"], types := [""]
         functions :=
           [{ name := "f", signatureText := "fun f() R acquires S", acquiresText := "R  S" },
            { name := "f", isNative := true, signatureText := "fun f() R acquires S \x7b\x7d",
              acquiresText := "R acquires S" }] }] ∧
    ¬ IsPart strayRangesText "R  S" := by
  obtain ⟨hnodes, hrecords⟩ := outline_verbatim {} strayRanges strayRangesText
  refine ⟨hnodes, hrecords, by decide +kernel, ?_⟩
  rw [Text.isPart_iff]
  decide +kernel

end MoveOutline
