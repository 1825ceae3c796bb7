import Mathlib.Data.List.Forall2
import MoveOutline.Proofs.Wire.RoundTrip
/-!
# What records are read from

The **schema** of a record type lists its fields: the name of each and how it is read, from its
value or from the lack of one. What a record is read from follows from the schema alone
(`ReadsExactly`). An object may have members of other names, in any place and with any values; an
array has the values of the fields in the order of the schema.

Every key of an object is read as a text, also one that is no field. So an object in which some
key denotes no text, which half of a surrogate pair does not, is no record at all.

Results:
* `readAll_isSome_iff`, `fields_of_readAll`, `readAll_of_fields`: a record is read when each of its
  fields is, and has these fields.
* `Follows.readsExactly`: what a reader that follows a schema accepts.
* `records_readExactly`: the readers of all record types follow their schemas.
* `settings_reject_key`: a key that denotes no text is not passed over.
-/
namespace MoveOutline

namespace Wire

/-! ## Schemas -/

/-- A field of a record type. -/
structure FieldSchema (ρ : Type) where
  name : String
  type : Type
  /-- The field in a record. -/
  get : ρ → type
  /-- How the field is read from its value, or from the lack of one. -/
  ofSlot? : Option Json → Option type

namespace FieldSchema

variable {ρ α : Type}

/-- A field that must occur. -/
def required (name : String) (get : ρ → α) (read : Json → Option α) : FieldSchema ρ :=
  ⟨name, α, get, Json.required read⟩

/-- A field that may be missing or `null`. -/
def optional (name : String) (get : ρ → Option α) (read : Json → Option α) : FieldSchema ρ :=
  ⟨name, Option α, get, Json.optional read⟩

/-- A field with a default. -/
def defaulted (name : String) (get : ρ → α) (read : Json → Option α) (default : α) :
    FieldSchema ρ :=
  ⟨name, α, get, Json.defaulted read default⟩

/-- How the field is read from all the values that an object has for it: it may not occur
twice. -/
def read? (f : FieldSchema ρ) : List Json → Option f.type
  | [] => f.ofSlot? none
  | [v] => f.ofSlot? (some v)
  | _ => none

section

variable (f : FieldSchema ρ) {values values' : List Json}

theorem read?_eq : f.read? values =
    if values.length ≤ 1 then f.ofSlot? values.head? else none := by
  cases values with
  | nil => rfl
  | cons v values =>
    cases values with
    | nil => rfl
    | cons w values => simp [read?]

theorem read?_isSome_iff : (f.read? values).isSome = true ↔
    values.length ≤ 1 ∧ (f.ofSlot? values.head?).isSome = true := by
  rw [read?_eq]
  split <;> simp [*]

theorem read?_eq_some_iff {a : f.type} : f.read? values = some a ↔
    values.length ≤ 1 ∧ f.ofSlot? values.head? = some a := by
  rw [read?_eq, Option.ite_none_right_eq_some]

theorem read?_perm (h : values.Perm values') : f.read? values = f.read? values' := by
  rw [read?_eq, read?_eq, h.length_eq]
  split
  · next hlen =>
    cases values' with
    | nil => rw [h.eq_nil]
    | cons v values' =>
      obtain rfl := List.length_eq_zero_iff.1 (Nat.le_zero.1 (Nat.le_of_succ_le_succ hlen))
      rw [List.perm_singleton.1 h]
  · rfl

end

end FieldSchema

section

variable {ρ : Type}

/-- The names of the fields. -/
def names (schema : List (FieldSchema ρ)) : List String :=
  schema.map (·.name)

/-- The names of the fields that are read from a slot. -/
def readableFrom (slot : Option Json) (schema : List (FieldSchema ρ)) : List String :=
  names (schema.filter fun f => (f.ofSlot? slot).isSome)

end

end Wire

open Wire (FieldSchema)

def Point.schema : List (FieldSchema Point) :=
  [.required "row" (·.row) Json.word?,
    .required "column" (·.column) Json.word?]

def Settings.schema : List (FieldSchema Settings) :=
  [.defaulted "moduleNamePolicy" (·.namePolicy) NamePolicy.ofJson? .outermost,
    .defaulted "nativeFlag" (·.nativePolicy) NativePolicy.ofJson? .byDeclarationKind,
    .optional "nodeBudget" (·.nodeBudget) Json.word?,
    .defaulted "functionDefinitionContext" (·.functionContexts) Json.bool? false]

def ImportDecl.schema : List (FieldSchema ImportDecl) :=
  [.required "sourceAddress" (·.sourceAddress) Json.text?,
    .required "moduleName" (·.moduleName) Json.text?,
    .required "importedMembers" (·.importedMembers) (Json.list? Json.text?),
    .required "rawText" (·.rawText) Json.text?]

def FunctionDecl.schema : List (FieldSchema FunctionDecl) :=
  [.required "name" (·.name) Json.text?,
    .required "generics" (·.generics) Json.text?,
    .required "isPublic" (·.isPublic) Json.bool?,
    .required "isNative" (·.isNative) Json.bool?,
    .required "parametersText" (·.parametersText) Json.text?,
    .required "signatureText" (·.signatureText) Json.text?,
    .required "returnTypeText" (·.returnTypeText) Json.text?,
    .required "acquiresText" (·.acquiresText) Json.text?]

def ModuleDecl.schema : List (FieldSchema ModuleDecl) :=
  [.required "name" (·.name) Json.text?,
    .optional "address" (·.address) Json.text?,
    .required "constants" (·.constants) (Json.list? Json.text?),
    .required "imports" (·.imports) (Json.list? ImportDecl.ofJson?),
    .required "types" (·.types) (Json.list? Json.text?),
    .required "functions" (·.functions) (Json.list? FunctionDecl.ofJson?)]

def Scope.schema : List (FieldSchema Scope) :=
  [.optional "enclosingModuleName" (·.moduleName) Json.text?,
    .required "contextStack" (·.contexts) (Json.list? Context.ofJson?)]

namespace Wire

variable {ρ : Type} {schema : List (FieldSchema ρ)} {form : Json.ArrayForm}
  {ofJson? : Json → Option ρ}

/-! ## Records from their fields -/

/-- A function that makes a record when it is given the fields one after the other. -/
def Make (ρ : Type) : List (FieldSchema ρ) → Type
  | [] => ρ
  | f :: fs => f.type → Make ρ fs

/-- Reads all fields and makes the record. -/
def readAll : (schema : List (FieldSchema ρ)) → Make ρ schema → List (Option Json) → Option ρ
  | [], r, [] => some r
  | f :: fs, make, slot :: slots => (f.ofSlot? slot).bind fun a => readAll fs (make a) slots
  | _, _, _ => none

/-- Makes a record from the fields of `r`. -/
def remake (r : ρ) : (schema : List (FieldSchema ρ)) → Make ρ schema → ρ
  | [], made => made
  | f :: fs, make => remake r fs (make (f.get r))

/-- Whatever fields a record is made from, it has them, and `P` holds of it. -/
def Keeps : (schema : List (FieldSchema ρ)) → Make ρ schema → (ρ → Prop) → Prop
  | [], r, P => P r
  | f :: fs, make, P => ∀ a, Keeps fs (make a) fun r => P r ∧ f.get r = a

theorem readAll_isSome_iff {make : Make ρ schema} {slots : List (Option Json)} :
    (readAll schema make slots).isSome = true ↔
      List.Forall₂ (fun f slot => (f.ofSlot? slot).isSome = true) schema slots := by
  induction schema generalizing slots with
  | nil =>
    cases slots with
    | nil => exact ⟨fun _ => .nil, fun _ => rfl⟩
    | cons slot slots => simp [readAll]
  | cons f fs ih =>
    cases slots with
    | nil => simp [readAll]
    | cons slot slots =>
      rw [readAll, List.forall₂_cons]
      cases f.ofSlot? slot with
      | none => simp
      | some a => simp [ih]

/-- The record that is read has the fields that were read. -/
theorem fields_of_readAll {make : Make ρ schema} {P : ρ → Prop} {slots : List (Option Json)}
    {r : ρ} (hkeeps : Keeps schema make P) (h : readAll schema make slots = some r) :
    P r ∧ List.Forall₂ (fun f slot => f.ofSlot? slot = some (f.get r)) schema slots := by
  induction schema generalizing slots P with
  | nil =>
    cases slots with
    | nil =>
      obtain rfl := Option.some.inj h
      exact ⟨hkeeps, .nil⟩
    | cons slot slots => cases h
  | cons f fs ih =>
    cases slots with
    | nil => cases h
    | cons slot slots =>
      obtain ⟨a, ha, h⟩ := Option.bind_eq_some_iff.1 h
      obtain ⟨⟨hP, rfl⟩, hfields⟩ := ih (hkeeps a) h
      exact ⟨hP, .cons ha hfields⟩

/-- What is read is the record that has the fields. -/
theorem readAll_of_fields {make : Make ρ schema} {slots : List (Option Json)} {r : ρ}
    (h : List.Forall₂ (fun f slot => f.ofSlot? slot = some (f.get r)) schema slots) :
    readAll schema make slots = some (remake r schema make) := by
  induction h with
  | nil => rfl
  | cons hslot _ ih => rw [readAll, hslot, Option.bind_some, ih, remake]

/-! ## Readers that follow a schema -/

/-- A reader takes the slots of an object or array, reads all fields from them and makes the
record of these fields. -/
structure Follows (schema : List (FieldSchema ρ)) (make : Make ρ schema) (form : Json.ArrayForm)
    (ofJson? : Json → Option ρ) : Prop where
  nodup : (names schema).Nodup
  keeps : Keeps schema make fun _ => True
  remake_eq : ∀ r, remake r schema make = r
  /-- Only fields that may be missing may be left out at the end of an array. -/
  missing : form = .mayEndEarly → ∀ f ∈ schema, (f.ofSlot? none).isSome = true
  reads : ∀ v : Json, ofJson? v = (v.slots? (names schema) form).bind (readAll schema make)

section

variable {make : Make ρ schema}

theorem Follows.isSome_iff (h : Follows schema make form ofJson?) {v : Json} :
    (ofJson? v).isSome = true ↔ ∃ slots, v.slots? (names schema) form = some slots ∧
      List.Forall₂ (fun f slot => (f.ofSlot? slot).isSome = true) schema slots := by
  rw [h.reads]
  cases v.slots? (names schema) form with
  | none => simp
  | some slots => simp [readAll_isSome_iff]

theorem Follows.eq_some_iff (h : Follows schema make form ofJson?) {v : Json} {r : ρ} :
    ofJson? v = some r ↔ ∃ slots, v.slots? (names schema) form = some slots ∧
      List.Forall₂ (fun f slot => f.ofSlot? slot = some (f.get r)) schema slots := by
  rw [h.reads, Option.bind_eq_some_iff]
  refine exists_congr fun slots => and_congr_right fun _ => ?_
  constructor
  · intro hr
    exact (fields_of_readAll h.keeps hr).2
  · intro hr
    rw [readAll_of_fields hr, h.remake_eq]

end

/-! ## What is accepted -/

/-- The keys of an object all denote texts. -/
def KeysAreTexts (members : List (Option String × Json)) : Prop :=
  ∀ m ∈ members, m.1.isSome = true

/-- The members of an object that have the name of a field. -/
def fieldsOf (schema : List (FieldSchema ρ)) (members : List (Option String × Json)) :
    List (Option String × Json) :=
  members.filter fun m => m.1 ∈ (names schema).map some

/-- What a reader accepts is said by the schema. -/
structure ReadsExactly (schema : List (FieldSchema ρ)) (form : Json.ArrayForm)
    (ofJson? : Json → Option ρ) : Prop where
  /-- An object needs to have for every field what the field can be read from. -/
  object_iff : ∀ {text : String} {members : List (Option String × Json)},
    Json.parse? text = some (.object members) →
      ((decode? ofJson? text).isSome = true ↔
        KeysAreTexts members ∧
          ∀ f ∈ schema, (f.read? (Json.valuesOf members f.name)).isSome = true)
  /-- The record has the fields of the object. -/
  object_value : ∀ {text : String} {members : List (Option String × Json)} {r : ρ},
    Json.parse? text = some (.object members) → decode? ofJson? text = some r →
      ∀ f ∈ schema, f.read? (Json.valuesOf members f.name) = some (f.get r)
  /-- Neither the order of the members nor any other members count. -/
  object_congr : ∀ {text text' : String} {members members' : List (Option String × Json)},
    Json.parse? text = some (.object members) → Json.parse? text' = some (.object members') →
      KeysAreTexts members → KeysAreTexts members' →
        (fieldsOf schema members).Perm (fieldsOf schema members') →
          decode? ofJson? text = decode? ofJson? text'
  /-- An array needs to have its length and what the fields can be read from, in their order. -/
  array_iff : ∀ {text : String} {items : List Json}, Json.parse? text = some (.array items) →
    ((decode? ofJson? text).isSome = true ↔
      form.Fits schema.length items.length ∧
        ∀ p ∈ schema.zip items, (p.1.ofSlot? (some p.2)).isSome = true)
  /-- An array is read as the object that gives its items to the names of the fields. -/
  array_eq : ∀ {text text' : String} {items : List Json},
    Json.parse? text = some (.array items) → form.Fits schema.length items.length →
      Json.parse? text' = some (.record ((names schema).zip items)) →
        decode? ofJson? text = decode? ofJson? text'
  /-- Nothing else is a record. -/
  other : ∀ {text : String}, (∀ members, Json.parse? text ≠ some (.object members)) →
    (∀ items, Json.parse? text ≠ some (.array items)) → decode? ofJson? text = none

section

variable {make : Make ρ schema} {members members' : List (Option String × Json)}

/-- Each field has at most one value in an object, from which it is read or not. -/
theorem exists_slots?_object_iff {P : (f : FieldSchema ρ) → Option Json → Prop} :
    (∃ slots, (Json.object members).slots? (names schema) form = some slots ∧
        List.Forall₂ P schema slots) ↔
      KeysAreTexts members ∧ ∀ f ∈ schema, (Json.valuesOf members f.name).length ≤ 1 ∧
        P f (Json.valuesOf members f.name).head? := by
  have hslots : ∀ slots, (Json.object members).slots? (names schema) form = some slots ↔
      (KeysAreTexts members ∧ ∀ f ∈ schema, (Json.valuesOf members f.name).length ≤ 1) ∧
        slots = schema.map fun f => (Json.valuesOf members f.name).head? := by
    intro slots
    rw [Json.slots?_object_iff, names, List.forall_mem_map, List.map_map, and_assoc]
    rfl
  simp only [hslots, and_assoc, exists_and_left, exists_eq_left, List.forall₂_map_right_iff,
    List.forall₂_same, forall₂_and]

/-- The fields after the end of an array have no value. -/
theorem forall₂_padded {P : (f : FieldSchema ρ) → Option Json → Prop} {items : List Json}
    (hlen : items.length ≤ schema.length)
    (hnone : items.length < schema.length → ∀ f ∈ schema, P f none) :
    List.Forall₂ P schema
        (items.map some ++ List.replicate (schema.length - items.length) none) ↔
      ∀ p ∈ schema.zip items, P p.1 (some p.2) := by
  induction schema generalizing items with
  | nil =>
    obtain rfl := List.length_eq_zero_iff.1 (Nat.le_zero.1 hlen)
    simp
  | cons f fs ih =>
    cases items with
    | nil =>
      have hnone := hnone (Nat.succ_pos _)
      have ih := @ih [] (Nat.zero_le _)
        fun _ g hg => hnone g (List.mem_cons_of_mem _ hg)
      simpa [List.replicate_succ, hnone f List.mem_cons_self] using ih
    | cons v vs =>
      rw [List.length_cons, List.length_cons] at hnone hlen
      have ih := @ih vs (by omega)
        fun hlt g hg => hnone (by omega) g (List.mem_cons_of_mem _ hg)
      rw [List.length_cons, List.length_cons, Nat.add_sub_add_right, List.map_cons,
        List.cons_append, List.forall₂_cons, ih, List.zip_cons_cons, List.forall_mem_cons]

theorem valuesOf_fieldsOf (members : List (Option String × Json)) {name : String}
    (hname : name ∈ names schema) :
    Json.valuesOf (fieldsOf schema members) name = Json.valuesOf members name := by
  rw [Json.valuesOf, fieldsOf, List.filter_filter, Json.valuesOf]
  congr 1
  refine List.filter_congr fun m _ => ?_
  by_cases hm : m.1 = some name
  · simp [hm, hname]
  · simp [hm]

theorem Follows.object_isSome_iff (h : Follows schema make form ofJson?) :
    (ofJson? (.object members)).isSome = true ↔ KeysAreTexts members ∧
      ∀ f ∈ schema, (f.read? (Json.valuesOf members f.name)).isSome = true := by
  rw [h.isSome_iff, exists_slots?_object_iff]
  simp only [FieldSchema.read?_isSome_iff]

theorem Follows.object_eq_some_iff (h : Follows schema make form ofJson?) {r : ρ} :
    ofJson? (.object members) = some r ↔ KeysAreTexts members ∧
      ∀ f ∈ schema, f.read? (Json.valuesOf members f.name) = some (f.get r) := by
  rw [h.eq_some_iff, exists_slots?_object_iff]
  simp only [FieldSchema.read?_eq_some_iff]

theorem Follows.object_congr (h : Follows schema make form ofJson?) (hkeys : KeysAreTexts members)
    (hkeys' : KeysAreTexts members')
    (hperm : (fieldsOf schema members).Perm (fieldsOf schema members')) :
    ofJson? (.object members) = ofJson? (.object members') := by
  have hread : ∀ f ∈ schema, f.read? (Json.valuesOf members f.name) =
      f.read? (Json.valuesOf members' f.name) := by
    intro f hf
    have hname : f.name ∈ names schema := List.mem_map_of_mem hf
    rw [← valuesOf_fieldsOf members hname, ← valuesOf_fieldsOf members' hname]
    exact f.read?_perm ((hperm.filter _).map _)
  refine Option.ext fun r => ?_
  rw [h.object_eq_some_iff, h.object_eq_some_iff]
  refine and_congr (iff_of_true hkeys hkeys') (forall₂_congr fun f hf => ?_)
  rw [hread f hf]

theorem Follows.array_isSome_iff (h : Follows schema make form ofJson?) {items : List Json} :
    (ofJson? (.array items)).isSome = true ↔ form.Fits schema.length items.length ∧
      ∀ p ∈ schema.zip items, (p.1.ofSlot? (some p.2)).isSome = true := by
  have hlength : (names schema).length = schema.length := List.length_map _
  rw [h.isSome_iff]
  by_cases hfits : form.Fits schema.length items.length
  · have hnone : items.length < schema.length →
        ∀ f ∈ schema, (f.ofSlot? none).isSome = true := by
      rcases hfits with hlen | ⟨hform, -⟩
      · omega
      · exact fun _ => h.missing hform
    have hpadded := forall₂_padded (P := fun f slot => (f.ofSlot? slot).isSome = true)
      hfits.le hnone
    rw [Json.slots?_array (hlength ▸ hfits), and_iff_right hfits, hlength, ← hpadded]
    simp
  · rw [Json.slots?_array_of_not_fits (hlength ▸ hfits)]
    simp [hfits]

theorem Follows.array_eq (h : Follows schema make form ofJson?) {items : List Json}
    (hfits : form.Fits schema.length items.length) :
    ofJson? (.array items) = ofJson? (.record ((names schema).zip items)) := by
  have hfits : form.Fits (names schema).length items.length := by
    rwa [show (names schema).length = schema.length from List.length_map _]
  refine Option.ext fun r => ?_
  rw [h.eq_some_iff, h.eq_some_iff, Json.slots?_array hfits, Json.slots?_zip h.nodup hfits.le]

theorem Follows.readsExactly (h : Follows schema make form ofJson?) :
    ReadsExactly schema form ofJson? where
  object_iff htext := by
    rw [decode?, htext]
    exact h.object_isSome_iff
  object_value htext hr := by
    rw [decode?, htext] at hr
    exact (h.object_eq_some_iff.1 hr).2
  object_congr htext htext' hkeys hkeys' hperm := by
    rw [decode?, decode?, htext, htext']
    exact h.object_congr hkeys hkeys' hperm
  array_iff htext := by
    rw [decode?, htext]
    exact h.array_isSome_iff
  array_eq htext hfits htext' := by
    rw [decode?, decode?, htext, htext']
    exact h.array_eq hfits
  other {text} hobject harray := by
    cases htext : Json.parse? text with
    | none => rw [decode?, htext]; rfl
    | some v =>
      rw [decode?, htext, Option.bind_some, h.reads]
      cases v with
      | object members => exact absurd htext (hobject members)
      | array items => exact absurd htext (harray items)
      | _ => rfl

end

end Wire

section

open Wire

theorem Point.follows : Follows schema Point.mk .complete ofJson? where
  nodup := by decide
  keeps _ _ := ⟨⟨trivial, rfl⟩, rfl⟩
  remake_eq _ := rfl
  missing := by rintro ⟨⟩
  reads v := by
    rw [ofJson?, show fields = names schema from rfl]
    cases h : v.slots? (names schema) _ with
    | none => rfl
    | some slots =>
      match slots, Json.length_of_slots? h with
      | [_, _], _ => rfl

theorem Settings.follows : Follows schema Settings.mk .mayEndEarly ofJson? where
  nodup := by decide
  keeps _ _ _ _ := ⟨⟨⟨⟨trivial, rfl⟩, rfl⟩, rfl⟩, rfl⟩
  remake_eq _ := rfl
  missing := by simp [schema]; decide
  reads v := by
    rw [ofJson?, show fields = names schema from rfl]
    cases h : v.slots? (names schema) _ with
    | none => rfl
    | some slots =>
      match slots, Json.length_of_slots? h with
      | [_, _, _, _], _ => rfl

theorem ImportDecl.follows : Follows schema ImportDecl.mk .complete ofJson? where
  nodup := by decide
  keeps _ _ _ _ := ⟨⟨⟨⟨trivial, rfl⟩, rfl⟩, rfl⟩, rfl⟩
  remake_eq _ := rfl
  missing := by rintro ⟨⟩
  reads v := by
    rw [ofJson?, show fields = names schema from rfl]
    cases h : v.slots? (names schema) _ with
    | none => rfl
    | some slots =>
      match slots, Json.length_of_slots? h with
      | [_, _, _, _], _ => rfl

theorem FunctionDecl.follows : Follows schema FunctionDecl.mk .complete ofJson? where
  nodup := by decide
  keeps _ _ _ _ _ _ _ _ := ⟨⟨⟨⟨⟨⟨⟨⟨trivial, rfl⟩, rfl⟩, rfl⟩, rfl⟩, rfl⟩, rfl⟩, rfl⟩, rfl⟩
  remake_eq _ := rfl
  missing := by rintro ⟨⟩
  reads v := by
    rw [ofJson?, show fields = names schema from rfl]
    cases h : v.slots? (names schema) _ with
    | none => rfl
    | some slots =>
      match slots, Json.length_of_slots? h with
      | [_, _, _, _, _, _, _, _], _ => rfl

theorem ModuleDecl.follows : Follows schema ModuleDecl.mk .complete ofJson? where
  nodup := by decide
  keeps _ _ _ _ _ _ := ⟨⟨⟨⟨⟨⟨trivial, rfl⟩, rfl⟩, rfl⟩, rfl⟩, rfl⟩, rfl⟩
  remake_eq _ := rfl
  missing := by rintro ⟨⟩
  reads v := by
    rw [ofJson?, show fields = names schema from rfl]
    cases h : v.slots? (names schema) _ with
    | none => rfl
    | some slots =>
      match slots, Json.length_of_slots? h with
      | [_, _, _, _, _, _], _ => rfl

theorem Scope.follows : Follows schema Scope.mk .complete ofJson? where
  nodup := by decide
  keeps _ _ := ⟨⟨trivial, rfl⟩, rfl⟩
  remake_eq _ := rfl
  missing := by rintro ⟨⟩
  reads v := by
    rw [ofJson?, show fields = names schema from rfl]
    cases h : v.slots? (names schema) _ with
    | none => rfl
    | some slots =>
      match slots, Json.length_of_slots? h with
      | [_, _], _ => rfl

end

namespace Wire

/-- A field that may be missing is then as it is in `r`. -/
def MissingAs (schema : List (FieldSchema ρ)) (r : ρ) : Prop :=
  ∀ f ∈ schema, (f.ofSlot? none).isSome = true → f.ofSlot? none = some (f.get r)

/-- **What records are read from.** Each type of record is read from the objects and arrays that
its schema allows and from nothing else. Only the address of a module, the name of a scope and all
settings may be missing, the settings with their defaults; and `null` is a value of the first two
and of the budget. -/
theorem records_readExactly :
    ReadsExactly Point.schema .complete Point.ofJson? ∧
    ReadsExactly ImportDecl.schema .complete ImportDecl.ofJson? ∧
    ReadsExactly FunctionDecl.schema .complete FunctionDecl.ofJson? ∧
    ReadsExactly ModuleDecl.schema .complete ModuleDecl.ofJson? ∧
    ReadsExactly Scope.schema .complete Scope.ofJson? ∧
    ReadsExactly Settings.schema .mayEndEarly Settings.ofJson? ∧
    [readableFrom none Point.schema, readableFrom none ImportDecl.schema,
        readableFrom none FunctionDecl.schema, readableFrom none ModuleDecl.schema,
        readableFrom none Scope.schema, readableFrom none Settings.schema] =
      [[], [], [], ["address"], ["enclosingModuleName"], names Settings.schema] ∧
    [readableFrom (some .null) Point.schema, readableFrom (some .null) ImportDecl.schema,
        readableFrom (some .null) FunctionDecl.schema, readableFrom (some .null) ModuleDecl.schema,
        readableFrom (some .null) Scope.schema, readableFrom (some .null) Settings.schema] =
      [[], [], [], ["address"], ["enclosingModuleName"], ["nodeBudget"]] ∧
    (∀ d : ModuleDecl, d.address = none → MissingAs ModuleDecl.schema d) ∧
    (∀ s : Scope, s.moduleName = none → MissingAs Scope.schema s) ∧
    MissingAs Settings.schema {} := by
  refine ⟨Point.follows.readsExactly, ImportDecl.follows.readsExactly,
    FunctionDecl.follows.readsExactly, ModuleDecl.follows.readsExactly,
    Scope.follows.readsExactly, Settings.follows.readsExactly, rfl, rfl, ?_, ?_, ?_⟩
  · intro d hd
    simp [MissingAs, ModuleDecl.schema, FieldSchema.required, FieldSchema.optional, Json.required,
      Json.optional, hd]
  · intro s hs
    simp [MissingAs, Scope.schema, FieldSchema.required, FieldSchema.optional, Json.required,
      Json.optional, hs]
  · simp [MissingAs, Settings.schema, FieldSchema.optional, FieldSchema.defaulted, Json.optional,
      Json.defaulted]

/-- A member that is no field is passed over, also if some keys in its value denote no text, and an
array stands for an object. -/
theorem records_readExactly_passedOver :
    Json.parse? "\x7b\"row\":1,\"x\":\x7b\"\\ud800\":1\x7d,\"column\":2\x7d" =
        some (.object [(some "row", .natural 1), (some "x", .object [(none, .natural 1)]),
          (some "column", .natural 2)]) ∧
      (decode? Point.ofJson?
        "\x7b\"row\":1,\"x\":\x7b\"\\ud800\":1\x7d,\"column\":2\x7d").isSome = true ∧
      Json.parse? "[\"nearest\"]" = some (.array [.ofText "nearest"]) ∧
      decode? Settings.ofJson? "[\"nearest\"]" =
        decode? Settings.ofJson? "\x7b\"moduleNamePolicy\":\"nearest\"\x7d" := by
  obtain ⟨hpoint, -, -, -, -, hsettings, -⟩ := records_readExactly
  have hobject : Json.parse? "\x7b\"row\":1,\"x\":\x7b\"\\ud800\":1\x7d,\"column\":2\x7d" =
      some (.object [(some "row", .natural 1), (some "x", .object [(none, .natural 1)]),
        (some "column", .natural 2)]) := by with_unfolding_all rfl
  have harray : Json.parse? "[\"nearest\"]" = some (.array [.ofText "nearest"]) := by
    with_unfolding_all rfl
  refine ⟨hobject, (hpoint.object_iff hobject).2 ⟨by simp [KeysAreTexts], ?_⟩, harray,
    hsettings.array_eq harray (.inr ⟨rfl, by decide⟩) (by with_unfolding_all rfl)⟩
  decide

/-- An object with a key that denotes no text is not read, although each of its fields could be:
a settings object may be without all of them. -/
theorem settings_reject_key :
    Json.parse? "\x7b\"\\ud800\":0\x7d" = some (.object [(none, .natural 0)]) ∧
      (∀ f ∈ Settings.schema,
        (f.read? (Json.valuesOf [(none, .natural 0)] f.name)).isSome = true) ∧
      decode? Settings.ofJson? "\x7b\"\\ud800\":0\x7d" = none ∧
      decode? Settings.ofJson? "\x7b\x7d" = some {} := by
  refine ⟨by with_unfolding_all rfl, by decide, by with_unfolding_all rfl,
    by with_unfolding_all rfl⟩

end Wire

end MoveOutline
