import MoveOutline.Outline.Decl
import MoveOutline.Syntax.Tree
/-!
# Open documents

A **document** keeps a text together with the tree parsed from it and the modules found in that
tree. The open documents are kept by URI, in the order in which they were first opened, and no
URI occurs twice.

**Results.** Each operation is described by what can be looked up after it.
* `Documents.get?_insert`, `Documents.get?_erase`, `Documents.get?_map`.
* `Documents.mem_uris_iff`: the URIs listed are those that are open.
* `Documents.map_insert`, `Documents.map_erase`: changing every document goes with both.
-/
namespace MoveOutline

/-- An open document as of its last analysis. -/
structure Document where
  text : String
  /-- Nothing if the text could not be parsed when the document was opened. -/
  tree : Option Tree
  modules : List ModuleDecl
  deriving DecidableEq, Repr

/-- Documents by URI. -/
structure Documents where
  entries : List (String × Document)
  nodup : (entries.map Prod.fst).Nodup
  deriving DecidableEq, Repr

namespace Documents

/-- No documents. -/
def empty : Documents :=
  ⟨[], List.nodup_nil⟩

/-- The URIs in the order in which they were first opened. -/
def uris (ds : Documents) : List String :=
  ds.entries.map Prod.fst

def size (ds : Documents) : Nat :=
  ds.entries.length

def isEmpty (ds : Documents) : Bool :=
  ds.entries.isEmpty

/-- The document under a URI. -/
def get? (ds : Documents) (uri : String) : Option Document :=
  ds.entries.lookup uri

/-- Whether there is a document under a URI. -/
def contains (ds : Documents) (uri : String) : Bool :=
  (ds.get? uri).isSome

/-- The entries with a document put under a URI: in place if the URI is there, else at the end. -/
def put (uri : String) (d : Document) : List (String × Document) → List (String × Document)
  | [] => [(uri, d)]
  | e :: es => if e.1 = uri then (uri, d) :: es else e :: put uri d es

theorem keys_put (uri : String) (d : Document) (es : List (String × Document)) :
    (put uri d es).map Prod.fst =
      if uri ∈ es.map Prod.fst then es.map Prod.fst else es.map Prod.fst ++ [uri] := by
  induction es with
  | nil => rfl
  | cons e es ih =>
    by_cases h : e.1 = uri
    · simp [put, h]
    · have h' : ¬ uri = e.1 := fun he => h he.symm
      by_cases hm : uri ∈ es.map Prod.fst
      · simp only [put, if_neg h, List.map_cons, ih, List.mem_cons, hm, or_true, if_true]
      · simp only [put, if_neg h, List.map_cons, ih, List.mem_cons, hm, h', or_self,
          if_false, List.cons_append]

theorem nodup_put {uri : String} {d : Document} {es : List (String × Document)}
    (h : (es.map Prod.fst).Nodup) : ((put uri d es).map Prod.fst).Nodup := by
  rw [keys_put]
  split
  · exact h
  · next hm =>
    rw [List.nodup_append]
    refine ⟨h, by simp, fun a ha b hb => ?_⟩
    obtain rfl : b = uri := by simpa using hb
    rintro rfl
    exact hm ha

/-- Puts a document under a URI, in place of the one that was there. -/
def insert (ds : Documents) (uri : String) (d : Document) : Documents :=
  ⟨put uri d ds.entries, nodup_put ds.nodup⟩

/-- Takes a URI out. -/
def erase (ds : Documents) (uri : String) : Documents :=
  ⟨ds.entries.filter (·.1 != uri), ds.nodup.sublist (List.filter_sublist.map Prod.fst)⟩

/-- Changes every document, each under its URI. -/
def map (f : Document → Document) (ds : Documents) : Documents :=
  ⟨ds.entries.map fun e => (e.1, f e.2), by simpa [Function.comp_def] using ds.nodup⟩

/-! ## Looking up -/

@[simp] theorem get?_empty (uri : String) : empty.get? uri = none := rfl

theorem lookup_put (uri uri' : String) (d : Document) (es : List (String × Document)) :
    (put uri d es).lookup uri' = if uri' = uri then some d else es.lookup uri' := by
  have hb {u : String} (h : ¬ uri' = u) : (uri' == u) = false := by simpa using h
  induction es with
  | nil => by_cases h : uri' = uri <;> simp [put, List.lookup_cons, h, hb]
  | cons e es ih =>
    obtain ⟨u, e⟩ := e
    by_cases h : u = uri
    · subst h
      by_cases h' : uri' = u <;> simp [put, List.lookup_cons, h', hb]
    · by_cases h' : uri' = u
      · subst h'
        simp [put, h]
      · simp [put, h, List.lookup_cons, hb h', ih]

theorem get?_insert (ds : Documents) (uri uri' : String) (d : Document) :
    (ds.insert uri d).get? uri' = if uri' = uri then some d else ds.get? uri' :=
  lookup_put uri uri' d ds.entries

theorem get?_erase (ds : Documents) (uri uri' : String) :
    (ds.erase uri).get? uri' = if uri' = uri then none else ds.get? uri' := by
  unfold get? erase
  simp only
  induction ds.entries with
  | nil => simp
  | cons e es ih =>
    obtain ⟨u, e⟩ := e
    by_cases h : u = uri
    · subst h
      by_cases h' : uri' = u
      · simpa [h'] using ih
      · have hb : (uri' == u) = false := by simpa using h'
        simp [List.lookup_cons, hb, h', ih]
    · by_cases h' : uri' = u
      · subst h'
        simp [h]
      · have hb : (uri' == u) = false := by simpa using h'
        simp [h, List.lookup_cons, hb, ih]

theorem get?_map (f : Document → Document) (ds : Documents) (uri : String) :
    (ds.map f).get? uri = (ds.get? uri).map f := by
  unfold get? map
  simp only
  induction ds.entries with
  | nil => rfl
  | cons e es ih =>
    obtain ⟨u, e⟩ := e
    by_cases h : uri = u
    · simp [h]
    · have hb : (uri == u) = false := by simpa using h
      simp [List.lookup_cons, hb, ih]

theorem mem_uris_iff {ds : Documents} {uri : String} : uri ∈ ds.uris ↔ ds.contains uri = true := by
  simp only [contains, get?, List.lookup_isSome_iff, uris, List.mem_map, beq_iff_eq,
    eq_comm (a := uri)]

/-! ## Changing every document -/

theorem map_put (f : Document → Document) (uri : String) (d : Document)
    (es : List (String × Document)) : (put uri d es).map (fun e => (e.1, f e.2)) =
      put uri (f d) (es.map fun e => (e.1, f e.2)) := by
  induction es with
  | nil => rfl
  | cons e es ih =>
    by_cases h : e.1 = uri
    · simp only [put, if_pos h, List.map_cons]
    · simp only [put, if_neg h, List.map_cons, ih]

theorem map_insert (f : Document → Document) (ds : Documents) (uri : String) (d : Document) :
    (ds.insert uri d).map f = (ds.map f).insert uri (f d) := by
  simp only [map, insert, mk.injEq]
  exact map_put f uri d ds.entries

theorem map_erase (f : Document → Document) (ds : Documents) (uri : String) :
    (ds.erase uri).map f = (ds.map f).erase uri := by
  simp only [map, erase, mk.injEq, List.filter_map]
  rfl

theorem contains_map (f : Document → Document) (ds : Documents) (uri : String) :
    (ds.map f).contains uri = ds.contains uri := by
  rw [contains, get?_map, Option.isSome_map, contains]

end Documents

end MoveOutline
