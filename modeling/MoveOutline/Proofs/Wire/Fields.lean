import MoveOutline.Wire.Fields
/-!
# Fields found by name

A field of an object is looked up among the members that have its name for their key
(`valuesOf`). At most one of them may be there, and of the other members only the keys are looked
at, which must be texts. In an array the fields are found by their place.

Results:
* `slots?_object_iff`: the fields of an object.
* `slots?_array`, `slots?_zip`: an array has the fields of the object that gives its items the
  names in their order.
-/
namespace MoveOutline.Json

/-- Reading all items of a list is reading each of them. -/
theorem mapM_eq_some_iff {α β : Type} {f : α → Option β} {as : List α} {bs : List β} :
    as.mapM f = some bs ↔ as.map f = bs.map some := by
  induction as generalizing bs with
  | nil => cases bs <;> simp
  | cons a as ih =>
    simp only [List.mapM_cons, Option.bind_eq_bind, Option.bind_eq_some_iff, Option.pure_def,
      Option.some.injEq, List.map_cons]
    constructor
    · rintro ⟨b, hb, bs', hbs, rfl⟩
      rw [hb, ih.1 hbs, List.map_cons]
    · intro h
      cases bs with
      | nil => cases h
      | cons b bs =>
        obtain ⟨hb, hbs⟩ := List.cons.inj h
        exact ⟨b, hb, bs, ih.2 hbs, rfl⟩

theorem list?_map {α : Type} {read : Json → Option α} {write : α → Json} {as : List α}
    (h : ∀ a ∈ as, read (write a) = some a) : list? read (.array (as.map write)) = some as := by
  rw [list?, mapM_eq_some_iff, List.map_map]
  exact List.map_congr_left h

/-! ## Objects -/

/-- The values of the members with a given key. -/
def valuesOf (members : List (Option String × Json)) (name : String) : List Json :=
  (members.filter (·.1 = some name)).map (·.2)

@[simp] theorem valuesOf_nil (name : String) : valuesOf [] name = [] := rfl

theorem valuesOf_cons_self (name : String) (v : Json) (ms : List (Option String × Json)) :
    valuesOf ((some name, v) :: ms) name = v :: valuesOf ms name := by
  simp [valuesOf]

theorem valuesOf_cons_of_ne {k : Option String} {name : String} (h : k ≠ some name) (v : Json)
    (ms : List (Option String × Json)) : valuesOf ((k, v) :: ms) name = valuesOf ms name := by
  simp [valuesOf, h]

theorem valuesOf_eq_nil {ms : List (Option String × Json)} {name : String}
    (h : ∀ m ∈ ms, m.1 ≠ some name) : valuesOf ms name = [] := by
  rw [valuesOf, List.map_eq_nil_iff, List.filter_eq_nil_iff]
  intro m hm he
  exact h m hm (of_decide_eq_true he)

theorem slot?_eq (members : List (Option String × Json)) (name : String) :
    slot? members name =
      if (valuesOf members name).length ≤ 1 then some (valuesOf members name).head? else none := by
  unfold slot? valuesOf
  split
  · next h => simp [h]
  · next h => simp [h]
  · next hnone hone =>
    cases h : members.filter (·.1 = some name) with
    | nil => exact absurd h hnone
    | cons m ms =>
      cases ms with
      | nil => exact absurd h (hone m.1 m.2)
      | cons m' ms => simp

/-- The fields of an object are there when all keys are texts and none of the names occurs twice;
each is then the one value with its name. -/
theorem slots?_object_iff {members : List (Option String × Json)} {names : List String}
    {form : ArrayForm} {slots : List (Option Json)} :
    (object members).slots? names form = some slots ↔
      (∀ m ∈ members, m.1.isSome = true) ∧
        (∀ name ∈ names, (valuesOf members name).length ≤ 1) ∧
        slots = names.map fun name => (valuesOf members name).head? := by
  have hslots : names.mapM (slot? members) = some slots ↔
      (∀ name ∈ names, (valuesOf members name).length ≤ 1) ∧
        slots = names.map fun name => (valuesOf members name).head? := by
    rw [mapM_eq_some_iff]
    induction names generalizing slots with
    | nil => cases slots <;> simp
    | cons name names ih =>
      cases slots with
      | nil => simp
      | cons slot slots =>
        rw [List.map_cons, List.map_cons, List.map_cons, List.cons.injEq, List.cons.injEq, ih,
          slot?_eq, List.forall_mem_cons]
        by_cases h : (valuesOf members name).length ≤ 1
        · simp [h, and_left_comm, eq_comm]
        · simp [h]
  rw [slots?, ← List.all_eq_true]
  by_cases hkeys : members.all (·.1.isSome) = true
  · rw [if_pos hkeys, hslots, and_iff_right hkeys]
  · simp [hkeys]

/-! ## Arrays -/

/-- The length that an array needs to have. -/
def ArrayForm.Fits (form : ArrayForm) (fields items : Nat) : Prop :=
  items = fields ∨ form = .mayEndEarly ∧ items ≤ fields

theorem ArrayForm.Fits.le {form : ArrayForm} {fields items : Nat} (h : form.Fits fields items) :
    items ≤ fields := by
  rcases h with h | ⟨-, h⟩ <;> omega

theorem slots?_array {items : List Json} {names : List String} {form : ArrayForm}
    (h : form.Fits names.length items.length) : (array items).slots? names form =
      some (items.map some ++ List.replicate (names.length - items.length) none) :=
  if_pos h

theorem slots?_array_of_not_fits {items : List Json} {names : List String} {form : ArrayForm}
    (h : ¬ form.Fits names.length items.length) : (array items).slots? names form = none :=
  if_neg h

theorem length_of_slots? {v : Json} {names : List String} {form : ArrayForm}
    {slots : List (Option Json)} (h : v.slots? names form = some slots) :
    slots.length = names.length := by
  cases v with
  | object members =>
    obtain ⟨-, -, rfl⟩ := slots?_object_iff.1 h
    exact List.length_map _
  | array items =>
    by_cases hfits : form.Fits names.length items.length
    · rw [slots?_array hfits] at h
      obtain rfl := Option.some.inj h
      have hle := hfits.le
      rw [List.length_append, List.length_map, List.length_replicate]
      omega
    · rw [slots?_array_of_not_fits hfits] at h
      cases h
  | _ => cases h

/-- In an object that gives items to names, each name has its item or none. -/
theorem map_valuesOf_zip {names : List String} (hnames : names.Nodup) {items : List Json}
    (hlen : items.length ≤ names.length) :
    (names.map fun name => valuesOf ((names.zip items).map fun m => (some m.1, m.2)) name) =
      items.map (fun v => [v]) ++ List.replicate (names.length - items.length) [] := by
  induction names generalizing items with
  | nil =>
    cases items with
    | nil => rfl
    | cons v vs => cases hlen
  | cons n ns ih =>
    obtain ⟨hn, hns⟩ := List.nodup_cons.1 hnames
    cases items with
    | nil => simp [List.map_const', List.replicate_succ]
    | cons v vs =>
      have hfirst : valuesOf ((ns.zip vs).map fun m => (some m.1, m.2)) n = [] := by
        refine valuesOf_eq_nil ?_
        intro m hm he
        obtain ⟨m', hm', rfl⟩ := List.mem_map.1 hm
        exact hn (Option.some.inj he ▸ (List.of_mem_zip hm').1)
      have hother : ∀ name ∈ ns,
          valuesOf ((some n, v) :: (ns.zip vs).map fun m => (some m.1, m.2)) name =
            valuesOf ((ns.zip vs).map fun m => (some m.1, m.2)) name := by
        intro name hname
        refine valuesOf_cons_of_ne ?_ _ _
        rintro ⟨⟩
        exact hn hname
      rw [List.zip_cons_cons, List.map_cons, List.map_cons, valuesOf_cons_self, hfirst,
        List.map_congr_left hother, ih hns (Nat.le_of_succ_le_succ hlen), List.map_cons,
        List.length_cons, List.length_cons, Nat.add_sub_add_right]
      rfl

/-- An object that gives items to names has the fields of the array of these items. -/
theorem slots?_zip {names : List String} (hnames : names.Nodup) {items : List Json}
    {form : ArrayForm} (hlen : items.length ≤ names.length) :
    (record (names.zip items)).slots? names form =
      some (items.map some ++ List.replicate (names.length - items.length) none) := by
  have hvalues := map_valuesOf_zip hnames hlen
  rw [record, slots?_object_iff]
  refine ⟨?_, ?_, ?_⟩
  · intro m hm
    obtain ⟨m', -, rfl⟩ := List.mem_map.1 hm
    rfl
  · intro name hname
    have hmem := List.mem_map_of_mem hname
      (f := fun name => valuesOf ((names.zip items).map fun m => (some m.1, m.2)) name)
    rw [hvalues, List.mem_append, List.mem_map, List.mem_replicate] at hmem
    rcases hmem with ⟨v, -, he⟩ | ⟨-, he⟩
    · rw [← he]; exact Nat.le_refl _
    · rw [he]; exact Nat.zero_le _
  · have hheads := congrArg (List.map List.head?) hvalues
    rw [List.map_map, List.map_append, List.map_map, List.map_replicate] at hheads
    exact hheads.symm

end MoveOutline.Json
