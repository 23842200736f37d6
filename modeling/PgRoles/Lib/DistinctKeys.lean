import PgRoles.Lib.Decode

/-!
# Distinct keys

A value whose objects hold every key once, at every depth. Parsers that build maps give such values
only, and so do serialisers of records and maps; a field of such a value is found by its key
wherever it stands.
-/

set_option autoImplicit false

namespace PgRoles.Lib

open Std

mutual

/-- No object of the value holds a key twice. -/
def Json.distinctKeys : Json → Bool
  | .obj fields => decide (fields.map Prod.fst).Nodup && fieldsDistinctKeys fields
  | .arr items => itemsDistinctKeys items
  | .null | .bool _ | .int _ | .str _ => true

/-- No object of the items holds a key twice. -/
def itemsDistinctKeys : List Json → Bool
  | [] => true
  | v :: items => v.distinctKeys && itemsDistinctKeys items

/-- No object below the fields holds a key twice. -/
def fieldsDistinctKeys : List (String × Json) → Bool
  | [] => true
  | (_, v) :: fields => v.distinctKeys && fieldsDistinctKeys fields

end

theorem itemsDistinctKeys_iff {items : List Json} :
    itemsDistinctKeys items = true ↔ ∀ v ∈ items, v.distinctKeys = true := by
  induction items with
  | nil => simp [itemsDistinctKeys]
  | cons v items ih => rw [itemsDistinctKeys, Bool.and_eq_true, ih, List.forall_mem_cons]

theorem fieldsDistinctKeys_iff {fields : List (String × Json)} :
    fieldsDistinctKeys fields = true ↔ ∀ e ∈ fields, e.2.distinctKeys = true := by
  induction fields with
  | nil => simp [fieldsDistinctKeys]
  | cons e fields ih => rw [fieldsDistinctKeys, Bool.and_eq_true, ih, List.forall_mem_cons]

theorem Json.distinctKeys_arr {items : List Json} :
    (Json.arr items).distinctKeys = true ↔ ∀ v ∈ items, v.distinctKeys = true := by
  rw [Json.distinctKeys, itemsDistinctKeys_iff]

theorem Json.distinctKeys_obj {fields : List (String × Json)} :
    (Json.obj fields).distinctKeys = true ↔
      (fields.map Prod.fst).Nodup ∧ ∀ e ∈ fields, e.2.distinctKeys = true := by
  rw [Json.distinctKeys, Bool.and_eq_true, decide_eq_true_iff, fieldsDistinctKeys_iff]

@[simp] theorem Json.distinctKeys_null : Json.null.distinctKeys = true := rfl

@[simp] theorem Json.distinctKeys_bool (b : Bool) : (Json.bool b).distinctKeys = true := rfl

@[simp] theorem Json.distinctKeys_int (n : Int) : (Json.int n).distinctKeys = true := rfl

@[simp] theorem Json.distinctKeys_str (s : String) : (Json.str s).distinctKeys = true := rfl

/-! ## Parts of a value -/

/-- With distinct keys, what stands under a key is what is found there. -/
theorem Json.field?_of_mem_entries {v : Json} (h : v.distinctKeys = true) {e : String × Json}
    (he : e ∈ v.entries) : v.field? e.1 = some e.2 := by
  cases v with
  | obj fields => exact (lookup_eq_some_iff_mem (Json.distinctKeys_obj.1 h).1).2 he
  | _ => cases he

theorem Json.distinctKeys_of_mem_entries {v : Json} (h : v.distinctKeys = true)
    {e : String × Json} (he : e ∈ v.entries) : e.2.distinctKeys = true := by
  cases v with
  | obj fields => exact (Json.distinctKeys_obj.1 h).2 e he
  | _ => cases he

theorem Json.distinctKeys_of_mem_items {v item : Json} (h : v.distinctKeys = true)
    (hitem : item ∈ v.items) : item.distinctKeys = true := by
  cases v with
  | arr items => exact Json.distinctKeys_arr.1 h item hitem
  | _ => cases hitem

theorem Json.distinctKeys_of_field? {v w : Json} {name : String} (h : v.distinctKeys = true)
    (hfield : v.field? name = some w) : w.distinctKeys = true :=
  Json.distinctKeys_of_mem_entries h (Json.mem_entries_of_field? hfield)

/-- Fewer fields have distinct keys too. -/
theorem Json.distinctKeys_sublist {fields fields' : List (String × Json)}
    (h : (Json.obj fields).distinctKeys = true) (hsub : fields'.Sublist fields) :
    (Json.obj fields').distinctKeys = true := by
  obtain ⟨hnodup, hvalues⟩ := Json.distinctKeys_obj.1 h
  exact Json.distinctKeys_obj.2 ⟨(hsub.map Prod.fst).nodup hnodup,
    fun e he => hvalues e (hsub.subset he)⟩

/-! ## Serialised values -/

/-- A map has its keys once. -/
theorem Json.distinctKeys_ofMap {m : BTreeMap String Json}
    (h : ∀ e ∈ m.toList, e.2.distinctKeys = true) : (Json.ofMap m).distinctKeys = true :=
  Json.distinctKeys_obj.2 ⟨nodup_fst_toList m, h⟩

/-- An object that is built field by field has the values of the fields. -/
theorem Json.distinctKeys_object {fields : List (String × Json)}
    (h : ∀ field ∈ fields, field.2.distinctKeys = true) :
    (Json.object fields).distinctKeys = true := by
  refine Json.distinctKeys_ofMap fun e he => ?_
  have hlookup := mem_toList_iff.1 he
  rw [getElem?_fieldMap] at hlookup
  obtain ⟨before, after, hfields, -⟩ := List.lookup_eq_some_iff.1 hlookup
  exact h e (hfields ▸ List.mem_append_right _ List.mem_cons_self)

/-- A record has the values of its fields that have one. -/
theorem Json.distinctKeys_record {fields : List (String × Option Json)}
    (h : fields.all fun field => field.2.all Json.distinctKeys) :
    (Json.record fields).distinctKeys = true := by
  refine Json.distinctKeys_object fun field hfield => ?_
  obtain ⟨source, hsource, hmem⟩ := List.mem_flatMap.1 hfield
  have hvalue := List.all_eq_true.1 h source hsource
  obtain ⟨name, v⟩ := source
  cases v with
  | none => cases hmem
  | some v =>
    rw [optionalField, List.mem_singleton] at hmem
    rw [hmem]
    exact hvalue

@[simp] theorem Json.distinctKeys_nullable (v : Option Json) :
    (Json.nullable v).distinctKeys = v.all Json.distinctKeys := by
  cases v <;> rfl

@[simp] theorem Json.distinctKeys_map_arr {T : Type} {encode : T → Json} {l : List T}
    (h : ∀ a, (encode a).distinctKeys = true) : (Json.arr (l.map encode)).distinctKeys = true := by
  rw [Json.distinctKeys_arr]
  intro v hv
  obtain ⟨a, -, rfl⟩ := List.mem_map.1 hv
  exact h a

@[simp] theorem Json.all_distinctKeys_map {T : Type} {encode : T → Json} {o : Option T}
    (h : ∀ a, (encode a).distinctKeys = true) : (o.map encode).all Json.distinctKeys = true := by
  cases o with
  | none => rfl
  | some a => exact h a

/-- The values of a map that are all serialised in one way. -/
theorem Json.distinctKeys_ofMap_map {T : Type} {encode : T → Json} {m : BTreeMap String T}
    (h : ∀ a, (encode a).distinctKeys = true) :
    (Json.ofMap (m.map fun _ a => encode a)).distinctKeys = true := by
  refine Json.distinctKeys_ofMap fun e he => ?_
  have hvalue := mem_toList_iff.1 he
  rw [ExtTreeMap.getElem?_map] at hvalue
  obtain ⟨a, -, hencode⟩ := Option.map_eq_some_iff.1 hvalue
  rw [← hencode]
  exact h a

end PgRoles.Lib
