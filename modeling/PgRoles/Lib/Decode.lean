import PgRoles.Lib.Json

/-!
# Reading values

Readers of the values that serialisers write, as a derived deserialiser reads them: a record is read
from an object field by field, each field by one of three readers. Fields that the record does not
have are ignored. Numbers are not bounded here.

Which fields the types of a value declare, at every depth, is a shape of its own; a schema that
prunes keeps those fields only.
-/

set_option autoImplicit false

namespace PgRoles.Lib

open Std

/-! ## Readers -/

/-- The field of an object. -/
def Json.field? : Json → String → Option Json
  | .obj fields, name => fields.lookup name
  | _, _ => none

/-- Is the value an object? -/
def Json.isObject : Json → Bool
  | .obj _ => true
  | _ => false

/-- Is the value null? -/
def Json.isNull : Json → Bool
  | .null => true
  | _ => false

/-- The fields of an object. -/
def Json.entries : Json → List (String × Json)
  | .obj fields => fields
  | _ => []

/-- The items of a list. -/
def Json.items : Json → List Json
  | .arr items => items
  | _ => []

theorem Json.mem_entries_of_field? {v w : Json} {name : String} (h : v.field? name = some w) :
    (name, w) ∈ v.entries := by
  cases v with
  | obj fields =>
    obtain ⟨before, after, hfields, -⟩ := List.lookup_eq_some_iff.1 h
    rw [Json.entries, hfields]
    exact List.mem_append_right _ List.mem_cons_self
  | _ => cases h

/-- A string. -/
def decodeText : Json → Option String
  | .str s => some s
  | _ => none

/-- A Boolean. -/
def decodeFlag : Json → Option Bool
  | .bool b => some b
  | _ => none

/-- An integer. -/
def decodeInt : Json → Option Int
  | .int n => some n
  | _ => none

/-- A value of an enumeration, by its text. -/
def decodeEnum {T : Type} (all : List T) (text : T → String) (v : Json) : Option T :=
  (decodeText v).bind fun s => all.find? (text · = s)

section Readers

variable {T : Type} (decode : Json → Option T)

/-- A field that has to be there. -/
def readRequired (v : Option Json) : Option T := v.bind decode

/-- A field that has to be there under one of two names. -/
def readAliased (v other : Option Json) : Option T :=
  match v, other with
  | some v, none | none, some v => decode v
  | _, _ => none

/-- A field that may be absent or null. -/
def readOptional : Option Json → Option (Option T)
  | none => some none
  | some .null => some none
  | some v => (decode v).map some

/-- A field that may be absent, but not null. -/
def readDefaulted (default : T) : Option Json → Option T
  | none => some default
  | some v => decode v

/-- An array, all of whose items decode. -/
def decodeList : Json → Option (List T)
  | .arr items => items.mapM decode
  | _ => none

/-- One member of an object, decoded by its value. -/
def decodeEntry (entry : String × Json) : Option (String × T) := (decode entry.2).map (entry.1, ·)

/-- An object as a map, where all its members decode. -/
def decodeMap : Json → Option (BTreeMap String T)
  | .obj fields => (fields.mapM (decodeEntry decode)).map fun entries =>
      ExtTreeMap.ofList entries compare
  | _ => none

end Readers

theorem readOptional_of_ne_null {T : Type} {decode : Json → Option T} {v : Json}
    (h : v ≠ .null) : readOptional decode (some v) = (decode v).map some := by
  cases v with
  | null => exact absurd rfl h
  | _ => rfl

/-- Every item of a list that is read is read itself. -/
theorem exists_decode_of_mem {T S : Type} {decode : S → Option T} {items : List S} {l : List T}
    {v : S} (h : items.mapM decode = some l) (hv : v ∈ items) : ∃ a, decode v = some a := by
  induction items generalizing l with
  | nil => cases hv
  | cons w items ih =>
    rw [List.mapM_cons] at h
    obtain ⟨a, ha, h⟩ := Option.bind_eq_some_iff.1 h
    obtain ⟨rest, hrest, -⟩ := Option.bind_eq_some_iff.1 h
    rcases List.mem_cons.1 hv with rfl | hv
    · exact ⟨a, ha⟩
    · exact ih hrest hv

/-! ## Declared fields -/

/-- The shape of a type: what it declares of the fields below it. -/
inductive Shape where
  | leaf
  | list (item : Shape)
  | map (value : Shape)
  | record (fields : List (String × Shape))

/-- The shape of a member, where the shape declares it. -/
def Shape.field? : Shape → String → Option Shape
  | .record fields, name => fields.lookup name
  | .map value, _ => some value
  | .leaf, _ | .list _, _ => none

/-- The shape of the items of a list. -/
def Shape.item : Shape → Shape
  | .list item => item
  | .leaf | .map _ | .record _ => .leaf

/-- Fields that hold single values. -/
def leaves (names : List String) : List (String × Shape) := names.map fun name => (name, .leaf)

mutual

/-- Every field of the value, at every depth, is one that the shape declares. -/
def Json.declaredBy (shape : Shape) : Json → Bool
  | .obj fields => fieldsDeclaredBy shape fields
  | .arr items => itemsDeclaredBy shape.item items
  | .null | .bool _ | .int _ | .str _ => true

/-- Is every item declared by the shape of the items? -/
def itemsDeclaredBy (shape : Shape) : List Json → Bool
  | [] => true
  | v :: items => v.declaredBy shape && itemsDeclaredBy shape items

/-- Is every member declared, and its value by the member's shape? -/
def fieldsDeclaredBy (shape : Shape) : List (String × Json) → Bool
  | [] => true
  | (name, v) :: fields =>
      (match shape.field? name with
        | some declared => v.declaredBy declared
        | none => false) && fieldsDeclaredBy shape fields

end

theorem Json.declaredBy_arr {shape : Shape} {items : List Json} :
    (Json.arr items).declaredBy shape = true ↔ ∀ v ∈ items, v.declaredBy shape.item = true := by
  rw [Json.declaredBy]
  induction items with
  | nil => simp [itemsDeclaredBy]
  | cons v items ih => rw [itemsDeclaredBy, Bool.and_eq_true, ih, List.forall_mem_cons]

/-- An object is declared when all its members are. -/
theorem Json.declaredBy_obj {shape : Shape} {fields : List (String × Json)} :
    (Json.obj fields).declaredBy shape = true ↔
      ∀ e ∈ fields, ∃ declared, shape.field? e.1 = some declared ∧
        e.2.declaredBy declared = true := by
  rw [Json.declaredBy]
  induction fields with
  | nil => simp [fieldsDeclaredBy]
  | cons e fields ih =>
    rw [fieldsDeclaredBy, Bool.and_eq_true, ih, List.forall_mem_cons]
    refine and_congr_left fun _ => ?_
    cases shape.field? e.1 with
    | none => simp
    | some declared => simp

theorem Json.item_declaredBy {shape : Shape} {v item : Json} (hitem : item ∈ v.items)
    (h : v.declaredBy shape = true) : item.declaredBy shape.item = true := by
  cases v with
  | arr items => exact Json.declaredBy_arr.1 h item hitem
  | _ => cases hitem

/-- A field of a declared value is declared. -/
theorem Json.field_declaredBy {shape : Shape} {v w : Json} {name : String}
    (hfield : v.field? name = some w) (h : v.declaredBy shape = true) :
    ∃ declared, shape.field? name = some declared ∧ w.declaredBy declared = true := by
  have hmem := Json.mem_entries_of_field? hfield
  cases v with
  | obj fields => exact Json.declaredBy_obj.1 h _ hmem
  | _ => cases hfield

/-- The field is one that the shape declares, with a value of the declared shape. -/
def Shape.declares (shape : Shape) (entry : String × Json) : Bool :=
  (shape.field? entry.1).any fun declared => entry.2.declaredBy declared

theorem Shape.declares_iff {shape : Shape} {entry : String × Json} :
    shape.declares entry = true ↔
      ∃ declared, shape.field? entry.1 = some declared ∧ entry.2.declaredBy declared = true := by
  rw [Shape.declares, Option.any_eq_true]

/-- Two shapes declare a value alike when they declare its parts alike. -/
theorem Json.declaredBy_congr {shape shape' : Shape} {v : Json}
    (hitems : ∀ item ∈ v.items, item.declaredBy shape.item = item.declaredBy shape'.item)
    (hentries : ∀ e ∈ v.entries, shape.declares e = shape'.declares e) :
    v.declaredBy shape = v.declaredBy shape' := by
  rw [Bool.eq_iff_iff]
  cases v with
  | obj fields =>
    rw [Json.declaredBy_obj, Json.declaredBy_obj]
    refine forall₂_congr fun e he => ?_
    rw [← Shape.declares_iff, ← Shape.declares_iff, hentries e he]
  | arr items =>
    rw [Json.declaredBy_arr, Json.declaredBy_arr]
    exact forall₂_congr fun item hitem => by rw [hitems item hitem]
  | _ => simp [Json.declaredBy]

theorem Json.declaredBy_list_congr {shape shape' : Shape} {v : Json}
    (h : ∀ item ∈ v.items, item.declaredBy shape = item.declaredBy shape') :
    v.declaredBy (.list shape) = v.declaredBy (.list shape') :=
  Json.declaredBy_congr h fun _ _ => rfl

theorem Json.declaredBy_map_congr {shape shape' : Shape} {v : Json}
    (h : ∀ e ∈ v.entries, e.2.declaredBy shape = e.2.declaredBy shape') :
    v.declaredBy (.map shape) = v.declaredBy (.map shape') :=
  Json.declaredBy_congr (fun _ _ => rfl) h

theorem Json.declaredBy_record_congr {fields fields' : List (String × Shape)} {v : Json}
    (h : ∀ e ∈ v.entries, (Shape.record fields).declares e = (Shape.record fields').declares e) :
    v.declaredBy (.record fields) = v.declaredBy (.record fields') :=
  Json.declaredBy_congr (fun _ _ => rfl) h

/-- A declared field more makes no difference to a value that does not have it. -/
theorem Json.declaredBy_record_insert (before after : List (String × Shape)) {name : String}
    (shape : Shape) {v : Json} (habsent : ∀ e ∈ v.entries, e.1 ≠ name) :
    v.declaredBy (.record (before ++ (name, shape) :: after)) =
      v.declaredBy (.record (before ++ after)) := by
  refine Json.declaredBy_record_congr fun e he => ?_
  simp only [Shape.declares, Shape.field?, List.lookup_append, List.lookup_cons,
    beq_false_of_ne (habsent e he)]

/-- One declared field in another shape makes no difference to a value of which both shapes declare
alike what it has there. -/
theorem Json.declaredBy_record_change (before after : List (String × Shape)) {name : String}
    {shape shape' : Shape} {v : Json}
    (h : ∀ e ∈ v.entries, e.1 = name → e.2.declaredBy shape = e.2.declaredBy shape') :
    v.declaredBy (.record (before ++ (name, shape) :: after)) =
      v.declaredBy (.record (before ++ (name, shape') :: after)) := by
  refine Json.declaredBy_record_congr fun e he => ?_
  simp only [Shape.declares, Shape.field?, List.lookup_append, List.lookup_cons]
  cases hbefore : before.lookup e.1 with
  | some declared => rfl
  | none =>
    by_cases hname : e.1 = name
    · simp [hname, h e he hname]
    · simp [beq_false_of_ne hname]

/-! ## Reading back -/

section ReadBack

variable {T : Type} {decode : Json → Option T}

/-- A value is read back from its text. -/
theorem decodeEnum_text {all : List T} {text : T → String} (hinj : Function.Injective text) {a : T}
    (ha : a ∈ all) : decodeEnum all text (.str (text a)) = some a := by
  rw [decodeEnum, decodeText, Option.bind_some]
  cases hfind : all.find? (text · = text a) with
  | none => exact absurd (List.find?_eq_none.1 hfind a ha) (by simp)
  | some b =>
    have hb := List.find?_some hfind
    simp only [decide_eq_true_eq] at hb
    rw [hinj hb]

/-- A list is read back when its items are. -/
theorem mapM_eq_some_of_forall {S : Type} {f : S → Option T} {encode : T → S} {l : List T}
    (h : ∀ a ∈ l, f (encode a) = some a) : (l.map encode).mapM f = some l := by
  induction l with
  | nil => rfl
  | cons a l ih =>
    have htail := ih fun b hb => h b (List.mem_cons_of_mem _ hb)
    rw [List.map_cons, List.mapM_cons, h a List.mem_cons_self, htail]
    rfl

/-- A map is its list of entries. -/
theorem ofList_toList (m : BTreeMap String T) : ExtTreeMap.ofList m.toList compare = m := by
  refine ExtTreeMap.ext_getElem? fun k => Option.ext fun v => ?_
  constructor
  · intro h
    exact mem_toList_iff.1 (mem_of_getElem?_ofList h)
  · intro h
    obtain ⟨w, hw⟩ := exists_getElem?_ofList (mem_toList_iff.2 h)
    have hmem := mem_toList_iff.1 (mem_of_getElem?_ofList hw)
    rw [h, Option.some.injEq] at hmem
    rw [hw, hmem]

/-- A map is read back from its entries in key order. -/
theorem decodeMap_toList {write : String × T → String × Json} (m : BTreeMap String T)
    (h : ∀ e ∈ m.toList, decodeEntry decode (write e) = some e) :
    decodeMap decode (.obj (m.toList.map write)) = some m := by
  rw [decodeMap, mapM_eq_some_of_forall h, Option.map_some, ofList_toList]

end ReadBack

end PgRoles.Lib
