import PgRoles.Lib.Json

/-!
# Canonical content

The bytes a content digest is computed over. `canonicalize` sorts the fields of every object and
drops the fields that are null or empty, at every depth; the items of an array are positional and
stay.

Encoders are compared through `kept`, what is left of a field's value: two objects have the same
canonical form exactly when every name keeps the same value (`canonicalize_object_iff`), so that an
encoder of a record is treated field by field. `SameContent` are the differences between two ways
of writing one content.
-/

set_option autoImplicit false

namespace PgRoles.Core

open Std PgRoles.Lib

/-! ## The canonical form -/

/-- Version tag for the canonical content encoding. -/
def candidateContentEncodingV1 : String := "pgroles.io/candidate-content/v1"

/-- Does the value say nothing: null, or without members or items? -/
def isEmptyValue : Json → Bool
  | .null | .obj [] | .arr [] => true
  | _ => false

mutual

/-- Sort object keys, drop nulls and empty containers. -/
def canonicalize : Json → Json
  | .obj fields => .object (canonicalizeFields fields)
  | .arr items => .arr (canonicalizeItems items)
  | .null => .null
  | .bool b => .bool b
  | .int n => .int n
  | .str s => .str s

/-- Items are positional: only what is inside of them is dropped. -/
def canonicalizeItems : List Json → List Json
  | [] => []
  | v :: items => canonicalize v :: canonicalizeItems items

/-- The fields in canonical form, without those that say nothing. -/
def canonicalizeFields : List (String × Json) → List (String × Json)
  | [] => []
  | (key, v) :: fields =>
      let entry := canonicalize v
      if isEmptyValue entry then canonicalizeFields fields
      else (key, entry) :: canonicalizeFields fields

end

/-- The exact bytes a content digest hashes. -/
def canonicalContentBytes (content : Json) : ByteArray :=
  (Json.object [("encoding", .str candidateContentEncodingV1),
    ("content", canonicalize content)]).bytes

/-- The bytes determine the canonical form. -/
theorem canonicalContentBytes_eq_iff {v v' : Json} :
    canonicalContentBytes v = canonicalContentBytes v' ↔ canonicalize v = canonicalize v' := by
  constructor
  · intro h
    have hcontent := Json.object_eq_iff.1 (Json.bytes_injective h) "content"
    simpa [List.lookup_cons] using hcontent
  · intro h
    rw [canonicalContentBytes, canonicalContentBytes, h]

/-! ## What is kept of a field -/

/-- What the canonical form keeps of a field with this value. -/
def kept (v : Json) : Option Json :=
  if isEmptyValue (canonicalize v) then none else some (canonicalize v)

theorem canonicalizeItems_eq_map (items : List Json) :
    canonicalizeItems items = items.map canonicalize := by
  induction items with
  | nil => rfl
  | cons v items ih => rw [canonicalizeItems, ih, List.map_cons]

theorem canonicalizeFields_cons (key : String) (v : Json) (fields : List (String × Json)) :
    canonicalizeFields ((key, v) :: fields) =
      optionalField key (kept v) ++ canonicalizeFields fields := by
  rw [canonicalizeFields, kept]
  by_cases h : isEmptyValue (canonicalize v)
  · simp [h, optionalField]
  · simp [h, optionalField]

/-- With distinct names every name keeps its own value. -/
theorem lookup_canonicalizeFields {fields : List (String × Json)}
    (hnodup : (fields.map Prod.fst).Nodup) (k : String) :
    (canonicalizeFields fields).lookup k = (fields.lookup k).bind kept := by
  induction fields with
  | nil => rfl
  | cons field fields ih =>
    obtain ⟨key, v⟩ := field
    rw [List.map_cons, List.nodup_cons] at hnodup
    rw [canonicalizeFields_cons, List.lookup_append, ih hnodup.2, List.lookup_cons]
    by_cases hk : k = key
    · subst hk
      simp [lookup_eq_none_of_not_mem hnodup.1]
    · simp [lookup_optionalField_of_ne hk, beq_false_of_ne hk]

/-- The canonical form of an object built field by field. -/
theorem canonicalize_object (fields : List (String × Json)) :
    canonicalize (.object fields) = .object (canonicalizeFields (fieldMap fields).toList) := by
  rw [Json.object, Json.ofMap, canonicalize]

theorem lookup_canonical_object (fields : List (String × Json)) (k : String) :
    (canonicalizeFields (fieldMap fields).toList).lookup k = (fields.lookup k).bind kept := by
  rw [lookup_canonicalizeFields (nodup_fst_toList _), lookup_toList, getElem?_fieldMap]

/-- Objects have the same canonical form exactly when every name keeps the same value. -/
theorem canonicalize_object_iff {fields fields' : List (String × Json)} :
    canonicalize (.object fields) = canonicalize (.object fields') ↔
      ∀ k, (fields.lookup k).bind kept = (fields'.lookup k).bind kept := by
  rw [canonicalize_object, canonicalize_object, Json.object_eq_iff]
  refine forall_congr' fun k => ?_
  rw [lookup_canonical_object, lookup_canonical_object]

theorem object_nil : Json.object [] = .obj [] := by simp [Json.object, Json.ofMap, fieldMap]

theorem isEmptyValue_object {fields : List (String × Json)} :
    isEmptyValue (.object fields) = true ↔ Json.object fields = .object [] := by
  rw [object_nil, Json.object, Json.ofMap, Json.obj.injEq]
  cases (fieldMap fields).toList <;> simp [isEmptyValue]

/-- An object is dropped exactly when no name keeps a value. -/
theorem kept_object_eq_none_iff {fields : List (String × Json)} :
    kept (.object fields) = none ↔ ∀ k, (fields.lookup k).bind kept = none := by
  have hempty : canonicalize (.object []) = .object [] := by
    rw [object_nil, canonicalize, canonicalizeFields, object_nil]
  have hdropped : kept (.object fields) = none ↔
      canonicalize (.object fields) = canonicalize (.object []) := by
    rw [kept, hempty, canonicalize_object, ← isEmptyValue_object]
    simp
  rw [hdropped, canonicalize_object_iff]
  simp

/-- Of objects as fields, the same is kept exactly when every name keeps the same value. -/
theorem kept_object_iff {fields fields' : List (String × Json)} :
    kept (.object fields) = kept (.object fields') ↔
      ∀ k, (fields.lookup k).bind kept = (fields'.lookup k).bind kept := by
  constructor
  · intro h
    cases hkept : kept (.object fields) with
    | none =>
      rw [hkept] at h
      intro k
      rw [kept_object_eq_none_iff.1 hkept k, kept_object_eq_none_iff.1 h.symm k]
    | some v =>
      refine canonicalize_object_iff.1 ?_
      rw [hkept, kept] at h
      rw [kept] at hkept
      split_ifs at h hkept
      exact (Option.some.inj hkept).trans (Option.some.inj h)
  · intro h
    rw [kept, kept, canonicalize_object_iff.2 h]

/-! ## Values of records, lists and maps -/

@[simp] theorem kept_null : kept .null = none := rfl

@[simp] theorem kept_bool (b : Bool) : kept (.bool b) = some (.bool b) := rfl

@[simp] theorem kept_int (n : Int) : kept (.int n) = some (.int n) := rfl

@[simp] theorem kept_str (s : String) : kept (.str s) = some (.str s) := rfl

@[simp] theorem kept_emptyList : kept (.arr []) = none := rfl

/-- Of records with the same names, the same is kept of each field. -/
theorem lookup_kept_iff {fields fields' : List (String × Option Json)}
    (hnames : fields.map Prod.fst = fields'.map Prod.fst) (hnodup : (fields.map Prod.fst).Nodup) :
    (∀ k, (fields.lookup k).join.bind kept = (fields'.lookup k).join.bind kept) ↔
      fields.map (fun field => field.2.bind kept) =
        fields'.map fun field => field.2.bind kept := by
  induction fields generalizing fields' with
  | nil =>
    rw [List.map_nil, eq_comm, List.map_eq_nil_iff] at hnames
    simp [hnames]
  | cons field fields ih =>
    cases fields' with
    | nil => simp at hnames
    | cons field' fields' =>
      obtain ⟨name, v⟩ := field
      obtain ⟨name', v'⟩ := field'
      rw [List.map_cons, List.map_cons, List.cons.injEq] at hnames
      obtain ⟨rfl, hnames⟩ := hnames
      rw [List.map_cons, List.nodup_cons] at hnodup
      rw [List.map_cons, List.map_cons, List.cons.injEq, ← ih hnames hnodup.2]
      constructor
      · intro h
        refine ⟨by simpa using h name, fun k => ?_⟩
        by_cases hk : k = name
        · subst hk
          -- The name occurs once, so neither rest has it.
          rw [lookup_eq_none_of_not_mem hnodup.1, lookup_eq_none_of_not_mem (hnames ▸ hnodup.1)]
        · simpa [List.lookup_cons, beq_false_of_ne hk] using h k
      · intro h k
        rw [List.lookup_cons, List.lookup_cons]
        by_cases hk : k = name
        · simpa [hk] using h.1
        · simpa [beq_false_of_ne hk] using h.2 k

section Records

variable {fields fields' : List (String × Option Json)}

theorem canonicalize_record_iff (hnames : fields.map Prod.fst = fields'.map Prod.fst)
    (hnodup : (fields.map Prod.fst).Nodup) :
    canonicalize (.record fields) = canonicalize (.record fields') ↔
      fields.map (fun field => field.2.bind kept) =
        fields'.map fun field => field.2.bind kept := by
  rw [← lookup_kept_iff hnames hnodup, Json.record, Json.record, canonicalize_object_iff]
  refine forall_congr' fun k => ?_
  rw [lookup_flatMap_optionalField hnodup, lookup_flatMap_optionalField (hnames ▸ hnodup)]

theorem kept_record_iff (hnames : fields.map Prod.fst = fields'.map Prod.fst)
    (hnodup : (fields.map Prod.fst).Nodup) :
    kept (.record fields) = kept (.record fields') ↔
      fields.map (fun field => field.2.bind kept) =
        fields'.map fun field => field.2.bind kept := by
  rw [← canonicalize_record_iff hnames hnodup, Json.record, Json.record, kept_object_iff,
    canonicalize_object_iff]

/-- A record is dropped exactly when nothing is kept of any field. -/
theorem kept_record_eq_none_iff (hnodup : (fields.map Prod.fst).Nodup) :
    kept (.record fields) = none ↔ ∀ field ∈ fields, field.2.bind kept = none := by
  rw [Json.record, kept_object_eq_none_iff]
  simp only [lookup_flatMap_optionalField hnodup]
  constructor
  · intro h field hfield
    have hfield' := h field.1
    rw [(lookup_eq_some_iff_mem hnodup).2 hfield] at hfield'
    exact hfield'
  · intro h k
    cases hlookup : fields.lookup k with
    | none => rfl
    | some v => exact h (k, v) ((lookup_eq_some_iff_mem hnodup).1 hlookup)

end Records

/-- What is kept of an array tells the canonical forms of its items. -/
theorem kept_arr_iff {items items' : List Json} :
    kept (.arr items) = kept (.arr items') ↔
      items.map canonicalize = items'.map canonicalize := by
  have hkept : ∀ items : List Json, kept (.arr items) =
      if items = [] then none else some (.arr (items.map canonicalize)) := by
    intro items
    rw [kept, canonicalize, canonicalizeItems_eq_map]
    cases items <;> rfl
  rw [hkept, hkept]
  cases items <;> cases items' <;> simp

/-- What is kept of a map tells what is kept of every entry. -/
theorem kept_ofMap_iff {m m' : BTreeMap String Json} :
    kept (.ofMap m) = kept (.ofMap m') ↔ ∀ k : String, m[k]?.bind kept = m'[k]?.bind kept := by
  have hobject : ∀ m : BTreeMap String Json, Json.ofMap m = .object m.toList := by
    intro m
    refine congrArg Json.ofMap (ExtTreeMap.ext_getElem? fun k => ?_)
    rw [getElem?_fieldMap, lookup_toList]
  rw [hobject, hobject, kept_object_iff]
  simp only [lookup_toList]

/-! ## Ways of writing one content -/

/-- The values differ only in the order of object fields, in fields that are null and in fields
that are empty lists, at any depth. The names of an object's fields are distinct. -/
inductive SameContent : Json → Json → Prop
  | refl (v : Json) : SameContent v v
  | symm {v v' : Json} (h : SameContent v v') : SameContent v' v
  | trans {v v' v'' : Json} (h : SameContent v v') (h' : SameContent v' v'') : SameContent v v''
  | order {fields fields' : List (String × Json)} (distinct : (fields.map Prod.fst).Nodup)
      (perm : fields.Perm fields') : SameContent (.obj fields) (.obj fields')
  | null (name : String) (fields : List (String × Json)) :
      SameContent (.obj ((name, .null) :: fields)) (.obj fields)
  | emptyList (name : String) (fields : List (String × Json)) :
      SameContent (.obj ((name, .arr []) :: fields)) (.obj fields)
  | field (name : String) {v v' : Json} (before after : List (String × Json))
      (h : SameContent v v') :
      SameContent (.obj (before ++ (name, v) :: after)) (.obj (before ++ (name, v') :: after))
  | item {v v' : Json} (before after : List Json) (h : SameContent v v') :
      SameContent (.arr (before ++ v :: after)) (.arr (before ++ v' :: after))

/-- Ways of writing one content have one canonical form. -/
theorem SameContent.canonicalize_eq {v v' : Json} (h : SameContent v v') :
    canonicalize v = canonicalize v' := by
  induction h with
  | refl v => rfl
  | symm _ ih => exact ih.symm
  | trans _ _ ih ih' => exact ih.trans ih'
  | @order fields fields' distinct perm =>
    rw [canonicalize, canonicalize, Json.object_eq_iff]
    intro k
    have distinct' := (perm.map Prod.fst).nodup distinct
    rw [lookup_canonicalizeFields distinct, lookup_canonicalizeFields distinct',
      lookup_perm perm distinct]
  | null name fields => rw [canonicalize, canonicalize, canonicalizeFields_cons]; rfl
  | emptyList name fields => rw [canonicalize, canonicalize, canonicalizeFields_cons]; rfl
  | field name before after _ ih =>
    rw [canonicalize, canonicalize]
    congr 1
    induction before with
    | nil => rw [List.nil_append, List.nil_append, canonicalizeFields_cons,
        canonicalizeFields_cons, kept, kept, ih]
    | cons field before hbefore =>
      rw [List.cons_append, List.cons_append, canonicalizeFields_cons, canonicalizeFields_cons,
        hbefore]
  | item before after _ ih =>
    rw [canonicalize, canonicalize, canonicalizeItems_eq_map, canonicalizeItems_eq_map]
    simp [ih]

end PgRoles.Core
