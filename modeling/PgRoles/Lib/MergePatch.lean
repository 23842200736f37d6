import PgRoles.Lib.Decode

/-!
# JSON merge patches

A merge patch is a value whose objects are merged into the objects of a target, field by field and
at every depth: a field that the patch holds as null is removed, one that it does not hold stays,
and any other value replaces what was there. Stored values hence have no field for a null that was
written.
-/

set_option autoImplicit false

namespace PgRoles.Lib

/-- The fields without the ones of one name. -/
def removeField (name : String) (fields : List (String × Json)) : List (String × Json) :=
  fields.filter fun field => field.1 ≠ name

/-- The fields with one of them written; their order has no meaning. -/
def writeField (name : String) (v : Json) (fields : List (String × Json)) : List (String × Json) :=
  removeField name fields ++ [(name, v)]

mutual

/-- The target after a merge patch. -/
def Json.mergePatch (target : Json) : Json → Json
  | .obj patch => .obj (mergeFields target.entries patch)
  | .arr items => .arr items
  | .null => .null
  | .bool b => .bool b
  | .int n => .int n
  | .str s => .str s

/-- The fields of an object after the fields of a merge patch, one after the other. -/
def mergeFields (target : List (String × Json)) : List (String × Json) → List (String × Json)
  | [] => target
  | (name, v) :: patch =>
      let merged := ((target.lookup name).getD .null).mergePatch v
      mergeFields (if v.isNull then removeField name target else writeField name merged target)
        patch

end

/-! ## The fields of the result -/

theorem lookup_removeField_self (name : String) (fields : List (String × Json)) :
    (removeField name fields).lookup name = none := by
  rw [List.lookup_eq_none_iff]
  intro field hfield
  have hkept := of_decide_eq_true (List.mem_filter.1 hfield).2
  exact bne_iff_ne.2 (Ne.symm hkept)

theorem lookup_removeField_of_ne {name other : String} (hne : other ≠ name)
    (fields : List (String × Json)) :
    (removeField name fields).lookup other = fields.lookup other := by
  induction fields with
  | nil => rfl
  | cons field fields ih =>
    rw [removeField] at ih ⊢
    by_cases hkeep : field.1 = name
    · have hother : (other == field.1) = false := beq_false_of_ne (hkeep ▸ hne)
      rw [List.filter_cons_of_neg (by simpa using hkeep), ih, List.lookup_cons, hother]
    · rw [List.filter_cons_of_pos (by simpa using hkeep), List.lookup_cons, List.lookup_cons, ih]

theorem lookup_writeField_self (name : String) (v : Json) (fields : List (String × Json)) :
    (writeField name v fields).lookup name = some v := by
  rw [writeField, List.lookup_append, lookup_removeField_self]
  simp

theorem lookup_writeField_of_ne {name other : String} (hne : other ≠ name) (v : Json)
    (fields : List (String × Json)) :
    (writeField name v fields).lookup other = fields.lookup other := by
  have hother : (other == name) = false := beq_false_of_ne hne
  rw [writeField, List.lookup_append, lookup_removeField_of_ne hne, List.lookup_cons, hother]
  exact Option.or_none

/-- A field that the patch does not hold stays. -/
theorem lookup_mergeFields_of_absent {patch : List (String × Json)} {name : String}
    (habsent : name ∉ patch.map Prod.fst) (target : List (String × Json)) :
    (mergeFields target patch).lookup name = target.lookup name := by
  induction patch generalizing target with
  | nil => rfl
  | cons field patch ih =>
    obtain ⟨other, v⟩ := field
    simp only [List.map_cons, List.mem_cons, not_or] at habsent
    rw [mergeFields, ih habsent.2]
    split
    · exact lookup_removeField_of_ne habsent.1 target
    · exact lookup_writeField_of_ne habsent.1 _ target

/-- What a patch of distinct fields makes of one that it holds: nothing of a null, and otherwise the
merged value. -/
theorem lookup_mergeFields {patch : List (String × Json)} (hdistinct : (patch.map Prod.fst).Nodup)
    {name : String} {v : Json} (hfield : (name, v) ∈ patch) (target : List (String × Json)) :
    (mergeFields target patch).lookup name =
      if v.isNull then none else some (((target.lookup name).getD .null).mergePatch v) := by
  induction patch generalizing target with
  | nil => cases hfield
  | cons field patch ih =>
    obtain ⟨other, w⟩ := field
    rw [List.map_cons, List.nodup_cons] at hdistinct
    rw [mergeFields]
    rcases List.mem_cons.1 hfield with hhead | htail
    · obtain ⟨rfl, rfl⟩ := Prod.mk.inj hhead
      rw [lookup_mergeFields_of_absent hdistinct.1]
      split
      · exact lookup_removeField_self _ _
      · exact lookup_writeField_self _ _ _
    · have hne : name ≠ other := fun heq => by
        exact hdistinct.1 (List.mem_map.2 ⟨(name, v), htail, heq⟩)
      rw [ih hdistinct.2 htail]
      have hsame : (if w.isNull then removeField other target
          else writeField other (((target.lookup other).getD .null).mergePatch w) target).lookup
            name = target.lookup name := by
        split
        · exact lookup_removeField_of_ne hne target
        · exact lookup_writeField_of_ne hne _ target
      rw [hsame]

theorem Json.field?_eq_lookup (v : Json) (name : String) :
    v.field? name = v.entries.lookup name := by
  cases v <;> rfl

/-- The fields of an object that a merge patch is merged into. -/
theorem Json.field?_mergePatch {patch : List (String × Json)}
    (hdistinct : (patch.map Prod.fst).Nodup) {name : String} {v : Json}
    (hfield : (name, v) ∈ patch) (target : Json) :
    (target.mergePatch (.obj patch)).field? name =
      if v.isNull then none else some (((target.field? name).getD .null).mergePatch v) := by
  rw [Json.field?_eq_lookup target, Json.mergePatch, Json.field?,
    lookup_mergeFields hdistinct hfield]

end PgRoles.Lib
