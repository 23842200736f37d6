import PgRoles.Lib.Decode

/-!
# Codecs

A writer of the JSON form of a type together with a reader that takes back whatever the writer gives.
The law is a field, so a codec put together from codecs comes with its own law. Records are put
together field by field: a group of fields knows the names it writes, and two groups go together
when their names are different (`Fields.both`). An enumeration whose variants have fields writes the
name of the variant into a tag field before them (`Codec.tagged`).

Fields are written in the order they are listed and read by name. Unknown fields are ignored unless
the record is closed; a field that occurs twice is an error.
-/

set_option autoImplicit false

namespace PgRoles.Lib

open Std

/-- A JSON form of a type that can be read back. -/
structure Codec (α : Type) where
  write : α → Json
  read : Json → Option α
  read_write : ∀ a, read (write a) = some a

section Values

variable {α β : Type}

/-- The form of a type that is another one under a different name. -/
def Codec.imap (c : Codec α) (view : β → α) (back : α → β) (h : ∀ b, back (view b) = b) : Codec β where
  write b := c.write (view b)
  read v := (c.read v).map back
  read_write b := by rw [c.read_write, Option.map_some, h]

/-- Strings. -/
def Codec.text : Codec String where
  write := .str
  read := decodeText
  read_write _ := rfl

/-- Booleans. -/
def Codec.flag : Codec Bool where
  write := .bool
  read := decodeFlag
  read_write _ := rfl

/-- Integers. -/
def Codec.int : Codec Int where
  write := .int
  read := decodeInt
  read_write _ := rfl

/-- A count; negative numbers are refused. -/
def Codec.count : Codec Nat where
  write n := .int n
  read v := (decodeInt v).bind fun n => if 0 ≤ n then some n.toNat else none
  read_write n := by simp [decodeInt]

/-- A value of an enumeration, by its name. -/
def Codec.choice (all : List α) (name : α → String)
    (hfind : ∀ a, all.find? (name · = name a) = some a) : Codec α where
  write a := .str (name a)
  read := decodeEnum all name
  read_write := hfind

/-- Lists, item by item. -/
def Codec.list (c : Codec α) : Codec (List α) where
  write l := .arr (l.map c.write)
  read := decodeList c.read
  read_write _ := mapM_eq_some_of_forall fun a _ => c.read_write a

/-- A map from names, written in the order of the names. -/
def Codec.map (c : Codec α) : Codec (BTreeMap String α) where
  write m := .obj (m.toList.map fun e => (e.1, c.write e.2))
  read := decodeMap c.read
  read_write m := by
    refine decodeMap_toList m fun e _ => ?_
    rw [decodeEntry, c.read_write]
    rfl

theorem Codec.text_ne_null (s : String) : Codec.text.write s ≠ .null := by
  intro h
  cases h

theorem Codec.flag_ne_null (b : Bool) : Codec.flag.write b ≠ .null := by
  intro h
  cases h

theorem Codec.count_ne_null (n : Nat) : Codec.count.write n ≠ .null := by
  intro h
  cases h

theorem Codec.choice_ne_null {all : List α} {name : α → String}
    {hfind : ∀ a, all.find? (name · = name a) = some a} (a : α) :
    (Codec.choice all name hfind).write a ≠ .null := by
  intro h
  cases h

end Values

/-! ## Groups of fields -/

/-- Some fields of an object: what is written into them and how they are read by name. -/
structure Fields (α : Type) where
  names : List String
  write : α → List (String × Json)
  read : List (String × Json) → Option α
  within : ∀ a, ∀ e ∈ write a, e.1 ∈ names
  distinct : ∀ a, ((write a).map Prod.fst).Nodup
  /-- The fields of the group are all that is read. -/
  read_write : ∀ a fields, (∀ n ∈ names, fields.lookup n = (write a).lookup n) →
    read fields = some a

namespace Fields

variable {α β : Type}

/-- No fields. -/
def empty : Fields Unit where
  names := []
  write _ := []
  read _ := some ()
  within _ _ h := absurd h List.not_mem_nil
  distinct _ := List.nodup_nil
  read_write _ _ _ := rfl

/-- A field that is always there. -/
def required (name : String) (c : Codec α) : Fields α where
  names := [name]
  write a := [(name, c.write a)]
  read fields := readRequired c.read (fields.lookup name)
  within _ e h := by rw [List.mem_singleton.1 h]; exact List.mem_singleton_self name
  distinct _ := List.nodup_singleton name
  read_write a fields h := by
    rw [h name (List.mem_singleton_self name), List.lookup_cons_self]
    exact c.read_write a

/-- A field that is left out when there is no value. -/
def optional (name : String) (c : Codec α) (hnull : ∀ a, c.write a ≠ .null) :
    Fields (Option α) where
  names := [name]
  write a := optionalField name (a.map c.write)
  read fields := readOptional c.read (fields.lookup name)
  within a e h := by
    cases a with
    | none => cases h
    | some a => rw [List.mem_singleton.1 h]; exact List.mem_singleton_self name
  distinct a := by
    cases a with
    | none => exact List.nodup_nil
    | some a => exact List.nodup_singleton name
  read_write a fields h := by
    rw [h name (List.mem_singleton_self name), lookup_optionalField_self]
    cases a with
    | none => rfl
    | some a =>
        rw [Option.map_some, readOptional_of_ne_null (hnull a), c.read_write]
        rfl

/-- A field that is null when there is no value. -/
def nullable (name : String) (c : Codec α) (hnull : ∀ a, c.write a ≠ .null) :
    Fields (Option α) where
  names := [name]
  write a := [(name, .nullable (a.map c.write))]
  read fields := readOptional c.read (fields.lookup name)
  within a e h := by rw [List.mem_singleton.1 h]; exact List.mem_singleton_self name
  distinct a := List.nodup_singleton name
  read_write a fields h := by
    rw [h name (List.mem_singleton_self name), List.lookup_cons_self]
    cases a with
    | none => rfl
    | some a =>
        rw [Option.map_some, Json.nullable, Option.getD_some, readOptional_of_ne_null (hnull a),
          c.read_write]
        rfl

/-- A list that is left out when it is empty. -/
def listed (name : String) (c : Codec α) : Fields (List α) where
  names := [name]
  write l := optionalField name (if l.isEmpty then none else some (c.list.write l))
  read fields := readDefaulted c.list.read [] (fields.lookup name)
  within l e h := by
    cases l with
    | nil => cases h
    | cons a l => rw [List.mem_singleton.1 h]; exact List.mem_singleton_self name
  distinct l := by
    cases l with
    | nil => exact List.nodup_nil
    | cons a l => exact List.nodup_singleton name
  read_write l fields h := by
    rw [h name (List.mem_singleton_self name), lookup_optionalField_self]
    cases l with
    | nil => rfl
    | cons a l => exact c.list.read_write (a :: l)

/-- Two groups with different names, one after the other. -/
def both (first : Fields α) (second : Fields β)
    (hapart : ∀ n ∈ first.names, n ∉ second.names := by decide) : Fields (α × β) where
  names := first.names ++ second.names
  write p := first.write p.1 ++ second.write p.2
  read fields := (first.read fields).bind fun a => (second.read fields).map fun b => (a, b)
  within p e h := by
    rcases List.mem_append.1 h with h | h
    · exact List.mem_append_left _ (first.within p.1 e h)
    · exact List.mem_append_right _ (second.within p.2 e h)
  distinct p := by
    rw [List.map_append, List.nodup_append]
    refine ⟨first.distinct p.1, second.distinct p.2, fun n hn m hm heq => ?_⟩
    obtain ⟨e, he, rfl⟩ := List.mem_map.1 hn
    obtain ⟨f, hf, rfl⟩ := List.mem_map.1 hm
    exact hapart e.1 (first.within p.1 e he) (heq ▸ second.within p.2 f hf)
  read_write p fields h := by
    have hfirst : first.read fields = some p.1 := by
      refine first.read_write p.1 fields fun n hn => ?_
      have hnone : (second.write p.2).lookup n = none := by
        apply lookup_eq_none_of_not_mem
        intro hmem
        obtain ⟨e, he, rfl⟩ := List.mem_map.1 hmem
        exact hapart e.1 hn (second.within p.2 e he)
      rw [h n (List.mem_append_left _ hn), List.lookup_append, hnone, Option.or_none]
    have hsecond : second.read fields = some p.2 := by
      refine second.read_write p.2 fields fun n hn => ?_
      have hnone : (first.write p.1).lookup n = none := by
        apply lookup_eq_none_of_not_mem
        intro hmem
        obtain ⟨e, he, rfl⟩ := List.mem_map.1 hmem
        exact hapart e.1 (first.within p.1 e he) hn
      rw [h n (List.mem_append_right _ hn), List.lookup_append, hnone, Option.none_or]
    rw [hfirst, hsecond]
    rfl

/-- The same fields for a type that is another one under a different name. -/
def imap (f : Fields α) (view : β → α) (back : α → β) (h : ∀ b, back (view b) = b) : Fields β where
  names := f.names
  write b := f.write (view b)
  read fields := (f.read fields).map back
  within b := f.within (view b)
  distinct b := f.distinct (view b)
  read_write b fields hfields := by rw [f.read_write (view b) fields hfields, Option.map_some, h]

end Fields

/-- No known field occurs twice, and in a closed record there are no others. -/
def acceptsFields (closed : Bool) (names : List String) (fields : List (String × Json)) : Bool :=
  (names.all fun n => (fields.map Prod.fst).count n ≤ 1) &&
    (!closed || fields.all fun e => names.contains e.1)

/-- Fields pass that are distinct and all known. -/
theorem acceptsFields_of_within {closed : Bool} {names : List String}
    {fields : List (String × Json)} (hwithin : ∀ e ∈ fields, e.1 ∈ names)
    (hdistinct : (fields.map Prod.fst).Nodup) : acceptsFields closed names fields = true := by
  unfold acceptsFields
  rw [Bool.and_eq_true, List.all_eq_true, Bool.or_eq_true, List.all_eq_true]
  refine ⟨fun n _ => ?_, .inr fun e he => ?_⟩
  · exact decide_eq_true (List.nodup_iff_count_le_one.1 hdistinct n)
  · exact List.contains_iff_mem.2 (hwithin e he)

/-- An object of one group of fields. -/
def Codec.record {α : Type} (closed : Bool) (f : Fields α) : Codec α where
  write a := .obj (f.write a)
  read
    | .obj fields => if acceptsFields closed f.names fields then f.read fields else none
    | _ => none
  read_write a := by
    simp only
    rw [if_pos (acceptsFields_of_within (f.within a) (f.distinct a))]
    exact f.read_write a _ fun _ _ => rfl

/-- A record is not null. -/
theorem Codec.record_ne_null {α : Type} {closed : Bool} {f : Fields α} (a : α) :
    (Codec.record closed f).write a ≠ .null := by
  intro h
  cases h

/-! ## Variants -/

/-- One variant of an enumeration, with the fields it has. -/
structure Variant (α : Type) where
  name : String
  Payload : Type
  fields : Fields Payload
  closed : Bool := true
  make : Payload → α
  payload? : α → Option Payload
  make_of_payload? : ∀ a p, payload? a = some p → make p = a := by
    intro a p h
    cases a <;> cases h <;> rfl

section Variants

variable {α : Type}

/-- The fields of a value that is of the variant, behind the variant's name. -/
def Variant.write? (tag : String) (v : Variant α) (a : α) : Option Json :=
  (v.payload? a).map fun p => .obj ((tag, .str v.name) :: v.fields.write p)

/-- Read a variant from the fields of an object, when its fields are there and no others if it is
closed. -/
def Variant.read (tag : String) (v : Variant α) (fields : List (String × Json)) : Option α :=
  if acceptsFields v.closed (tag :: v.fields.names) fields then
    (v.fields.read fields).map v.make
  else none

/-- A variant is read back from its own fields. -/
theorem Variant.read_write? {tag : String} {v : Variant α} (htag : tag ∉ v.fields.names) {a : α}
    {p : v.Payload} (h : v.payload? a = some p) :
    v.read tag ((tag, .str v.name) :: v.fields.write p) = some a := by
  have haccepts : acceptsFields v.closed (tag :: v.fields.names)
      ((tag, .str v.name) :: v.fields.write p) = true := by
    apply acceptsFields_of_within
    · intro e he
      rcases List.mem_cons.1 he with rfl | he
      · exact List.mem_cons_self
      · exact List.mem_cons_of_mem tag (v.fields.within p e he)
    · refine List.nodup_cons.2 ⟨fun hmem => ?_, v.fields.distinct p⟩
      obtain ⟨e, he, heq⟩ := List.mem_map.1 hmem
      have hin := v.fields.within p e he
      rw [heq] at hin
      exact htag hin
  have hread : v.fields.read ((tag, .str v.name) :: v.fields.write p) = some p := by
    refine v.fields.read_write p _ fun n hn => ?_
    have hne : n ≠ tag := fun heq => htag (heq ▸ hn)
    rw [List.lookup_cons, beq_false_of_ne hne]
  rw [Variant.read, if_pos haccepts, hread, Option.map_some, v.make_of_payload? a p h]

/-- The first variant of a name is the only one. -/
theorem find?_variant {variants : List (Variant α)} (hdistinct : (variants.map (·.name)).Nodup)
    {v : Variant α} (hv : v ∈ variants) : variants.find? (·.name = v.name) = some v := by
  induction variants with
  | nil => exact absurd hv List.not_mem_nil
  | cons w variants ih =>
      rw [List.map_cons, List.nodup_cons] at hdistinct
      rcases List.mem_cons.1 hv with rfl | hv
      · exact List.find?_cons_of_pos (decide_eq_true rfl)
      · have hne : w.name ≠ v.name := fun heq =>
          hdistinct.1 (heq ▸ List.mem_map_of_mem hv)
        rw [List.find?_cons_of_neg (by simpa using hne)]
        exact ih hdistinct.2 hv

/-- An enumeration whose values are objects with the name of the variant in a field of their own. -/
def Codec.tagged (tag : String) (variants : List (Variant α))
    (hdistinct : (variants.map (·.name)).Nodup) (htag : ∀ v ∈ variants, tag ∉ v.fields.names)
    (htotal : ∀ a, (variants.findSome? (·.write? tag a)).isSome = true) : Codec α where
  write a := (variants.findSome? (·.write? tag a)).getD .null
  read
    | .obj fields => ((fields.lookup tag).bind decodeText).bind fun name =>
        (variants.find? (·.name = name)).bind fun v => v.read tag fields
    | _ => none
  read_write a := by
    obtain ⟨written, hwritten⟩ := Option.isSome_iff_exists.1 (htotal a)
    obtain ⟨v, hv, hwrite⟩ := List.exists_of_findSome?_eq_some hwritten
    obtain ⟨p, hp, rfl⟩ := Option.map_eq_some_iff.1 hwrite
    simp only [hwritten, Option.getD_some, List.lookup_cons_self, Option.bind_some, decodeText,
      find?_variant hdistinct hv]
    exact Variant.read_write? (htag v hv) hp

end Variants

end PgRoles.Lib
