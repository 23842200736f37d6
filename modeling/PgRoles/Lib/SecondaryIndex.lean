import PgRoles.Lib.BTree

/-!
# Secondary indexes

A map of objects and, beside it, an index from a derived key to the references of the objects with
that key. An object without a key is in no bucket, and a bucket that becomes empty is dropped. An
index that agrees with its objects (`Indexes`) still does when an object is taken out of both under
the key it was stored with, or put into both under its own, and a lookup in it is then a scan of the
objects (`Indexes.lookup_perm`).
-/

set_option autoImplicit false

universe u v w

namespace PgRoles.Lib

open Std

section SecondaryIndex

variable {K : Type u} {R : Type v} {V : Type w} [Ord K] [TransOrd K] [Ord R] [TransOrd R]

/-- The references under a key; none under an absent one. -/
def bucket (index : BTreeMap K (BTreeSet R)) (k : K) : BTreeSet R := index[k]?.getD ∅

/-- Put a reference under its key. -/
def link (index : BTreeMap K (BTreeSet R)) (k : Option K) (r : R) : BTreeMap K (BTreeSet R) :=
  match k with
  | none => index
  | some k => index.alter k fun refs => some ((refs.getD ∅).insert r)

/-- Take a reference from under its key; a bucket left empty goes. -/
def unlink (index : BTreeMap K (BTreeSet R)) (k : Option K) (r : R) : BTreeMap K (BTreeSet R) :=
  match k with
  | none => index
  | some k => index.alter k fun refs => (refs.map (·.erase r)).filter fun refs => !refs.isEmpty

/-- The objects under a key, in the order of their references. -/
def lookup (objects : BTreeMap R V) (index : BTreeMap K (BTreeSet R)) (k : K) : List V :=
  (bucket index k).toList.filterMap fun r => objects[r]?

/-- The index holds exactly the references of the objects with a key, under that key, and no bucket
is empty. -/
structure Indexes (key : V → Option K) (objects : BTreeMap R V) (index : BTreeMap K (BTreeSet R)) :
    Prop where
  mem_iff : ∀ k r, r ∈ bucket index k ↔ ∃ v, objects[r]? = some v ∧ key v = some k
  nonempty : ∀ (k : K) (refs : BTreeSet R), index[k]? = some refs → refs.isEmpty = false

theorem Indexes.empty (key : V → Option K) :
    Indexes key (∅ : BTreeMap R V) (∅ : BTreeMap K (BTreeSet R)) where
  mem_iff k r := by simp [bucket]
  nonempty k refs h := by simp at h

variable [LawfulEqOrd K] [LawfulEqOrd R] [DecidableEq K] {index : BTreeMap K (BTreeSet R)}
  {objects : BTreeMap R V} {key : V → Option K}

theorem mem_bucket_link {k : Option K} {k' : K} {r r' : R} :
    r' ∈ bucket (link index k r) k' ↔ r' ∈ bucket index k' ∨ k = some k' ∧ r' = r := by
  cases k with
  | none => simp [link]
  | some k =>
    simp only [link]
    rw [bucket, getElem?_alter_eq]
    by_cases hk : k = k'
    · subst hk
      rw [if_pos rfl, Option.getD_some, mem_insert_iff, ← bucket]
      constructor
      · rintro (rfl | h)
        · exact Or.inr ⟨rfl, rfl⟩
        · exact Or.inl h
      · rintro (h | ⟨-, rfl⟩)
        · exact Or.inr h
        · exact Or.inl rfl
    · rw [if_neg hk, ← bucket]
      simp [hk]

omit [LawfulEqOrd R] [Ord K] [TransOrd K] [LawfulEqOrd K] [DecidableEq K] in
theorem getD_filter_nonempty (refs : Option (BTreeSet R)) :
    (refs.filter fun refs => !refs.isEmpty).getD ∅ = refs.getD ∅ := by
  cases refs with
  | none => rfl
  | some refs =>
    cases hempty : refs.isEmpty with
    | false => simp [Option.filter, hempty]
    | true =>
      have hnil : refs = ∅ := ExtTreeSet.isEmpty_iff.1 hempty
      simp [Option.filter, hnil]

theorem mem_bucket_unlink {k : Option K} {k' : K} {r r' : R} :
    r' ∈ bucket (unlink index k r) k' ↔ r' ∈ bucket index k' ∧ ¬(k = some k' ∧ r' = r) := by
  cases k with
  | none => simp [unlink]
  | some k =>
    simp only [unlink]
    rw [bucket, getElem?_alter_eq]
    by_cases hk : k = k'
    · subst hk
      rw [if_pos rfl, getD_filter_nonempty]
      have herase : (Option.map (fun refs => ExtTreeSet.erase refs r) index[k]?).getD ∅ =
          (bucket index k).erase r := by
        unfold bucket
        cases index[k]? with
        | none => simp
        | some refs => rfl
      rw [herase, ExtTreeSet.mem_erase]
      constructor
      · rintro ⟨hne, h⟩
        exact ⟨h, fun ⟨_, heq⟩ => hne (by simp [heq])⟩
      · rintro ⟨h, hne⟩
        refine ⟨fun hcompare => hne ⟨rfl, ?_⟩, h⟩
        exact (compare_eq_iff.1 hcompare).symm
    · rw [if_neg hk, ← bucket]
      simp [hk]

theorem nonempty_link
    (h : ∀ (k : K) (refs : BTreeSet R), index[k]? = some refs → refs.isEmpty = false)
    {k : Option K} {r : R} (k' : K) (refs : BTreeSet R)
    (hrefs : (link index k r)[k']? = some refs) : refs.isEmpty = false := by
  cases k with
  | none => exact h k' refs hrefs
  | some k =>
    simp only [link] at hrefs
    rw [getElem?_alter_eq] at hrefs
    split_ifs at hrefs with hk
    · cases hrefs
      have hmem : r ∈ (index[k']?.getD ∅).insert r := mem_insert_iff.2 (Or.inl rfl)
      by_contra hempty
      rw [Bool.not_eq_false] at hempty
      rw [ExtTreeSet.isEmpty_iff.1 hempty] at hmem
      exact ExtTreeSet.not_mem_empty hmem
    · exact h k' refs hrefs

omit [LawfulEqOrd R] in
theorem nonempty_unlink
    (h : ∀ (k : K) (refs : BTreeSet R), index[k]? = some refs → refs.isEmpty = false)
    {k : Option K} {r : R} (k' : K) (refs : BTreeSet R)
    (hrefs : (unlink index k r)[k']? = some refs) : refs.isEmpty = false := by
  cases k with
  | none => exact h k' refs hrefs
  | some k =>
    simp only [unlink] at hrefs
    rw [getElem?_alter_eq] at hrefs
    split_ifs at hrefs with hk
    · simpa using (Option.filter_eq_some_iff.1 hrefs).2
    · exact h k' refs hrefs

/-- An object taken out of the map, and out of the bucket it was stored under. -/
theorem Indexes.erase [DecidableEq R] (h : Indexes key objects index) (r : R) :
    Indexes key (objects.erase r) (unlink index (objects[r]?.bind key) r) where
  mem_iff k r' := by
    rw [mem_bucket_unlink, h.mem_iff, getElem?_erase_eq]
    by_cases hr : r = r'
    · subst hr
      rw [if_pos rfl]
      constructor
      · rintro ⟨⟨v, hv, hkey⟩, hn⟩
        exact absurd ⟨by rw [hv]; exact hkey, rfl⟩ hn
      · rintro ⟨v, hv, -⟩
        cases hv
    · rw [if_neg hr]
      constructor
      · rintro ⟨hv, -⟩
        exact hv
      · intro hv
        exact ⟨hv, fun hn => hr hn.2.symm⟩
  nonempty := nonempty_unlink h.nonempty

/-- A new object put into the map, and into the bucket of its key. -/
theorem Indexes.insert [DecidableEq R] (h : Indexes key objects index) {r : R}
    (hnew : objects[r]? = none) (v : V) :
    Indexes key (objects.insert r v) (link index (key v) r) where
  mem_iff k r' := by
    rw [mem_bucket_link, h.mem_iff, getElem?_insert_eq]
    by_cases hr : r = r'
    · subst hr
      rw [if_pos rfl]
      constructor
      · rintro (⟨w, hw, -⟩ | ⟨hkey, -⟩)
        · rw [hnew] at hw
          cases hw
        · exact ⟨v, rfl, hkey⟩
      · rintro ⟨w, hw, hkey⟩
        cases hw
        exact Or.inr ⟨hkey, rfl⟩
    · rw [if_neg hr]
      constructor
      · rintro (hw | ⟨-, heq⟩)
        · exact hw
        · exact absurd heq.symm hr
      · exact Or.inl
  nonempty := nonempty_link h.nonempty

omit [LawfulEqOrd K] in
/-- A lookup finds what a scan of the objects selects: each object once. -/
theorem Indexes.lookup_perm (h : Indexes key objects index) (k : K) :
    (lookup objects index k).Perm
      ((objects.toList.map Prod.snd).filter fun v => decide (key v = some k)) := by
  -- compare the references with their objects, which are distinct
  have hpairs : ((bucket index k).toList.filterMap fun r => objects[r]?.map fun v => (r, v)).Perm
      (objects.toList.filter fun e => decide (key e.2 = some k)) := by
    refine (List.perm_ext_iff_of_nodup ?_ ?_).2 ?_
    · refine List.Nodup.filterMap ?_ ?_
      · intro r r' e he he'
        obtain ⟨v, -, rfl⟩ := Option.map_eq_some_iff.1 (Option.mem_def.1 he)
        obtain ⟨v', -, heq⟩ := Option.map_eq_some_iff.1 (Option.mem_def.1 he')
        exact (congrArg Prod.fst heq).symm
      · exact nodup_of_sorted ExtTreeSet.ordered_toList
    · exact (List.Nodup.of_map _ (nodup_fst_toList objects)).filter _
    · rintro ⟨r, v⟩
      rw [List.mem_filterMap, List.mem_filter, mem_toList_iff, decide_eq_true_eq]
      constructor
      · rintro ⟨r', hr', hv⟩
        obtain ⟨v', hv', heq⟩ := Option.map_eq_some_iff.1 hv
        obtain ⟨rfl, rfl⟩ := Prod.mk.inj heq
        obtain ⟨w, hw, hkey⟩ := (h.mem_iff k r').1 (ExtTreeSet.mem_toList.1 hr')
        rw [hv'] at hw
        cases hw
        exact ⟨hv', hkey⟩
      · rintro ⟨hv, hkey⟩
        exact ⟨r, ExtTreeSet.mem_toList.2 ((h.mem_iff k r).2 ⟨v, hv, hkey⟩), by rw [hv]; rfl⟩
  have hsnd := hpairs.map Prod.snd
  rw [List.map_filterMap] at hsnd
  rw [List.filter_map]
  refine (List.Perm.of_eq ?_).trans hsnd
  unfold lookup
  congr 1
  funext r
  cases objects[r]? <;> rfl

end SecondaryIndex

end PgRoles.Lib
