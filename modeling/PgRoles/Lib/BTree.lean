import Mathlib

/-!
# Ordered maps and sets as values

Extensional ordered maps and sets over a key type with a lawful total comparison. Iteration is in
key order, equality is equality of lookups, and everything computes.

Three groups of facts are used throughout.

- Orders through a projection (`ordOn`): a type that is compared field by field is ordered through
  an injective projection onto a product.
- Entries that hold a finite set (`entryAt`, `extendEntry`): the accumulation of sets under keys,
  characterised by membership (`mem_entryAt_extendEntries`, `mem_extendEntries`).
- Keyed folds: a fold over the entries of a map whose step at an entry touches only that entry's
  key is, at one key, the fold of that one entry (`foldl_flatMap_toList`); a fold of steps that are
  pointwise is pointwise (`getElem?_foldl_of_pointwise`).

A scan from a start key that stops at the first key outside a block is the filter by that block,
whenever the block starts there and is convex (`scanBlock_eq_filter`).
-/

set_option autoImplicit false

namespace PgRoles.Lib

open Std

universe u v w x

/-- Lexicographic comparison of pairs. -/
instance instOrdProdLex {α : Type u} {β : Type v} [Ord α] [Ord β] : Ord (α × β) := lexOrd

/-- Triples of texts, a common key. -/
instance instTransOrdTextTriple : TransOrd (String × String × String) := instTransOrdProd

/-- Finite map with iteration in key order. -/
abbrev BTreeMap (K : Type u) (V : Type v) [Ord K] : Type (max u v) := ExtTreeMap K V compare

/-- Finite set with iteration in order. -/
abbrev BTreeSet (K : Type u) [Ord K] : Type u := ExtTreeSet K compare

/-! ## Orders through a projection -/

section Projection

variable {α : Type u} {β : Type v} [Ord β]

/-- The comparison of `α` through `f`. -/
@[reducible] def ordOn (f : α → β) : Ord α := ⟨compareOn f⟩

theorem transOrd_ordOn [TransOrd β] (f : α → β) : @TransOrd α (ordOn f) :=
  inferInstanceAs (TransCmp (compareOn f))

theorem lawfulEqOrd_ordOn [LawfulEqOrd β] (f : α → β) (hf : Function.Injective f) :
    @LawfulEqOrd α (ordOn f) :=
  letI := ordOn f
  { toReflCmp := inferInstanceAs (ReflCmp (compareOn f))
    eq_of_compare := fun h => hf (LawfulEqOrd.eq_of_compare h) }

end Projection

/-! ## Lookups and iteration -/

section Maps

variable {K : Type u} {V : Type v} [Ord K] [TransOrd K] [LawfulEqOrd K]

omit [TransOrd K] in
theorem compare_eq_iff {a b : K} : compare a b = .eq ↔ a = b := LawfulEqOrd.compare_eq_iff_eq

theorem mem_toList_iff {m : BTreeMap K V} {k : K} {v : V} :
    (k, v) ∈ m.toList ↔ m[k]? = some v :=
  ExtTreeMap.mem_toList_iff_getElem?_eq_some

/-- What holds of every entry is checked on the list of them. -/
theorem forall_entries {m : BTreeMap K V} {P : K → V → Prop} :
    (∀ k v, m[k]? = some v → P k v) ↔ ∀ e ∈ m.toList, P e.1 e.2 :=
  ⟨fun h e he => h e.1 e.2 (mem_toList_iff.1 he), fun h k v hk => h (k, v) (mem_toList_iff.2 hk)⟩

omit [LawfulEqOrd K] in
theorem nodup_fst_toList (m : BTreeMap K V) : (m.toList.map Prod.fst).Nodup := by
  rw [ExtTreeMap.map_fst_toList_eq_keys]
  exact ExtTreeMap.nodup_keys

/-- The entry of a key splits the entries into those of other keys. -/
theorem exists_split_toList {m : BTreeMap K V} {k : K} {v : V} (h : m[k]? = some v) :
    ∃ l₁ l₂, m.toList = l₁ ++ (k, v) :: l₂ ∧ (∀ a ∈ l₁, a.1 ≠ k) ∧ ∀ a ∈ l₂, a.1 ≠ k := by
  obtain ⟨l₁, l₂, hsplit⟩ := List.append_of_mem (mem_toList_iff.2 h)
  have hnodup := nodup_fst_toList m
  rw [hsplit, List.map_append, List.map_cons] at hnodup
  obtain ⟨-, hcons, hdisjoint⟩ := List.nodup_append.1 hnodup
  refine ⟨l₁, l₂, hsplit, fun a ha => ?_, fun a ha heq => ?_⟩
  · exact hdisjoint a.1 (List.mem_map_of_mem ha) k List.mem_cons_self
  · apply (List.nodup_cons.1 hcons).1
    exact List.mem_map.2 ⟨a, ha, heq⟩

omit [TransOrd K] in
theorem nodup_of_sorted {l : List K} (h : l.Pairwise fun a b => compare a b = .lt) : l.Nodup := by
  refine h.imp fun {a b} hlt heq => ?_
  rw [compare_eq_iff.2 heq] at hlt
  cases hlt

/-- Two sorted lists with the same elements are equal. -/
theorem eq_of_sorted_of_mem_iff {l₁ l₂ : List K}
    (h₁ : l₁.Pairwise fun a b => compare a b = .lt) (h₂ : l₂.Pairwise fun a b => compare a b = .lt)
    (h : ∀ a, a ∈ l₁ ↔ a ∈ l₂) : l₁ = l₂ := by
  have hperm : l₁.Perm l₂ :=
    (List.perm_ext_iff_of_nodup (nodup_of_sorted h₁) (nodup_of_sorted h₂)).2 h
  refine hperm.eq_of_pairwise (fun a b _ _ hab hba => ?_) h₁ h₂
  exact absurd (TransCmp.lt_trans hab hba) (by rw [compare_eq_iff.2 rfl]; exact nofun)

/-- Some value satisfies a test when some key has such a value. -/
theorem any_toList_iff {m : BTreeMap K V} {f : V → Bool} :
    (m.toList.any fun entry => f entry.2) = true ↔ ∃ (k : K) (v : V), m[k]? = some v ∧ f v = true := by
  rw [List.any_eq_true]
  constructor
  · intro h
    obtain ⟨⟨k, v⟩, hmem, hf⟩ := h
    exact ⟨k, v, mem_toList_iff.1 hmem, hf⟩
  · intro h
    obtain ⟨k, v, hk, hf⟩ := h
    exact ⟨(k, v), mem_toList_iff.2 hk, hf⟩

omit [LawfulEqOrd K] in
theorem contains_eq_false_iff {s : BTreeSet K} {k : K} : s.contains k = false ↔ k ∉ s := by
  rw [← Bool.not_eq_true, ExtTreeSet.contains_iff_mem]

omit [LawfulEqOrd K] in
theorem mem_filter_iff [LawfulEqOrd K] {s : BTreeSet K} {f : K → Bool} {k : K} :
    k ∈ s.filter f ↔ k ∈ s ∧ f k = true := by
  rw [← ExtTreeSet.mem_toList, ExtTreeSet.toList_filter, List.mem_filter, ExtTreeSet.mem_toList]

theorem getElem?_filter_eq {m : BTreeMap K V} {f : K → V → Bool} {k : K} :
    (m.filter f)[k]? = m[k]?.filter (f k) := by
  refine Option.ext fun v => ?_
  rw [← mem_toList_iff, ExtTreeMap.toList_filter, List.mem_filter, mem_toList_iff,
    Option.filter_eq_some_iff]

theorem mem_insert_iff {s : BTreeSet K} {a k : K} : k ∈ s.insert a ↔ a = k ∨ k ∈ s := by
  rw [ExtTreeSet.mem_insert, compare_eq_iff]

theorem mem_flatMap_toList {C : Type w} {m : BTreeMap K V} {f : K × V → List C} {c : C} :
    c ∈ m.toList.flatMap f ↔ ∃ k v, m[k]? = some v ∧ c ∈ f (k, v) := by
  rw [List.mem_flatMap]
  constructor
  · rintro ⟨⟨k, v⟩, he, hc⟩
    exact ⟨k, v, mem_toList_iff.1 he, hc⟩
  · rintro ⟨k, v, hk, hc⟩
    exact ⟨(k, v), mem_toList_iff.2 hk, hc⟩

omit [LawfulEqOrd K] in
theorem mem_iff_exists_getElem? {m : BTreeMap K V} {k : K} : k ∈ m ↔ ∃ v, m[k]? = some v := by
  rw [ExtTreeMap.mem_iff_isSome_getElem?, Option.isSome_iff_exists]

omit [LawfulEqOrd K] in
theorem not_mem_iff_getElem? {m : BTreeMap K V} {k : K} : k ∉ m ↔ m[k]? = none := by
  rw [ExtTreeMap.mem_iff_isSome_getElem?, Option.not_isSome_iff_eq_none]

/-- A value after many insertions was inserted, or was there before. -/
theorem getElem?_insertMany_eq_some {l : List (K × V)} {m : BTreeMap K V} {k : K} {v : V}
    (h : (m.insertMany l)[k]? = some v) : (k, v) ∈ l ∨ m[k]? = some v := by
  induction l generalizing m with
  | nil =>
      rw [ExtTreeMap.insertMany_nil] at h
      exact Or.inr h
  | cons e l ih =>
      rw [ExtTreeMap.insertMany_cons] at h
      rcases ih h with h | h
      · exact Or.inl (List.mem_cons_of_mem _ h)
      · rw [ExtTreeMap.getElem?_insert] at h
        split at h
        · next heq =>
            refine Or.inl (List.mem_cons.2 (Or.inl ?_))
            rw [← compare_eq_iff.1 heq, ← Option.some.inj h]
        · exact Or.inr h

/-- A map built from a list holds only pairs of the list. -/
theorem mem_of_getElem?_ofList {l : List (K × V)} {k : K} {v : V}
    (h : (ExtTreeMap.ofList l compare)[k]? = some v) : (k, v) ∈ l := by
  rw [ExtTreeMap.ofList_eq_insertMany_empty] at h
  rcases getElem?_insertMany_eq_some h with h | h
  · exact h
  · simp at h

omit [LawfulEqOrd K] in
/-- A key is there after many insertions when it was, or when it is inserted. -/
theorem mem_insertMany {l : List (K × V)} {m : BTreeMap K V} {k : K}
    (h : k ∈ m ∨ ∃ v, (k, v) ∈ l) : k ∈ m.insertMany l := by
  induction l generalizing m with
  | nil =>
      rw [ExtTreeMap.insertMany_nil]
      exact h.resolve_right fun ⟨_, hv⟩ => List.not_mem_nil hv
  | cons e l ih =>
      rw [ExtTreeMap.insertMany_cons]
      refine ih ?_
      rcases h with h | ⟨v, hv⟩
      · exact Or.inl (ExtTreeMap.mem_insert.2 (Or.inr h))
      · rcases List.mem_cons.1 hv with rfl | hv
        · exact Or.inl ExtTreeMap.mem_insert_self
        · exact Or.inr ⟨v, hv⟩

omit [LawfulEqOrd K] in
/-- A map built from a list has every key of the list. -/
theorem exists_getElem?_ofList {l : List (K × V)} {k : K} {v : V} (h : (k, v) ∈ l) :
    ∃ v', (ExtTreeMap.ofList l compare)[k]? = some v' := by
  rw [ExtTreeMap.ofList_eq_insertMany_empty]
  exact mem_iff_exists_getElem?.1 (mem_insertMany (Or.inr ⟨v, h⟩))

theorem getElem?_insert_eq [DecidableEq K] (m : BTreeMap K V) (k a : K) (v : V) :
    (m.insert k v)[a]? = if k = a then some v else m[a]? := by
  rw [ExtTreeMap.getElem?_insert]
  simp only [compare_eq_iff]

/-- A map built from a list holds the last pair of each key. -/
theorem getElem?_ofList_eq [DecidableEq K] (l : List (K × V)) (k : K) :
    (ExtTreeMap.ofList l compare)[k]? = (l.filter fun e => e.1 = k).getLast?.map (·.2) := by
  induction l using List.reverseRecOn with
  | nil => simp
  | append_singleton l e ih =>
      rw [ExtTreeMap.ofList_eq_insertMany_empty] at ih ⊢
      rw [ExtTreeMap.insertMany_append, ExtTreeMap.insertMany_list_singleton, getElem?_insert_eq,
        ih, List.filter_append, List.filter_singleton]
      by_cases hk : e.1 = k
      · simp [hk]
      · simp [hk]

/-- A map tabulated over a list of keys. -/
theorem getElem?_ofList_map [DecidableEq K] (l : List K) (f : K → V) (k : K) :
    (ExtTreeMap.ofList (l.map fun a => (a, f a)) compare)[k]? = if k ∈ l then some (f k) else none := by
  rw [getElem?_ofList_eq, List.filter_map, List.getLast?_map]
  have hfilter : l.filter ((fun e : K × V => decide (e.1 = k)) ∘ fun a => (a, f a)) =
      List.replicate (l.count k) k := by
    rw [← List.filter_eq]
    rfl
  rw [hfilter]
  by_cases hk : k ∈ l
  · have hpos := List.count_pos_iff.2 hk
    rw [if_pos hk, List.getLast?_replicate, if_neg (by omega)]
    rfl
  · rw [if_neg hk, List.count_eq_zero_of_not_mem hk]
    rfl

theorem getElem?_erase_eq [DecidableEq K] (m : BTreeMap K V) (k a : K) :
    (m.erase k)[a]? = if k = a then none else m[a]? := by
  rw [ExtTreeMap.getElem?_erase]
  simp only [compare_eq_iff]

theorem getElem?_alter_eq [DecidableEq K] (m : BTreeMap K V) (k a : K)
    (f : Option V → Option V) :
    (m.alter k f)[a]? = if k = a then f m[a]? else m[a]? := by
  rw [ExtTreeMap.getElem?_alter]
  simp only [compare_eq_iff]
  split
  · next h => rw [h]
  · rfl

end Maps

/-! ## Entries that hold a finite set -/

section Entries

variable {K : Type u} {P : Type v} [Ord K] [TransOrd K] [LawfulEqOrd K] [DecidableEq K]
  [DecidableEq P]

/-- The set held under a key, empty for an absent key. -/
def entryAt (m : BTreeMap K (Finset P)) (k : K) : Finset P := m[k]?.getD ∅

/-- Add a set to the entry of a key, creating the entry when absent. -/
def extendEntry (m : BTreeMap K (Finset P)) (k : K) (s : Finset P) : BTreeMap K (Finset P) :=
  m.alter k fun o => some (o.getD ∅ ∪ s)

/-- Take a set out of the entry of a key, dropping an emptied entry. -/
def shrinkEntry (m : BTreeMap K (Finset P)) (k : K) (s : Finset P) : BTreeMap K (Finset P) :=
  m.alter k fun o => o.bind fun held => if held \ s = ∅ then none else some (held \ s)

/-- Add a list of keyed sets in order. -/
def extendEntries (m : BTreeMap K (Finset P)) (l : List (K × Finset P)) :
    BTreeMap K (Finset P) :=
  l.foldl (fun m e => extendEntry m e.1 e.2) m

omit [LawfulEqOrd K] [DecidableEq K] [DecidableEq P] in
theorem entryAt_of_getElem? {m : BTreeMap K (Finset P)} {k : K} {s : Finset P}
    (h : m[k]? = some s) : entryAt m k = s := by
  rw [entryAt, h]
  rfl

omit [LawfulEqOrd K] [DecidableEq K] [DecidableEq P] in
theorem entryAt_of_getElem?_none {m : BTreeMap K (Finset P)} {k : K} (h : m[k]? = none) :
    entryAt m k = ∅ := by
  rw [entryAt, h]
  rfl

omit [LawfulEqOrd K] [DecidableEq K] [DecidableEq P] in
theorem getElem?_of_mem_entryAt {m : BTreeMap K (Finset P)} {k : K} {p : P}
    (h : p ∈ entryAt m k) : m[k]? = some (entryAt m k) := by
  unfold entryAt at h ⊢
  cases hm : m[k]? with
  | none => simp [hm] at h
  | some s => rfl

theorem getElem?_extendEntry (m : BTreeMap K (Finset P)) (k a : K) (s : Finset P) :
    (extendEntry m k s)[a]? = if k = a then some (entryAt m a ∪ s) else m[a]? := by
  rw [extendEntry, getElem?_alter_eq]
  rfl

theorem getElem?_shrinkEntry (m : BTreeMap K (Finset P)) (k a : K) (s : Finset P) :
    (shrinkEntry m k s)[a]? =
      if k = a then m[a]?.bind fun held => if held \ s = ∅ then none else some (held \ s)
      else m[a]? := by
  rw [shrinkEntry, getElem?_alter_eq]

/-- Shrinking takes the elements of one entry. -/
theorem mem_entryAt_shrinkEntry {m : BTreeMap K (Finset P)} {k a : K} {s : Finset P} {p : P} :
    p ∈ entryAt (shrinkEntry m k s) a ↔ p ∈ entryAt m a ∧ ¬ (k = a ∧ p ∈ s) := by
  rw [entryAt, getElem?_shrinkEntry]
  by_cases h : k = a
  · subst h
    cases hm : m[k]? with
    | none => simp [entryAt, hm]
    | some held =>
        rw [if_pos rfl, Option.bind_some, entryAt_of_getElem? hm]
        split
        · next hempty =>
            have hsub := Finset.sdiff_eq_empty_iff_subset.1 hempty
            simp only [Option.getD_none, Finset.notMem_empty, true_and, false_iff, not_and, not_not]
            exact fun hp => hsub hp
        · simp
  · simp [h, entryAt]

theorem mem_entryAt_extendEntry {m : BTreeMap K (Finset P)} {k a : K} {s : Finset P} {p : P} :
    p ∈ entryAt (extendEntry m k s) a ↔ p ∈ entryAt m a ∨ (k = a ∧ p ∈ s) := by
  rw [entryAt, getElem?_extendEntry]
  by_cases h : k = a
  · simp [h]
  · simp [h, entryAt]

/-- Extending by a list adds the elements that the list has for the key. -/
theorem mem_entryAt_extendEntries {m : BTreeMap K (Finset P)} {l : List (K × Finset P)} {k : K}
    {p : P} :
    p ∈ entryAt (extendEntries m l) k ↔ p ∈ entryAt m k ∨ ∃ s, (k, s) ∈ l ∧ p ∈ s := by
  induction l generalizing m with
  | nil => simp [extendEntries]
  | cons e l ih =>
      rcases e with ⟨a, s⟩
      have hstep : extendEntries m ((a, s) :: l) = extendEntries (extendEntry m a s) l := rfl
      rw [hstep, ih, mem_entryAt_extendEntry]
      constructor
      · rintro ((h | ⟨rfl, hp⟩) | ⟨t, ht, hp⟩)
        · exact Or.inl h
        · exact Or.inr ⟨s, List.mem_cons_self, hp⟩
        · exact Or.inr ⟨t, List.mem_cons_of_mem _ ht, hp⟩
      · rintro (h | ⟨t, ht, hp⟩)
        · exact Or.inl (Or.inl h)
        · rcases List.mem_cons.1 ht with heq | ht
          · obtain ⟨rfl, rfl⟩ := Prod.mk.inj heq
            exact Or.inl (Or.inr ⟨rfl, hp⟩)
          · exact Or.inr ⟨t, ht, hp⟩

/-- Collected pairs are the elements of their keys. -/
theorem mem_entryAt_extendEach {l : List (K × P)} {k : K} {p : P} :
    p ∈ entryAt (extendEntries ∅ (l.map fun e => (e.1, {e.2}))) k ↔ (k, p) ∈ l := by
  rw [mem_entryAt_extendEntries]
  constructor
  · rintro (hempty | ⟨s, hentry, hmem⟩)
    · simp [entryAt] at hempty
    · obtain ⟨e, he, heq⟩ := List.mem_map.1 hentry
      obtain ⟨rfl, rfl⟩ := Prod.mk.inj heq
      rwa [Finset.mem_singleton.1 hmem]
  · exact fun h => Or.inr ⟨{p}, List.mem_map.2 ⟨(k, p), h, rfl⟩, Finset.mem_singleton_self p⟩

omit [LawfulEqOrd K] [DecidableEq K] [DecidableEq P] in
/-- An entry is the empty set when it is there and has no element. -/
theorem getElem?_eq_some_empty_iff {m : BTreeMap K (Finset P)} {k : K} :
    m[k]? = some ∅ ↔ m[k]?.isSome ∧ ∀ p, p ∉ entryAt m k := by
  rw [entryAt]
  cases m[k]? with
  | none => simp
  | some s => simp [Finset.eq_empty_iff_forall_notMem]

/-- No entry of the map is the empty set. -/
def NoEmptyEntries (m : BTreeMap K (Finset P)) : Prop := ∀ k : K, m[k]? ≠ some ∅

omit [LawfulEqOrd K] [DecidableEq K] [DecidableEq P] in
theorem getElem?_eq_none_of_entryAt {m : BTreeMap K (Finset P)} {k : K}
    (h : m[k]? ≠ some ∅) (hempty : entryAt m k = ∅) : m[k]? = none := by
  cases hm : m[k]? with
  | none => rfl
  | some s =>
      rw [entryAt_of_getElem? hm] at hempty
      rw [hm, hempty] at h
      exact absurd rfl h

omit [LawfulEqOrd K] [DecidableEq K] [DecidableEq P] in
/-- In maps without empty entries a key has the same entry when it holds the same. -/
theorem NoEmptyEntries.getElem?_congr {m m' : BTreeMap K (Finset P)} {k : K}
    (h : NoEmptyEntries m) (h' : NoEmptyEntries m') (heq : entryAt m k = entryAt m' k) :
    m[k]? = m'[k]? := by
  cases hm : m[k]? with
  | none =>
      have hempty : entryAt m' k = ∅ := by rw [← heq, entryAt_of_getElem?_none hm]
      exact (getElem?_eq_none_of_entryAt (h' k) hempty).symm
  | some s =>
      cases hm' : m'[k]? with
      | none =>
          have hempty : entryAt m k = ∅ := by rw [heq, entryAt_of_getElem?_none hm']
          rw [getElem?_eq_none_of_entryAt (h k) hempty] at hm
          cases hm
      | some s' =>
          rw [entryAt_of_getElem? hm, entryAt_of_getElem? hm'] at heq
          rw [heq]

omit [DecidableEq K] [DecidableEq P] in
/-- Maps without empty entries are equal when they hold the same under every key. -/
theorem NoEmptyEntries.ext {m m' : BTreeMap K (Finset P)} (h : NoEmptyEntries m)
    (h' : NoEmptyEntries m') (heq : ∀ k, entryAt m k = entryAt m' k) : m = m' :=
  ExtTreeMap.ext_getElem? fun k => h.getElem?_congr h' (heq k)

/-- Extending by elements leaves no entry empty. -/
theorem NoEmptyEntries.extendEntry {m : BTreeMap K (Finset P)} {k : K} {s : Finset P}
    (h : NoEmptyEntries m) (hs : s ≠ ∅) : NoEmptyEntries (extendEntry m k s) := by
  intro a
  rw [getElem?_extendEntry]
  split
  · intro heq
    obtain ⟨p, hp⟩ := Finset.nonempty_iff_ne_empty.2 hs
    have hmem := Finset.mem_union_right (entryAt m a) hp
    rw [Option.some.inj heq] at hmem
    exact Finset.notMem_empty p hmem
  · exact h a

theorem NoEmptyEntries.extendEntries {m : BTreeMap K (Finset P)} {l : List (K × Finset P)}
    (h : NoEmptyEntries m) (hl : ∀ e ∈ l, e.2 ≠ ∅) : NoEmptyEntries (extendEntries m l) := by
  induction l generalizing m with
  | nil => exact h
  | cons e l ih =>
      exact ih (h.extendEntry (hl e List.mem_cons_self)) fun other hother =>
        hl other (List.mem_cons_of_mem _ hother)

theorem shrinkEntry_ne_empty (m : BTreeMap K (Finset P)) (k : K) (s : Finset P) :
    (shrinkEntry m k s)[k]? ≠ some ∅ := by
  rw [getElem?_shrinkEntry, if_pos rfl]
  cases m[k]? with
  | none => simp
  | some held =>
      rw [Option.bind_some]
      split
      · simp
      · next hne => simpa using hne

theorem NoEmptyEntries.shrinkEntry {m : BTreeMap K (Finset P)} {k : K} {s : Finset P}
    (h : NoEmptyEntries m) : NoEmptyEntries (shrinkEntry m k s) := by
  intro a
  by_cases hk : k = a
  · rw [← hk]
    exact shrinkEntry_ne_empty m k s
  · rw [getElem?_shrinkEntry, if_neg hk]
    exact h a

theorem entryAt_extendEntry (m : BTreeMap K (Finset P)) (k a : K) (s : Finset P) :
    entryAt (extendEntry m k s) a = if k = a then entryAt m a ∪ s else entryAt m a := by
  rw [entryAt, getElem?_extendEntry]
  split
  · rfl
  · rfl

/-- Sets accumulate under keys in any order. -/
theorem extendEntries_perm {l l' : List (K × Finset P)} (h : l.Perm l')
    (m : BTreeMap K (Finset P)) : extendEntries m l = extendEntries m l' := by
  refine h.foldl_eq' (fun a _ b _ m => ExtTreeMap.ext_getElem? fun k => ?_) m
  rw [getElem?_extendEntry, getElem?_extendEntry, getElem?_extendEntry, getElem?_extendEntry,
    entryAt_extendEntry, entryAt_extendEntry]
  by_cases ha : a.1 = k
  · by_cases hb : b.1 = k
    · simp only [ha, hb, if_true]
      rw [Finset.union_assoc, Finset.union_comm a.2, ← Finset.union_assoc]
    · simp only [ha, hb, if_true, if_false]
  · simp only [ha, if_false]

/-- A key has an entry after an extension when it had one, or when the list has one for it. -/
theorem isSome_extendEntries {m : BTreeMap K (Finset P)} {l : List (K × Finset P)} {k : K} :
    (extendEntries m l)[k]?.isSome ↔ m[k]?.isSome ∨ ∃ s, (k, s) ∈ l := by
  induction l generalizing m with
  | nil => simp [extendEntries]
  | cons e l ih =>
      rcases e with ⟨a, s⟩
      have hstep : extendEntries m ((a, s) :: l) = extendEntries (extendEntry m a s) l := rfl
      rw [hstep, ih, getElem?_extendEntry]
      by_cases h : a = k
      · subst h
        simp
      · have hk : k ≠ a := fun e => h e.symm
        simp [h, hk]

end Entries

/-! ## Scans of a block of keys -/

section Scans

variable {K : Type u} {E : Type v} [Ord K] [TransOrd K]

/-- The elements of an ordered list from `start` on, up to the first one outside the block `p`. -/
def scanBlock (key : E → K) (start : K) (p : K → Bool) (l : List E) : List E :=
  (l.dropWhile fun e => compare (key e) start == .lt).takeWhile fun e => p (key e)

omit [Ord K] [TransOrd K] in
/-- On a list where the block `p` is closed towards the front, the initial segment of the block is
the whole block. -/
theorem takeWhile_eq_filter_of_closed {p : E → Bool} {l : List E}
    (hclosed : l.Pairwise fun a b => p b = true → p a = true) : l.takeWhile p = l.filter p := by
  induction l with
  | nil => rfl
  | cons e l ih =>
      obtain ⟨hhead, htail⟩ := List.pairwise_cons.1 hclosed
      cases hpe : p e with
      | true => rw [List.takeWhile_cons_of_pos hpe, List.filter_cons_of_pos hpe, ih htail]
      | false =>
          rw [List.takeWhile_cons_of_neg (by simp [hpe]), List.filter_cons_of_neg (by simp [hpe])]
          symm
          rw [List.filter_eq_nil_iff]
          intro b hb hpb
          exact absurd (hhead b hb hpb) (by simp [hpe])

/-- Behind what is dropped in a sorted list no key is below the start. -/
theorem not_lt_start_of_mem_dropWhile (key : E → K) (start : K) {l : List E}
    (hsorted : l.Pairwise fun a b => compare (key a) (key b) = .lt) :
    ∀ e ∈ l.dropWhile fun e => compare (key e) start == .lt, compare (key e) start ≠ .lt := by
  induction l with
  | nil => simp
  | cons a l ih =>
      obtain ⟨hlt, hsorted⟩ := List.pairwise_cons.1 hsorted
      by_cases hbelow : compare (key a) start = .lt
      · rw [List.dropWhile_cons_of_pos (by simp [hbelow])]
        exact ih hsorted
      · rw [List.dropWhile_cons_of_neg (by simp [hbelow])]
        intro e he
        rcases List.mem_cons.1 he with rfl | he
        · exact hbelow
        · exact fun h => hbelow (TransCmp.lt_trans (hlt e he) h)

omit [TransOrd K] in
/-- Dropping what is below the start loses nothing of a range that begins there. -/
theorem filter_dropWhile_eq (key : E → K) {start : K} {p : K → Bool} (l : List E)
    (hstart : ∀ k, p k = true → compare k start ≠ .lt) :
    ((l.dropWhile fun e => compare (key e) start == .lt).filter fun e => p (key e)) =
      l.filter fun e => p (key e) := by
  induction l with
  | nil => rfl
  | cons a l ih =>
      by_cases hbelow : compare (key a) start = .lt
      · have hp : ¬ p (key a) = true := fun h => hstart _ h hbelow
        rw [List.dropWhile_cons_of_pos (by simp [hbelow]), ih,
          List.filter_cons_of_neg (by simpa using hp)]
      · rw [List.dropWhile_cons_of_neg (by simp [hbelow])]

/-- One field of a lexicographic comparison, squeezed between two equal values. -/
theorem eq_of_then_ne_lt_of_then_eq_lt {α : Type} [Ord α] [LawfulEqOrd α] {a b : α}
    {x y : Ordering} (hge : (compare a b).then x ≠ .lt) (hlt : (compare a b).then y = .lt) :
    a = b ∧ x ≠ .lt ∧ y = .lt := by
  cases h : compare a b with
  | lt => simp [h] at hge
  | gt => simp [h] at hlt
  | eq => exact ⟨compare_eq_iff.1 h, by simpa [h] using hge, by simpa [h] using hlt⟩

/-- A scan from the least key of a convex block up to its end is the filter by the block. -/
theorem scanBlock_eq_filter (key : E → K) {start : K} {p : K → Bool} {l : List E}
    (hsorted : l.Pairwise fun a b => compare (key a) (key b) = .lt)
    (hstart : ∀ k, p k = true → compare k start ≠ .lt)
    (hconvex : ∀ a b, compare a start ≠ .lt → compare a b = .lt → p b = true → p a = true) :
    scanBlock key start p l = l.filter fun e => p (key e) := by
  have hdrop := hsorted.sublist
    (List.dropWhile_sublist (l := l) fun e => compare (key e) start == .lt)
  have hge := not_lt_start_of_mem_dropWhile key start hsorted
  rw [scanBlock, takeWhile_eq_filter_of_closed, filter_dropWhile_eq key l hstart]
  exact hdrop.imp_of_mem fun ha _ hab hp => hconvex _ _ (hge _ ha) hab hp

end Scans

/-! ## Keyed folds -/

section Folds

variable {K : Type u} {V : Type v} {C : Type w} {S : Type x} [Ord K] [TransOrd K]

/-- A list of steps none of which changes the state is the identity. -/
theorem foldl_eq_self_of_forall {act : S → C → S} {l : List C}
    (h : ∀ c ∈ l, ∀ s, act s c = s) (s : S) : l.foldl act s = s := by
  induction l with
  | nil => rfl
  | cons c l ih =>
      rw [List.foldl_cons, h c List.mem_cons_self s]
      exact ih fun d hd => h d (List.mem_cons_of_mem _ hd)

omit [Ord K] [TransOrd K] in
/-- Of the changes that entries give rise to, one key's state sees only those of its own entry. -/
theorem foldl_flatMap_of_nodup {l : List (K × V)} (k : K) (f : K × V → List C) (act : S → C → S)
    (hnodup : (l.map Prod.fst).Nodup)
    (hlocal : ∀ e ∈ l, e.1 ≠ k → ∀ c ∈ f e, ∀ s, act s c = s) (s : S) :
    (∀ v, (k, v) ∈ l → (l.flatMap f).foldl act s = (f (k, v)).foldl act s) ∧
      ((∀ v, (k, v) ∉ l) → (l.flatMap f).foldl act s = s) := by
  induction l generalizing s with
  | nil => simp
  | cons e l ih =>
      rw [List.map_cons, List.nodup_cons] at hnodup
      have hrest := ih hnodup.2 fun a ha => hlocal a (List.mem_cons_of_mem _ ha)
      rw [List.flatMap_cons, List.foldl_append]
      by_cases hk : e.1 = k
      · have hnone : ∀ v, (k, v) ∉ l := by
          intro v hv
          exact hnodup.1 (List.mem_map.2 ⟨(k, v), hv, hk.symm⟩)
        rw [(hrest _).2 hnone]
        refine ⟨fun v hv => ?_, fun h => absurd List.mem_cons_self (by
          rw [← hk] at h
          exact h e.2)⟩
        rcases List.mem_cons.1 hv with hev | hv
        · rw [hev]
        · exact absurd hv (hnone v)
      · rw [foldl_eq_self_of_forall (hlocal e List.mem_cons_self hk)]
        refine ⟨fun v hv => ?_, fun h => (hrest s).2 fun v hv => h v (List.mem_cons_of_mem _ hv)⟩
        rcases List.mem_cons.1 hv with hev | hv
        · exact absurd (congrArg Prod.fst hev).symm hk
        · exact (hrest s).1 v hv

/-- A fold over a map, where the steps emitted at an entry touch only that entry's key, is at `k`
the fold of the steps emitted at `k`. -/
theorem foldl_flatMap_toList [LawfulEqOrd K] (m : BTreeMap K V) (k : K) {f : K × V → List C}
    {act : S → C → S} (hlocal : ∀ e, m[e.1]? = some e.2 → e.1 ≠ k → ∀ c ∈ f e, ∀ s, act s c = s)
    (s : S) :
    (m.toList.flatMap f).foldl act s =
      match m[k]? with
      | none => s
      | some v => (f (k, v)).foldl act s := by
  have h := foldl_flatMap_of_nodup k f act (nodup_fst_toList m)
    (fun e he => hlocal e (mem_toList_iff.1 he)) s
  cases hk : m[k]? with
  | none => exact h.2 fun v hv => by rw [mem_toList_iff, hk] at hv; cases hv
  | some v => exact h.1 v (mem_toList_iff.2 hk)

/-- A flat map over a map's entries that collects at one key only. -/
theorem flatMap_toList_eq_single [LawfulEqOrd K] (m : BTreeMap K V) (k : K) {f : K × V → List C}
    (hlocal : ∀ e, m[e.1]? = some e.2 → e.1 ≠ k → f e = []) :
    m.toList.flatMap f = m[k]?.elim [] fun v => f (k, v) := by
  have hfold : ∀ l : List C, l.foldl (fun s c => s ++ [c]) [] = l := fun l => by
    rw [List.foldl_append_eq_append, List.nil_append, ← List.flatMap_def, List.flatMap_singleton']
  rw [← hfold (m.toList.flatMap f), foldl_flatMap_toList m k]
  · cases m[k]? with
    | none => rfl
    | some v => exact hfold _
  · intro e he hne c hc
    rw [hlocal e he hne] at hc
    exact absurd hc List.not_mem_nil

omit [Ord K] [TransOrd K] in
/-- A fold over a list without repetition, where the steps emitted at an element touch only that
element, is at `k` the fold of the steps emitted at `k`. -/
theorem foldl_flatMap_eq_single [DecidableEq K] {l : List K} (hnodup : l.Nodup) (k : K)
    {f : K → List C} {act : S → C → S} (hlocal : ∀ a ∈ l, a ≠ k → ∀ c ∈ f a, ∀ s, act s c = s)
    (s : S) : (l.flatMap f).foldl act s = if k ∈ l then (f k).foldl act s else s := by
  induction l generalizing s with
  | nil => rfl
  | cons a l ih =>
      rw [List.nodup_cons] at hnodup
      rw [List.flatMap_cons, List.foldl_append,
        ih hnodup.2 fun b hb => hlocal b (List.mem_cons_of_mem _ hb)]
      by_cases hk : a = k
      · subst hk
        rw [if_neg hnodup.1, if_pos List.mem_cons_self]
      · have hskip : (f a).foldl act s = s :=
          foldl_eq_self_of_forall (hlocal a List.mem_cons_self hk) s
        have hmem : k ∈ a :: l ↔ k ∈ l := by
          rw [List.mem_cons]
          exact or_iff_right fun h => hk h.symm
        rw [hskip]
        simp only [hmem]

omit [Ord K] [TransOrd K] in
/-- What one entry gives rise to may be moved to the front. -/
theorem flatMap_perm_of_nodup [DecidableEq K] {l : List (K × V)} (f : K × V → List C) {k : K}
    {v : V} (hnodup : (l.map Prod.fst).Nodup) (hk : (k, v) ∈ l) :
    (l.flatMap f).Perm (f (k, v) ++ l.flatMap fun e => if e.1 = k then [] else f e) := by
  induction l with
  | nil => simp at hk
  | cons e l ih =>
      rw [List.map_cons, List.nodup_cons] at hnodup
      rw [List.flatMap_cons, List.flatMap_cons]
      rcases List.mem_cons.1 hk with rfl | hk
      · have hothers : l.flatMap (fun e => if e.1 = k then [] else f e) = l.flatMap f := by
          refine List.flatMap_congr fun a ha => if_neg ?_
          rintro rfl
          exact hnodup.1 (List.mem_map.2 ⟨a, ha, rfl⟩)
        rw [hothers, if_pos rfl, List.nil_append]
      · have hne : e.1 ≠ k := by
          rintro rfl
          exact hnodup.1 (List.mem_map.2 ⟨(e.1, v), hk, rfl⟩)
        rw [if_neg hne]
        exact ((ih hnodup.2 hk).append_left (f e)).trans
          (by rw [← List.append_assoc, ← List.append_assoc]
              exact List.perm_append_comm.append_right _)

/-- What a flat map over a map's entries collects at one key, and at the others. -/
theorem flatMap_toList_perm [LawfulEqOrd K] [DecidableEq K] (m : BTreeMap K V)
    (f : K × V → List C) (k : K) :
    (m.toList.flatMap f).Perm
      ((m[k]?.elim [] fun v => f (k, v)) ++
        m.toList.flatMap fun e => if e.1 = k then [] else f e) := by
  cases hk : m[k]? with
  | some v => exact flatMap_perm_of_nodup f (nodup_fst_toList m) (mem_toList_iff.2 hk)
  | none =>
      have hothers : (m.toList.flatMap fun e => if e.1 = k then [] else f e) =
          m.toList.flatMap f := by
        refine List.flatMap_congr fun e he => if_neg ?_
        rintro rfl
        rw [mem_toList_iff.1 he] at hk
        cases hk
      rw [hothers]
      exact List.Perm.refl _

/-- Steps that act at each key on that key's entry alone fold pointwise. -/
theorem getElem?_foldl_of_pointwise {step : BTreeMap K V → C → BTreeMap K V}
    {act : K → Option V → C → Option V} (h : ∀ m c k, (step m c)[k]? = act k m[k]? c)
    (l : List C) (m : BTreeMap K V) (k : K) : (l.foldl step m)[k]? = l.foldl (act k) m[k]? := by
  induction l generalizing m with
  | nil => rfl
  | cons c l ih => rw [List.foldl_cons, List.foldl_cons, ih, h]

end Folds

end PgRoles.Lib
