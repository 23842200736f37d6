import PgRoles.Lib.MapDelta

/-!
# Maps in the order of insertion

A map that keeps its entries in the order in which their keys were first set, as a program's
dictionary does. Every operation is the one of the ordered map with the same entries
(`toOrdered_set`, `toOrdered_delete`, `get_eq`, `has_eq`), and its entries sorted by their keys are
those of that map (`mergeSort_entries`).
-/

set_option autoImplicit false

namespace PgRoles.Lib

open Std

/-- With distinct keys a search finds exactly the entries. -/
theorem lookup_eq_some_iff_of_nodup {K V : Type} [DecidableEq K] {l : List (K × V)}
    (hnodup : (l.map Prod.fst).Nodup) {k : K} {v : V} : l.lookup k = some v ↔ (k, v) ∈ l := by
  induction l with
  | nil => simp
  | cons e l ih =>
      obtain ⟨l', w⟩ := e
      rw [List.map_cons, List.nodup_cons] at hnodup
      rw [List.lookup_cons, List.mem_cons, Prod.mk.injEq, ← ih hnodup.2]
      by_cases hk : k = l'
      · subst hk
        have hnone : l.lookup k = none := by
          refine List.lookup_eq_none_iff.2 fun e he => bne_iff_ne.2 fun heq => hnodup.1 ?_
          exact List.mem_map.2 ⟨e, he, heq.symm⟩
        simp [hnone, eq_comm]
      · simp [hk, beq_false_of_ne hk]

/-- Entries in the order in which their keys were first set. -/
structure InsertionMap (K V : Type) where
  entries : List (K × V)
  distinct : (entries.map Prod.fst).Nodup

namespace InsertionMap

section Operations

variable {K V : Type} [DecidableEq K]

/-- The map without entries. -/
def empty : InsertionMap K V := ⟨[], List.nodup_nil⟩

/-- The value of a key. -/
def get (m : InsertionMap K V) (k : K) : Option V := m.entries.lookup k

/-- Is there an entry of the key? -/
def has (m : InsertionMap K V) (k : K) : Bool := m.entries.any fun e => e.1 = k

/-- The map without a key; the other entries keep their places. -/
def delete (m : InsertionMap K V) (k : K) : InsertionMap K V where
  entries := m.entries.filter fun e => e.1 ≠ k
  distinct := (List.filter_sublist.map Prod.fst).nodup m.distinct

theorem has_eq_false_iff {m : InsertionMap K V} {k : K} :
    m.has k = false ↔ k ∉ m.entries.map Prod.fst := by
  unfold has
  rw [List.any_eq_false, List.mem_map]
  constructor
  · rintro h ⟨e, he, rfl⟩
    exact h e he (decide_eq_true rfl)
  · intro h e he hk
    exact h ⟨e, he, of_decide_eq_true hk⟩

/-- A key that is there keeps its place. -/
def setEntries (m : InsertionMap K V) (k : K) (v : V) : List (K × V) :=
  if m.has k then m.entries.map fun e => if e.1 = k then (e.1, v) else e else m.entries ++ [(k, v)]

theorem keys_setEntries_of_has {m : InsertionMap K V} {k : K} (h : m.has k = true) (v : V) :
    (m.setEntries k v).map Prod.fst = m.entries.map Prod.fst := by
  rw [setEntries, if_pos h, List.map_map]
  refine List.map_congr_left fun e _ => ?_
  rw [Function.comp_apply]
  split_ifs <;> rfl

/-- The map with a value at a key: in the key's place, or at the end. -/
def set (m : InsertionMap K V) (k : K) (v : V) : InsertionMap K V where
  entries := m.setEntries k v
  distinct := by
    by_cases h : m.has k = true
    · rw [keys_setEntries_of_has h]
      exact m.distinct
    · have hnew := has_eq_false_iff.1 (Bool.eq_false_iff.2 h)
      rw [setEntries, if_neg h, List.map_append, List.nodup_append]
      refine ⟨m.distinct, List.nodup_singleton k, fun a ha b hb heq => ?_⟩
      rw [List.map_singleton, List.mem_singleton] at hb
      rw [heq, hb] at ha
      exact hnew ha

@[simp] theorem entries_set (m : InsertionMap K V) (k : K) (v : V) :
    (m.set k v).entries = m.setEntries k v := rfl

end Operations

/-! ## The ordered map of the same entries -/

section Ordered

variable {K V : Type} [Ord K] [TransOrd K] [LawfulEqOrd K] [DecidableEq K]

omit [LawfulEqOrd K] [DecidableEq K] in
/-- The same entries as an ordered map. -/
def toOrdered (m : InsertionMap K V) : BTreeMap K V := ExtTreeMap.ofList m.entries compare

omit [DecidableEq K] in
theorem getElem?_toOrdered {m : InsertionMap K V} {k : K} {v : V} :
    m.toOrdered[k]? = some v ↔ (k, v) ∈ m.entries :=
  getElem?_ofList_iff m.distinct

omit [TransOrd K] [LawfulEqOrd K] [DecidableEq K] in
@[simp] theorem toOrdered_empty : (empty : InsertionMap K V).toOrdered = ∅ :=
  ExtTreeMap.ofList_nil

theorem get_eq (m : InsertionMap K V) (k : K) : m.get k = m.toOrdered[k]? := by
  refine Option.ext fun v => ?_
  rw [getElem?_toOrdered, get, lookup_eq_some_iff_of_nodup m.distinct]

theorem has_eq (m : InsertionMap K V) (k : K) : m.has k = decide (k ∈ m.toOrdered) := by
  rw [Bool.eq_iff_iff, decide_eq_true_eq, toOrdered, mem_ofList_iff, ← not_iff_not,
    Bool.not_eq_true, has_eq_false_iff]

/-- Deletion is erasure in the ordered map. -/
theorem toOrdered_delete (m : InsertionMap K V) (k : K) :
    (m.delete k).toOrdered = m.toOrdered.erase k := by
  refine eq_of_entries_iff fun l v => ?_
  rw [getElem?_toOrdered, getElem?_erase_eq, delete, List.mem_filter, decide_eq_true_eq]
  by_cases heq : k = l
  · simp [heq]
  · simp [heq, Ne.symm heq, getElem?_toOrdered]

/-- Setting is insertion in the ordered map. -/
theorem toOrdered_set (m : InsertionMap K V) (k : K) (v : V) :
    (m.set k v).toOrdered = m.toOrdered.insert k v := by
  refine eq_of_entries_iff fun l w => ?_
  rw [getElem?_toOrdered, getElem?_insert_eq, entries_set]
  by_cases h : m.has k = true
  · rw [setEntries, if_pos h, List.mem_map]
    constructor
    · rintro ⟨e, he, hnew⟩
      by_cases hk : e.1 = k
      · rw [if_pos hk] at hnew
        cases hnew
        rw [if_pos hk.symm]
      · rw [if_neg hk] at hnew
        cases hnew
        rw [if_neg (Ne.symm hk), getElem?_toOrdered]
        exact he
    · intro hget
      by_cases hk : k = l
      · rw [if_pos hk] at hget
        cases hget
        subst hk
        rw [has_eq, decide_eq_true_eq, mem_iff_exists_getElem?] at h
        obtain ⟨old, hold⟩ := h
        exact ⟨(k, old), getElem?_toOrdered.1 hold, if_pos rfl⟩
      · rw [if_neg hk, getElem?_toOrdered] at hget
        exact ⟨(l, w), hget, if_neg (Ne.symm hk)⟩
  · have hnew := has_eq_false_iff.1 (Bool.eq_false_iff.2 h)
    rw [setEntries, if_neg h, List.mem_append, List.mem_singleton]
    by_cases hk : k = l
    · subst hk
      rw [if_pos rfl]
      constructor
      · rintro (hmem | heq)
        · exact absurd (List.mem_map_of_mem hmem) hnew
        · rw [(Prod.mk.inj heq).2]
      · intro heq
        rw [Option.some.inj heq]
        exact .inr rfl
    · rw [if_neg hk, getElem?_toOrdered]
      constructor
      · rintro (hmem | heq)
        · exact hmem
        · exact absurd (Prod.mk.inj heq).1.symm hk
      · exact .inl

/-- So are deletions in a row. -/
theorem toOrdered_foldl_delete (keys : List K) (m : InsertionMap K V) :
    (keys.foldl delete m).toOrdered = keys.foldl (fun state k => state.erase k) m.toOrdered := by
  induction keys generalizing m with
  | nil => rfl
  | cons k keys ih => rw [List.foldl_cons, List.foldl_cons, ih, toOrdered_delete]

/-- So are settings in a row. -/
theorem toOrdered_foldl_set (entries : List (K × V)) (m : InsertionMap K V) :
    (entries.foldl (fun state e => state.set e.1 e.2) m).toOrdered =
      entries.foldl (fun state e => state.insert e.1 e.2) m.toOrdered := by
  induction entries generalizing m with
  | nil => rfl
  | cons e entries ih => rw [List.foldl_cons, List.foldl_cons, ih, toOrdered_set]

omit [DecidableEq K] in
/-- Sorted by their keys, the entries are those of the ordered map. -/
theorem mergeSort_entries (m : InsertionMap K V) {le : K × V → K × V → Bool}
    (hle : ∀ a b, le a b = true ↔ compare a.1 b.1 ≠ .gt) :
    m.entries.mergeSort le = m.toOrdered.toList := by
  have htrans : ∀ a b c : K × V, le a b = true → le b c = true → le a c = true := by
    intro a b c hab hbc
    rw [hle] at *
    rw [Ne, ← Ordering.isLE_iff_ne_gt] at *
    exact TransCmp.isLE_trans hab hbc
  have htotal : ∀ a b : K × V, (le a b || le b a) = true := by
    intro a b
    rw [Bool.or_eq_true, hle, hle, @OrientedCmp.eq_swap _ compare _ b.1 a.1]
    cases compare a.1 b.1 <;> simp
  have hsorted := List.pairwise_mergeSort htrans htotal m.entries
  have hperm := List.mergeSort_perm m.entries le
  have hnodup : ((m.entries.mergeSort le).map Prod.fst).Nodup :=
    (hperm.map Prod.fst).nodup_iff.2 m.distinct
  refine eq_of_sorted_entries ?_ (List.pairwise_map.2 ExtTreeMap.ordered_keys_toList) fun e => ?_
  · rw [List.pairwise_map]
    have hboth := hsorted.and (List.pairwise_map.1 hnodup)
    refine hboth.imp fun {a b} h => ?_
    -- of two different keys in order the first is smaller
    have hgt := (hle a b).1 h.1
    cases hc : compare a.1 b.1 with
    | lt => rfl
    | eq => exact absurd (compare_eq_iff.1 hc) h.2
    | gt => exact absurd hc hgt
  · rw [hperm.mem_iff, mem_toList_iff]
    exact getElem?_toOrdered.symm

end Ordered

end InsertionMap

/-! ## Applying a delta by plain updates -/

section Updates

variable {K V : Type} [Ord K] [TransOrd K] [LawfulEqOrd K] [DecidableEq K] [DecidableEq V]

/-- A fold of checked steps that succeeds is the fold of the updates the steps make. -/
theorem foldlM_ok_eq_foldl {ε A S : Type} {step : S → A → Except ε S} {update : S → A → S}
    (hstep : ∀ s a t, step s a = .ok t → t = update s a) {l : List A} {s t : S}
    (h : l.foldlM step s = .ok t) : t = l.foldl update s := by
  induction l generalizing s with
  | nil =>
      cases h
      rfl
  | cons a l ih =>
      obtain ⟨next, hnext, hrest⟩ := bind_eq_ok.1 (by rwa [List.foldlM_cons] at h)
      rw [List.foldl_cons, ← hstep s a next hnext]
      exact ih hrest

omit [LawfulEqOrd K] in
/-- What an applied delta leaves. -/
theorem eq_of_applyDelta {before after : BTreeMap K V} {delta : MapDelta K V}
    (h : applyDelta before delta = .ok after) :
    after = delta.changed.foldl (fun state e => state.insert e.1 e.2)
      (delta.removed.foldl (fun state k => state.erase k) before) := by
  unfold applyDelta at h
  obtain ⟨-, h⟩ := check_bind_eq_ok.1 h
  obtain ⟨kept, hkept, hafter⟩ := bind_eq_ok.1 h
  have hremove : ∀ (s : BTreeMap K V) k t, removeKey s k = .ok t → t = s.erase k := by
    intro s k t ht
    unfold removeKey at ht
    split_ifs at ht
    cases ht
    rfl
  have hchange : ∀ (s : BTreeMap K V) (e : K × V) t, changeEntry delta.removed s e = .ok t →
      t = s.insert e.1 e.2 := by
    intro s e t ht
    unfold changeEntry at ht
    split_ifs at ht
    cases ht
    rfl
  rw [foldlM_ok_eq_foldl hchange hafter, foldlM_ok_eq_foldl hremove hkept]

/-- A delta can be applied when it is in order, removes what is there and changes what it sets. -/
theorem exists_applyDelta_iff {before : BTreeMap K V} {delta : MapDelta K V} :
    (∃ after, applyDelta before delta = .ok after) ↔
      strictlySorted (delta.changed.map Prod.fst) = true ∧ strictlySorted delta.removed = true ∧
        (∀ k ∈ delta.removed, k ∈ before) ∧
        ∀ e ∈ delta.changed, e.1 ∉ delta.removed ∧ before[e.1]? ≠ some e.2 := by
  simp only [applyDelta_eq_ok, strictlySorted_iff]
  constructor
  · rintro ⟨after, hchanged, hremoved, hall, hall', -⟩
    exact ⟨hchanged, hremoved, hall, hall'⟩
  · rintro ⟨hchanged, hremoved, hall, hall'⟩
    let kept := before.toList.filter fun e => e.1 ∉ delta.changed.map Prod.fst ∧ e.1 ∉ delta.removed
    have hnodup : ((delta.changed ++ kept).map Prod.fst).Nodup := by
      rw [List.map_append, List.nodup_append]
      refine ⟨nodup_of_sorted hchanged, ?_, fun a ha b hb heq => ?_⟩
      · exact (List.filter_sublist.map Prod.fst).nodup
          (nodup_of_sorted (List.pairwise_map.2 ExtTreeMap.ordered_keys_toList))
      · obtain ⟨e, he, rfl⟩ := List.mem_map.1 hb
        exact (of_decide_eq_true (List.mem_filter.1 he).2).1 (heq ▸ ha)
    refine ⟨ExtTreeMap.ofList (delta.changed ++ kept) compare, hchanged, hremoved, hall, hall',
      fun k v => ?_⟩
    rw [getElem?_ofList_iff hnodup, List.mem_append, List.mem_filter, mem_toList_iff,
      decide_eq_true_eq, and_comm (a := before[k]? = some v), and_assoc]

end Updates

end PgRoles.Lib
