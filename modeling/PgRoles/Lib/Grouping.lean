import PgRoles.Lib.BTree

/-!
# Values grouped under keys

A list of keyed values collected into an ordered map of lists. A key has a group exactly when the
list has a value for it, and its group holds its values in their order.
-/

set_option autoImplicit false

namespace PgRoles.Lib

open Std

universe u v

variable {K : Type u} {V : Type v} [Ord K] [TransOrd K]

/-- Append a value to the group of a key, opening the group with its first value. -/
def pushGroup (m : BTreeMap K (List V)) (k : K) (v : V) : BTreeMap K (List V) :=
  m.alter k fun o => some (o.getD [] ++ [v])

/-- Group keyed values by their keys. -/
def groupInto (l : List (K × V)) : BTreeMap K (List V) :=
  l.foldl (fun m e => pushGroup m e.1 e.2) ∅

/-- The values of a key, in their order. -/
def valuesOf [DecidableEq K] (l : List (K × V)) (k : K) : List V :=
  (l.filter fun e => e.1 = k).map (·.2)

omit [Ord K] [TransOrd K] in
theorem mem_valuesOf [DecidableEq K] {l : List (K × V)} {k : K} {v : V} :
    v ∈ valuesOf l k ↔ (k, v) ∈ l := by
  unfold valuesOf
  constructor
  · intro h
    obtain ⟨⟨a, b⟩, hmem, rfl⟩ := List.mem_map.1 h
    obtain ⟨hin, hk⟩ := List.mem_filter.1 hmem
    rw [← of_decide_eq_true hk]
    exact hin
  · intro h
    exact List.mem_map.2 ⟨(k, v), List.mem_filter.2 ⟨h, decide_eq_true rfl⟩, rfl⟩

variable [LawfulEqOrd K] [DecidableEq K]

/-- The group of a key. -/
theorem getElem?_groupInto (l : List (K × V)) (k : K) :
    (groupInto l)[k]? = if valuesOf l k = [] then none else some (valuesOf l k) := by
  induction l using List.reverseRecOn with
  | nil => simp [groupInto, valuesOf]
  | append_singleton l e ih =>
      have hstep : groupInto (l ++ [e]) = pushGroup (groupInto l) e.1 e.2 := by
        simp [groupInto]
      have hvalues : valuesOf (l ++ [e]) k =
          valuesOf l k ++ if e.1 = k then [e.2] else [] := by
        by_cases hk : e.1 = k
        · simp [valuesOf, hk]
        · simp [valuesOf, hk]
      rw [hstep, pushGroup, getElem?_alter_eq, ih, hvalues]
      by_cases hk : e.1 = k
      · have hne : valuesOf l k ++ [e.2] ≠ [] :=
          List.append_ne_nil_of_right_ne_nil _ (List.cons_ne_nil _ _)
        rw [if_pos hk, if_pos hk, if_neg hne]
        by_cases hnil : valuesOf l k = []
        · rw [if_pos hnil, hnil]
          rfl
        · rw [if_neg hnil]
          rfl
      · rw [if_neg hk, if_neg hk, List.append_nil]

theorem groupInto_eq_some {l : List (K × V)} {k : K} {vs : List V}
    (h : (groupInto l)[k]? = some vs) : vs ≠ [] ∧ vs = valuesOf l k := by
  rw [getElem?_groupInto] at h
  split at h
  · cases h
  · next hne =>
      obtain rfl := Option.some.inj h
      exact ⟨hne, rfl⟩

/-- A value is in the group of its key, and every group holds such values only. -/
theorem mem_groupInto {l : List (K × V)} {k : K} {v : V} :
    (∃ vs, (groupInto l)[k]? = some vs ∧ v ∈ vs) ↔ (k, v) ∈ l := by
  rw [getElem?_groupInto, ← mem_valuesOf]
  constructor
  · intro h
    obtain ⟨vs, hvs, hv⟩ := h
    split at hvs
    · cases hvs
    · rwa [Option.some.inj hvs]
  · intro h
    exact ⟨valuesOf l k, if_neg (List.ne_nil_of_mem h), h⟩

/-- There are as many groups as keys. -/
theorem size_groupInto (l : List (K × V)) :
    (groupInto l).size = (l.map Prod.fst).toFinset.card := by
  have hkeys : (groupInto l).keys.toFinset = (l.map Prod.fst).toFinset := by
    ext k
    rw [List.mem_toFinset, List.mem_toFinset, ExtTreeMap.mem_keys, mem_iff_exists_getElem?,
      List.mem_map]
    constructor
    · intro h
      obtain ⟨vs, hvs⟩ := h
      obtain ⟨v, hv⟩ := List.exists_mem_of_ne_nil vs (groupInto_eq_some hvs).1
      exact ⟨(k, v), mem_groupInto.1 ⟨vs, hvs, hv⟩, rfl⟩
    · intro h
      obtain ⟨⟨k, v⟩, hmem, rfl⟩ := h
      obtain ⟨vs, hvs, -⟩ := mem_groupInto.2 hmem
      exact ⟨vs, hvs⟩
  rw [← ExtTreeMap.length_keys, ← hkeys, List.toFinset_card_of_nodup ExtTreeMap.nodup_keys]

omit [Ord K] [TransOrd K] [LawfulEqOrd K] in
theorem length_valuesOf (l : List (K × V)) (k : K) :
    (valuesOf l k).length = l.countP fun e => e.1 = k := by
  rw [valuesOf, List.length_map, List.countP_eq_length_filter]

/-- A bound on every group is a bound on the values of every key. -/
theorem groupInto_length_le {l : List (K × V)} {n : Nat} :
    (∀ (k : K) (vs : List V), (groupInto l)[k]? = some vs → vs.length ≤ n) ↔
      ∀ k, (l.countP fun e => e.1 = k) ≤ n := by
  refine forall_congr' fun k => ?_
  rw [getElem?_groupInto, ← length_valuesOf]
  split
  · next hnil => simp [hnil]
  · simp

end PgRoles.Lib
