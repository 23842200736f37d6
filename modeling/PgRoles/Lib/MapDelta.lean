import PgRoles.Lib.Claims

/-!
# Differences of maps

The difference of two finite maps: the keys that are gone, and the entries that are new or have
another value. Applied to the first map it gives the second (`applyDelta_deltaOf`). Applying refuses
what no difference looks like, so what it accepts is the difference of the two maps it stands
between, in the one form a difference has (`deltaOf_of_applyDelta`).
-/

set_option autoImplicit false

namespace PgRoles.Lib

open Std

/-- Entries to set and keys to delete, each in key order. -/
structure MapDelta (K V : Type) where
  changed : List (K × V)
  removed : List K
  deriving DecidableEq

/-- Why a delta is refused. -/
inductive DeltaFault where
  | notSorted
  | removesAbsent
  | changedAndRemoved
  | unchanged
  deriving DecidableEq, Repr

section Delta

variable {K V : Type} [Ord K] [TransOrd K] [DecidableEq K] [DecidableEq V]

/-- The difference from one map to another. -/
def deltaOf (before after : BTreeMap K V) : MapDelta K V where
  changed := after.toList.filter fun e => before[e.1]? ≠ some e.2
  removed := before.keys.filter fun k => k ∉ after

/-- Is each key before the next? -/
def strictlySorted : List K → Bool
  | [] => true
  | [_] => true
  | a :: b :: l => compare a b == .lt && strictlySorted (b :: l)

/-- The map without a key that it has to have. -/
def removeKey (state : BTreeMap K V) (key : K) : Except DeltaFault (BTreeMap K V) :=
  if key ∈ state then .ok (state.erase key) else .error .removesAbsent

/-- The map with an entry that has to change it and may not be removed as well. -/
def changeEntry (removed : List K) (state : BTreeMap K V) (entry : K × V) :
    Except DeltaFault (BTreeMap K V) :=
  if entry.1 ∈ removed then .error .changedAndRemoved
  else if state[entry.1]? = some entry.2 then .error .unchanged
  else .ok (state.insert entry.1 entry.2)

/-- Delete the removed keys, then set the changed entries. -/
def applyDelta (state : BTreeMap K V) (delta : MapDelta K V) : Except DeltaFault (BTreeMap K V) := do
  rejectIf (!strictlySorted (delta.changed.map Prod.fst) || !strictlySorted delta.removed)
    DeltaFault.notSorted
  let kept ← delta.removed.foldlM removeKey state
  delta.changed.foldlM (changeEntry delta.removed) kept

end Delta

/-! ## The loops -/

section Loops

variable {K V : Type} [Ord K] [TransOrd K] [LawfulEqOrd K] [DecidableEq K]

omit [LawfulEqOrd K] [DecidableEq K] in
theorem strictlySorted_iff {l : List K} :
    strictlySorted l = true ↔ l.Pairwise fun a b => compare a b = .lt := by
  induction l with
  | nil => exact iff_of_true rfl .nil
  | cons a l ih =>
      cases l with
      | nil => exact iff_of_true rfl (List.pairwise_singleton _ a)
      | cons b l =>
          rw [strictlySorted, Bool.and_eq_true, beq_iff_eq, ih, List.pairwise_cons (a := a)]
          constructor
          · rintro ⟨hlt, hsorted⟩
            refine ⟨fun c hc => ?_, hsorted⟩
            rcases List.mem_cons.1 hc with rfl | hc
            · exact hlt
            · exact TransCmp.lt_trans hlt (List.rel_of_pairwise_cons hsorted hc)
          · rintro ⟨hlt, hsorted⟩
            exact ⟨hlt b List.mem_cons_self, hsorted⟩

omit [DecidableEq K] in
/-- Maps with the same entries are equal. -/
theorem eq_of_entries_iff {m m' : BTreeMap K V}
    (h : ∀ (k : K) (v : V), m[k]? = some v ↔ m'[k]? = some v) : m = m' :=
  ExtTreeMap.ext_getElem? fun k => Option.ext (h k)

/-- Distinct keys are deleted when all of them are there. -/
theorem foldlM_removeKey_eq_ok {removed : List K} (hnodup : removed.Nodup)
    {state kept : BTreeMap K V} :
    removed.foldlM removeKey state = .ok kept ↔
      (∀ k ∈ removed, k ∈ state) ∧ ∀ k v, kept[k]? = some v ↔ k ∉ removed ∧ state[k]? = some v := by
  induction removed generalizing state with
  | nil =>
      constructor
      · intro h
        cases h
        exact ⟨fun _ h => absurd h List.not_mem_nil, fun k v => by simp⟩
      · rintro ⟨-, h⟩
        have hsame : kept = state := eq_of_entries_iff fun k v => by simpa using h k v
        rw [hsame]
        rfl
  | cons a removed ih =>
      obtain ⟨ha, hnodup⟩ := List.nodup_cons.1 hnodup
      rw [List.foldlM_cons, bind_eq_ok]
      have hlook : ∀ k v, k ∉ removed ∧ (state.erase a)[k]? = some v ↔
          k ∉ a :: removed ∧ state[k]? = some v := by
        intro k v
        rw [List.mem_cons, not_or, getElem?_erase_eq]
        by_cases heq : a = k
        · simp [heq]
        · simp [heq, Ne.symm heq]
      -- the key deleted first is none of the others
      have hmem : (∀ k ∈ removed, k ∈ state.erase a) ↔ ∀ k ∈ removed, k ∈ state := by
        refine forall₂_congr fun k hk => ?_
        have hne : a ≠ k := fun heq => ha (heq ▸ hk)
        rw [mem_iff_exists_getElem?, mem_iff_exists_getElem?, getElem?_erase_eq, if_neg hne]
      constructor
      · rintro ⟨s, hstep, hrest⟩
        unfold removeKey at hstep
        split_ifs at hstep with hin
        cases hstep
        obtain ⟨hall, hkept⟩ := (ih hnodup).1 hrest
        exact ⟨List.forall_mem_cons.2 ⟨hin, hmem.1 hall⟩,
          fun k v => (hkept k v).trans (hlook k v)⟩
      · rintro ⟨hall, hkept⟩
        obtain ⟨hin, hall⟩ := List.forall_mem_cons.1 hall
        refine ⟨state.erase a, if_pos hin, (ih hnodup).2 ⟨hmem.2 hall, fun k v => ?_⟩⟩
        exact (hkept k v).trans (hlook k v).symm

variable [DecidableEq V]

/-- Entries under distinct keys are set when none is removed and each changes something. -/
theorem foldlM_changeEntry_eq_ok {changed : List (K × V)} {removed : List K}
    (hnodup : (changed.map Prod.fst).Nodup) {state after : BTreeMap K V} :
    changed.foldlM (changeEntry removed) state = .ok after ↔
      (∀ e ∈ changed, e.1 ∉ removed ∧ state[e.1]? ≠ some e.2) ∧
        ∀ k v, after[k]? = some v ↔
          (k, v) ∈ changed ∨ k ∉ changed.map Prod.fst ∧ state[k]? = some v := by
  induction changed generalizing state with
  | nil =>
      constructor
      · intro h
        cases h
        exact ⟨fun _ h => absurd h List.not_mem_nil, fun k v => by simp⟩
      · rintro ⟨-, h⟩
        have hsame : after = state := eq_of_entries_iff fun k v => by simpa using h k v
        rw [hsame]
        rfl
  | cons e changed ih =>
      rw [List.map_cons, List.nodup_cons] at hnodup
      obtain ⟨he, hnodup⟩ := hnodup
      rw [List.foldlM_cons, bind_eq_ok]
      have hlook : ∀ k v, ((k, v) ∈ changed ∨
            k ∉ changed.map Prod.fst ∧ (state.insert e.1 e.2)[k]? = some v) ↔
          (k, v) ∈ e :: changed ∨ k ∉ (e :: changed).map Prod.fst ∧ state[k]? = some v := by
        intro k v
        rw [getElem?_insert_eq, List.map_cons, List.mem_cons, List.mem_cons, not_or]
        by_cases heq : e.1 = k
        · subst heq
          have hfirst : (e.1, v) = e ↔ e.2 = v := by
            constructor
            · exact fun h => congrArg Prod.snd h.symm
            · exact fun h => Prod.ext rfl h.symm
          simp [hfirst, he, or_comm]
        · have hother : (k, v) ≠ e := fun h => heq (congrArg Prod.fst h.symm)
          simp [heq, Ne.symm heq, hother]
      have hcond : (∀ f ∈ changed, f.1 ∉ removed ∧ (state.insert e.1 e.2)[f.1]? ≠ some f.2) ↔
          ∀ f ∈ changed, f.1 ∉ removed ∧ state[f.1]? ≠ some f.2 := by
        refine forall₂_congr fun f hf => ?_
        have hne : e.1 ≠ f.1 := fun heq => he (heq ▸ List.mem_map_of_mem hf)
        rw [getElem?_insert_eq, if_neg hne]
      constructor
      · rintro ⟨s, hstep, hrest⟩
        unfold changeEntry at hstep
        split_ifs at hstep with hremoved hsame
        cases hstep
        obtain ⟨hall, hafter⟩ := (ih hnodup).1 hrest
        exact ⟨List.forall_mem_cons.2 ⟨⟨hremoved, hsame⟩, hcond.1 hall⟩,
          fun k v => (hafter k v).trans (hlook k v)⟩
      · rintro ⟨hall, hafter⟩
        obtain ⟨⟨hremoved, hsame⟩, hall⟩ := List.forall_mem_cons.1 hall
        refine ⟨state.insert e.1 e.2, ?_, (ih hnodup).2 ⟨hcond.2 hall, fun k v => ?_⟩⟩
        · rw [changeEntry, if_neg hremoved, if_neg hsame]
        · exact (hafter k v).trans (hlook k v).symm

/-! ## Differences -/

/-- The delta stands between the two maps. -/
structure Between (before after : BTreeMap K V) (delta : MapDelta K V) : Prop where
  changed_sorted : (delta.changed.map Prod.fst).Pairwise fun a b => compare a b = .lt
  removed_sorted : delta.removed.Pairwise fun a b => compare a b = .lt
  removed : ∀ k ∈ delta.removed, k ∈ before
  changed : ∀ e ∈ delta.changed, e.1 ∉ delta.removed ∧ before[e.1]? ≠ some e.2
  entries : ∀ k v, after[k]? = some v ↔ (k, v) ∈ delta.changed ∨
    k ∉ delta.changed.map Prod.fst ∧ k ∉ delta.removed ∧ before[k]? = some v

/-- A delta is applied exactly between the maps it stands between. -/
theorem applyDelta_eq_ok {before after : BTreeMap K V} {delta : MapDelta K V} :
    applyDelta before delta = .ok after ↔ Between before after delta := by
  have hsorted : (!strictlySorted (delta.changed.map Prod.fst) ||
      !strictlySorted delta.removed) = false ↔
      ((delta.changed.map Prod.fst).Pairwise fun a b => compare a b = .lt) ∧
        delta.removed.Pairwise fun a b => compare a b = .lt := by
    rw [Bool.or_eq_false_iff, Bool.not_eq_false', Bool.not_eq_false', strictlySorted_iff,
      strictlySorted_iff]
  unfold applyDelta
  rw [check_bind_eq_ok, rejectIf_eq_ok, hsorted]
  constructor
  · rintro ⟨⟨hchanged, hremoved⟩, h⟩
    obtain ⟨kept, hkept, hafter⟩ := bind_eq_ok.1 h
    obtain ⟨hall, hkept⟩ := (foldlM_removeKey_eq_ok (nodup_of_sorted hremoved)).1 hkept
    obtain ⟨hall', hafter⟩ := (foldlM_changeEntry_eq_ok (nodup_of_sorted hchanged)).1 hafter
    refine ⟨hchanged, hremoved, hall, fun e he => ⟨(hall' e he).1, fun hsame => ?_⟩, fun k v => ?_⟩
    · exact (hall' e he).2 ((hkept e.1 e.2).2 ⟨(hall' e he).1, hsame⟩)
    · rw [hafter, hkept]
  · rintro ⟨hchanged, hremoved, hall, hall', hafter⟩
    have hkept : ∀ k v, (before.filter fun k _ => k ∉ delta.removed)[k]? = some v ↔
        k ∉ delta.removed ∧ before[k]? = some v := by
      intro k v
      rw [getElem?_filter_eq, Option.filter_eq_some_iff, and_comm]
      simp
    refine ⟨⟨hchanged, hremoved⟩, bind_eq_ok.2 ⟨before.filter fun k _ => k ∉ delta.removed,
      (foldlM_removeKey_eq_ok (nodup_of_sorted hremoved)).2 ⟨hall, hkept⟩,
      (foldlM_changeEntry_eq_ok (nodup_of_sorted hchanged)).2 ⟨fun e he => ?_, fun k v => ?_⟩⟩⟩
    · exact ⟨(hall' e he).1, fun hsame => (hall' e he).2 ((hkept e.1 e.2).1 hsame).2⟩
    · rw [hafter, hkept]

omit [DecidableEq K] in
/-- The difference of two maps stands between them. -/
theorem between_deltaOf (before after : BTreeMap K V) :
    Between before after (deltaOf before after) := by
  have hmem : ∀ k v, (k, v) ∈ (deltaOf before after).changed ↔
      after[k]? = some v ∧ before[k]? ≠ some v := by
    intro k v
    rw [deltaOf, List.mem_filter, mem_toList_iff, decide_eq_true_eq]
  have hgone : ∀ k, k ∈ (deltaOf before after).removed ↔ k ∈ before ∧ k ∉ after := by
    intro k
    rw [deltaOf, List.mem_filter, ExtTreeMap.mem_keys, decide_eq_true_eq]
  refine ⟨?_, ?_, fun k hk => ((hgone k).1 hk).1, fun e he => ?_, fun k v => ?_⟩
  · exact List.pairwise_map.2 (ExtTreeMap.ordered_keys_toList.filter _)
  · exact ExtTreeMap.ordered_keys.filter _
  · obtain ⟨hafter, hbefore⟩ := (hmem e.1 e.2).1 he
    exact ⟨fun h => ((hgone e.1).1 h).2 (mem_iff_exists_getElem?.2 ⟨e.2, hafter⟩), hbefore⟩
  · rw [hmem, hgone]
    constructor
    · intro hafter
      by_cases hsame : before[k]? = some v
      · refine .inr ⟨fun hchanged => ?_, fun h => h.2 (mem_iff_exists_getElem?.2 ⟨v, hafter⟩), hsame⟩
        obtain ⟨e, he, rfl⟩ := List.mem_map.1 hchanged
        obtain ⟨hnew, hother⟩ := (hmem e.1 e.2).1 he
        rw [hnew] at hafter
        exact hother (hsame.trans hafter.symm)
      · exact .inl ⟨hafter, hsame⟩
    · rintro (⟨hafter, -⟩ | ⟨hunchanged, hstays, hbefore⟩)
      · exact hafter
      · -- the key stays, and its value in the second map is no change
        have hin : k ∈ after := by
          by_contra hout
          exact hstays ⟨mem_iff_exists_getElem?.2 ⟨v, hbefore⟩, hout⟩
        obtain ⟨w, hw⟩ := mem_iff_exists_getElem?.1 hin
        by_cases hvw : before[k]? = some w
        · rw [hw, ← hvw, hbefore]
        · exact absurd (List.mem_map.2 ⟨(k, w), (hmem k w).2 ⟨hw, hvw⟩, rfl⟩) hunchanged

/-- The difference takes the first map to the second. -/
theorem applyDelta_deltaOf (before after : BTreeMap K V) :
    applyDelta before (deltaOf before after) = .ok after :=
  applyDelta_eq_ok.2 (between_deltaOf before after)

omit [DecidableEq K] [DecidableEq V] in
/-- Lists of entries in the order of their keys are equal when they have the same entries. -/
theorem eq_of_sorted_entries {l l' : List (K × V)}
    (h : (l.map Prod.fst).Pairwise fun a b => compare a b = .lt)
    (h' : (l'.map Prod.fst).Pairwise fun a b => compare a b = .lt) (hmem : ∀ e, e ∈ l ↔ e ∈ l') :
    l = l' := by
  have hperm : l.Perm l' :=
    (List.perm_ext_iff_of_nodup (List.Nodup.of_map _ (nodup_of_sorted h))
      (List.Nodup.of_map _ (nodup_of_sorted h'))).2 hmem
  refine hperm.eq_of_pairwise (fun a b _ _ hab hba => ?_) (List.pairwise_map.1 h)
    (List.pairwise_map.1 h')
  have habsurd := TransCmp.lt_trans hab hba
  rw [compare_eq_iff.2 rfl] at habsurd
  cases habsurd

omit [DecidableEq K] [DecidableEq V] in
/-- A list in the order of its keys is the entries of its map. -/
theorem toList_ofList_of_sorted {l : List (K × V)}
    (h : (l.map Prod.fst).Pairwise fun a b => compare a b = .lt) :
    (ExtTreeMap.ofList l compare).toList = l := by
  refine eq_of_sorted_entries (List.pairwise_map.2 ExtTreeMap.ordered_keys_toList) h fun e => ?_
  exact mem_toList_iff.trans (getElem?_ofList_iff (nodup_of_sorted h))

omit [DecidableEq V] in
/-- Two maps have one delta between them. -/
theorem Between.unique {before after : BTreeMap K V} {delta delta' : MapDelta K V}
    (h : Between before after delta) (h' : Between before after delta') : delta = delta' := by
  have hchanged : ∀ {d : MapDelta K V}, Between before after d → ∀ k v,
      (k, v) ∈ d.changed ↔ after[k]? = some v ∧ before[k]? ≠ some v := by
    intro d hd k v
    constructor
    · exact fun hmem => ⟨(hd.entries k v).2 (.inl hmem), (hd.changed _ hmem).2⟩
    · rintro ⟨hafter, hbefore⟩
      rcases (hd.entries k v).1 hafter with hmem | ⟨-, -, hsame⟩
      · exact hmem
      · exact absurd hsame hbefore
  have hremoved : ∀ {d : MapDelta K V}, Between before after d → ∀ k,
      k ∈ d.removed ↔ k ∈ before ∧ k ∉ after := by
    intro d hd k
    constructor
    · refine fun hmem => ⟨hd.removed k hmem, fun hin => ?_⟩
      obtain ⟨v, hv⟩ := mem_iff_exists_getElem?.1 hin
      rcases (hd.entries k v).1 hv with hchange | ⟨-, hstays, -⟩
      · exact (hd.changed _ hchange).1 hmem
      · exact hstays hmem
    · rintro ⟨hbefore, hgone⟩
      obtain ⟨v, hv⟩ := mem_iff_exists_getElem?.1 hbefore
      by_contra hstays
      refine hgone (mem_iff_exists_getElem?.2 ?_)
      by_cases hchange : k ∈ d.changed.map Prod.fst
      · obtain ⟨e, he, rfl⟩ := List.mem_map.1 hchange
        exact ⟨e.2, (hd.entries e.1 e.2).2 (.inl he)⟩
      · exact ⟨v, (hd.entries k v).2 (.inr ⟨hchange, hstays, hv⟩)⟩
  have hentries : delta.changed = delta'.changed :=
    eq_of_sorted_entries h.changed_sorted h'.changed_sorted fun e =>
      (hchanged h e.1 e.2).trans (hchanged h' e.1 e.2).symm
  have hkeys : delta.removed = delta'.removed :=
    eq_of_sorted_of_mem_iff h.removed_sorted h'.removed_sorted fun k =>
      (hremoved h k).trans (hremoved h' k).symm
  obtain ⟨changed, removed⟩ := delta
  obtain ⟨changed', removed'⟩ := delta'
  simp only at hentries hkeys
  rw [hentries, hkeys]

/-- A delta that is applied is the difference of the two maps. -/
theorem deltaOf_of_applyDelta {before after : BTreeMap K V} {delta : MapDelta K V}
    (h : applyDelta before delta = .ok after) : deltaOf before after = delta :=
  (between_deltaOf before after).unique (applyDelta_eq_ok.1 h)

end Loops

end PgRoles.Lib
