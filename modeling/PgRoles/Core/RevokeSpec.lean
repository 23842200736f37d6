import PgRoles.Lib.Run
import PgRoles.Core.DiffSpec

/-!
# What the diff revokes

The four branches that feed the revoke map, merged into one characterisation per key
(`mem_accumulatedRevokes`), and the split of one accumulated key into revokes per object and per ACL
grantor. The scan of a scope from its least key reads exactly the entries of the scope
(`scanScope_eq_filter`), because the object name is the last field of the key order.
-/

set_option autoImplicit false

namespace PgRoles.Core

open Std PgRoles.Lib

/-! ## Scans of a scope -/

theorem GrantKey.sameScope_iff {k target : GrantKey} :
    k.sameScope target = true ↔
      target.role = k.role ∧ target.objectType = k.objectType ∧ target.schema = k.schema := by
  simp [GrantKey.sameScope, and_assoc]

/-- The comparison of two grant keys, field by field. -/
theorem GrantKey.compare_eq (a b : GrantKey) :
    compare a b =
      (compare a.role b.role).then ((compare a.objectType b.objectType).then
        ((compare a.schema b.schema).then (compare a.name b.name))) := rfl

theorem compare_none_ne_lt (o : Option String) : compare o none ≠ .lt := by
  cases o with
  | none => decide
  | some n => exact fun h => Ordering.noConfusion h

theorem GrantKey.compare_scopeStart_ne_lt {k target : GrantKey} (h : k.sameScope target = true) :
    compare target k.scopeStart ≠ .lt := by
  obtain ⟨hr, ht, hs⟩ := GrantKey.sameScope_iff.1 h
  rw [GrantKey.compare_eq]
  have hr' : compare target.role k.scopeStart.role = .eq := compare_eq_iff.2 hr
  have ht' : compare target.objectType k.scopeStart.objectType = .eq := compare_eq_iff.2 ht
  have hs' : compare target.schema k.scopeStart.schema = .eq := compare_eq_iff.2 hs
  rw [hr', ht', hs']
  exact compare_none_ne_lt target.name

/-- What lies between the start and a key of the scope is in the scope. -/
theorem GrantKey.sameScope_of_between {k a b : GrantKey} (hge : compare a k.scopeStart ≠ .lt)
    (hlt : compare a b = .lt) (hb : k.sameScope b = true) : k.sameScope a = true := by
  obtain ⟨hr, ht, hs⟩ := GrantKey.sameScope_iff.1 hb
  rw [GrantKey.compare_eq] at hge hlt
  rw [hr, ht, hs] at hlt
  obtain ⟨hr', hge, hlt⟩ := eq_of_then_ne_lt_of_then_eq_lt (b := k.role) hge hlt
  obtain ⟨ht', hge, hlt⟩ := eq_of_then_ne_lt_of_then_eq_lt (b := k.objectType) hge hlt
  obtain ⟨hs', -, -⟩ := eq_of_then_ne_lt_of_then_eq_lt (b := k.schema) hge hlt
  exact GrantKey.sameScope_iff.2 ⟨hr', ht', hs'⟩

/-- The scan of a scope reads the entries of the scope and no others. -/
theorem scanScope_eq_filter {V : Type} (m : BTreeMap GrantKey V) (k : GrantKey) :
    scanScope m k = m.toList.filter fun e => k.sameScope e.1 := by
  refine scanBlock_eq_filter Prod.fst ?_ (fun _ => GrantKey.compare_scopeStart_ne_lt)
    fun _ _ => GrantKey.sameScope_of_between
  exact ExtTreeMap.ordered_keys_toList

theorem mem_scanScope {V : Type} {m : BTreeMap GrantKey V} {k a : GrantKey} {v : V} :
    (a, v) ∈ scanScope m k ↔ m[a]? = some v ∧ k.sameScope a = true := by
  rw [scanScope_eq_filter, List.mem_filter, mem_toList_iff]

/-! ## The revoke map -/

variable {current desired : RoleGraph} {k : GrantKey} {p : Privilege}

theorem foldl_union_mem {K P : Type} [DecidableEq P] {l : List (K × Finset P)} {s : Finset P}
    {p : P} :
    p ∈ l.foldl (fun acc e => acc ∪ e.2) s ↔ p ∈ s ∨ ∃ e ∈ l, p ∈ e.2 := by
  refine holds_foldl_of_adds (fun s => p ∈ s) (fun e : K × Finset P => p ∈ e.2) (fun s e _ => ?_) s
  exact Finset.mem_union

theorem mem_shadowFilter {candidate : Finset Privilege} (hk : k.isWildcard = false) :
    p ∈ shadowFilter desired k candidate ↔
      p ∈ candidate ∧ p ∉ desiredWildcard desired k ∧ p ∉ absenceWildcard desired k := by
  simp [shadowFilter, hk, and_assoc]

theorem shadowFilter_subset {candidate : Finset Privilege} :
    shadowFilter desired k candidate ⊆ candidate := by
  unfold shadowFilter
  split
  · exact Finset.Subset.refl _
  · exact Finset.sdiff_subset.trans Finset.sdiff_subset

/-- A wildcard absence finds what is held on any object of the scope. -/
theorem mem_heldForAbsence_of_wildcard (hk : k.isWildcard = true) :
    p ∈ heldForAbsence current k ↔
      ∃ a, k.sameScope a = true ∧ a ∉ current.inherentGrants ∧ p ∈ entryAt current.grants a := by
  rw [heldForAbsence, if_pos hk, foldl_union_mem]
  constructor
  · rintro (h | ⟨⟨a, s⟩, he, hp⟩)
    · simp at h
    · obtain ⟨hscan, hinh⟩ := List.mem_filter.1 he
      obtain ⟨ha, hscope⟩ := mem_scanScope.1 hscan
      refine ⟨a, hscope, contains_eq_false_iff.1 (by simpa using hinh), ?_⟩
      rwa [entryAt_of_getElem? ha]
  · rintro ⟨a, hscope, hinh, hp⟩
    have hrevocable := contains_eq_false_iff.2 hinh
    refine Or.inr ⟨(a, entryAt current.grants a), List.mem_filter.2 ⟨?_, by simp [hrevocable]⟩, hp⟩
    exact mem_scanScope.2 ⟨getElem?_of_mem_entryAt hp, hscope⟩

theorem mem_heldForAbsence_of_concrete (hk : k.isWildcard = false) :
    p ∈ heldForAbsence current k ↔
      k ∉ current.inherentGrants ∧ p ∈ entryAt current.grants k := by
  by_cases h : k ∈ current.inherentGrants <;> simp [heldForAbsence, hk, h]

/-- Of a declared target the privileges go that are held and not declared. -/
theorem mem_declaredKeyRevokes {s : Finset Privilege} :
    (k, s) ∈ declaredKeyRevokes current desired ↔
      ∃ d held, desired.grants[k]? = some d ∧ current.grants[k]? = some held ∧
        k.role.isPublic = false ∧ k ∉ current.inherentGrants ∧
          s = shadowFilter desired k (held \ d) ∧ s ≠ ∅ := by
  rw [declaredKeyRevokes, mem_flatMap_toList]
  constructor
  · rintro ⟨a, d, ha, hs⟩
    cases hc : current.grants[a]? with
    | none => simp [hc] at hs
    | some held =>
        simp only [hc] at hs
        split_ifs at hs with hpub hinh hex
        · simp at hs
        · simp at hs
        · simp at hs
        · obtain ⟨rfl, rfl⟩ := Prod.mk.inj (List.mem_singleton.1 hs)
          exact ⟨d, held, ha, hc, by simpa using hpub, hinh, rfl, hex⟩
  · rintro ⟨d, held, hd, hc, hpub, hinh, rfl, hne⟩
    exact ⟨k, d, hd, by simp [hc, hpub, hinh, hne]⟩

/-- Of an undeclared target all held privileges go. -/
theorem mem_undeclaredKeyRevokes {s : Finset Privilege} :
    (k, s) ∈ undeclaredKeyRevokes current desired ↔
      ∃ held, desired.grants[k]? = none ∧ current.grants[k]? = some held ∧
        k.role.isPublic = false ∧ k ∉ current.inherentGrants ∧
          s = shadowFilter desired k held ∧ s ≠ ∅ := by
  rw [undeclaredKeyRevokes, mem_flatMap_toList]
  constructor
  · rintro ⟨a, held, ha, hs⟩
    simp only at hs
    split_ifs at hs with hdes hpub hinh hex
    · simp at hs
    · simp at hs
    · simp at hs
    · simp at hs
    · obtain ⟨rfl, rfl⟩ := Prod.mk.inj (List.mem_singleton.1 hs)
      exact ⟨held, not_mem_iff_getElem?.1 hdes, ha, by simpa using hpub, hinh, rfl, hex⟩
  · rintro ⟨held, hd, hc, hpub, hinh, rfl, hne⟩
    have hdes := not_mem_iff_getElem?.2 hd
    exact ⟨k, held, hc, by simp [hdes, hpub, hinh, hne]⟩

theorem mem_absenceRevokes {s : Finset Privilege} :
    (k, s) ∈ absenceRevokes current desired ↔
      ∃ a, desired.grantAbsences[k]? = some a ∧ s = a ∩ heldForAbsence current k ∧ s ≠ ∅ := by
  rw [absenceRevokes, mem_flatMap_toList]
  constructor
  · rintro ⟨b, a, hb, hs⟩
    simp only at hs
    split_ifs at hs with hex
    · simp at hs
    · obtain ⟨rfl, rfl⟩ := Prod.mk.inj (List.mem_singleton.1 hs)
      exact ⟨a, hb, rfl, hex⟩
  · rintro ⟨a, ha, rfl, hne⟩
    exact ⟨k, a, ha, by simp [hne]⟩

/-- A key's revokes on the convergence branches, declared or not: what an ordinary grantee holds in
excess of the declaration, on a revocable entry. -/
theorem exists_mem_convergenceRevokes :
    (∃ s, ((k, s) ∈ declaredKeyRevokes current desired ∨
        (k, s) ∈ undeclaredKeyRevokes current desired) ∧ p ∈ s) ↔
      k.role.isPublic = false ∧ k ∉ current.inherentGrants ∧
        p ∈ shadowFilter desired k (entryAt current.grants k \ entryAt desired.grants k) := by
  constructor
  · rintro ⟨s, hs | hs, hp⟩
    · obtain ⟨d, held, hd, hc, hpub, hinh, rfl, -⟩ := mem_declaredKeyRevokes.1 hs
      refine ⟨hpub, hinh, ?_⟩
      rwa [entryAt_of_getElem? hc, entryAt_of_getElem? hd]
    · obtain ⟨held, hd, hc, hpub, hinh, rfl, -⟩ := mem_undeclaredKeyRevokes.1 hs
      refine ⟨hpub, hinh, ?_⟩
      rwa [entryAt_of_getElem? hc, entryAt_of_getElem?_none hd, Finset.sdiff_empty]
  · rintro ⟨hpub, hinh, hp⟩
    have hheld : p ∈ entryAt current.grants k := (Finset.mem_sdiff.1 (shadowFilter_subset hp)).1
    have hc := getElem?_of_mem_entryAt hheld
    have hne : shadowFilter desired k (entryAt current.grants k \ entryAt desired.grants k) ≠ ∅ :=
      Finset.ne_empty_of_mem hp
    refine ⟨_, ?_, hp⟩
    cases hd : desired.grants[k]? with
    | none =>
        rw [entryAt_of_getElem?_none hd, Finset.sdiff_empty] at hne ⊢
        exact Or.inr (mem_undeclaredKeyRevokes.2 ⟨_, hd, hc, hpub, hinh, rfl, hne⟩)
    | some d =>
        rw [entryAt_of_getElem? hd] at hne ⊢
        exact Or.inl (mem_declaredKeyRevokes.2 ⟨d, _, hd, hc, hpub, hinh, rfl, hne⟩)

/-- What the revoke map holds under a key. -/
theorem mem_accumulatedRevokes :
    p ∈ entryAt (accumulatedRevokes current desired) k ↔
      (k.role.isPublic = false ∧ k ∉ current.inherentGrants ∧
        p ∈ shadowFilter desired k (entryAt current.grants k \ entryAt desired.grants k)) ∨
      (p ∈ entryAt desired.grantAbsences k ∧ p ∈ heldForAbsence current k) := by
  rw [accumulatedRevokes, mem_entryAt_extendEntries, ← exists_mem_convergenceRevokes]
  constructor
  · rintro (h | ⟨s, hs, hp⟩)
    · simp [entryAt] at h
    · rcases List.mem_append.1 hs with hs | hs
      · exact Or.inl ⟨s, List.mem_append.1 hs, hp⟩
      · obtain ⟨a, ha, rfl, -⟩ := mem_absenceRevokes.1 hs
        refine Or.inr ⟨?_, (Finset.mem_inter.1 hp).2⟩
        rw [entryAt_of_getElem? ha]
        exact (Finset.mem_inter.1 hp).1
  · rintro (⟨s, hs, hp⟩ | ⟨ha, hheld⟩)
    · exact Or.inr ⟨s, List.mem_append_left _ (List.mem_append.2 hs), hp⟩
    · have hp := Finset.mem_inter.2 ⟨ha, hheld⟩
      refine Or.inr ⟨_, List.mem_append_right _ (mem_absenceRevokes.2 ⟨_, ?_, rfl, ?_⟩), hp⟩
      · exact getElem?_of_mem_entryAt ha
      · exact Finset.ne_empty_of_mem hp

/-- No key of the revoke map is empty. -/
theorem accumulatedRevokes_nonempty {s : Finset Privilege}
    (h : (accumulatedRevokes current desired)[k]? = some s) : s ≠ ∅ := by
  have hsome : (accumulatedRevokes current desired)[k]?.isSome := by simp [h]
  rw [accumulatedRevokes, isSome_extendEntries] at hsome
  rcases hsome with hnone | ⟨t, ht⟩
  · simp at hnone
  · have hne : t ≠ ∅ := by
      rcases List.mem_append.1 ht with ht | ht
      · rcases List.mem_append.1 ht with ht | ht
        · obtain ⟨_, _, _, _, _, _, _, hne⟩ := mem_declaredKeyRevokes.1 ht
          exact hne
        · obtain ⟨_, _, _, _, _, _, hne⟩ := mem_undeclaredKeyRevokes.1 ht
          exact hne
      · obtain ⟨_, _, _, hne⟩ := mem_absenceRevokes.1 ht
        exact hne
    obtain ⟨p, hp⟩ := Finset.nonempty_iff_ne_empty.2 hne
    have hmem : p ∈ entryAt (accumulatedRevokes current desired) k :=
      mem_entryAt_extendEntries.2 (Or.inr ⟨t, ht, hp⟩)
    rw [entryAt_of_getElem? h] at hmem
    exact Finset.ne_empty_of_mem hmem

/-! ## The split per grantor -/

/-- The grantor a change names when it revokes `p` on `k`. -/
def revokeGrantor? (k : GrantKey) (p : Privilege) : Change → Option (Option String)
  | .revoke a s grantor => if a = k ∧ p ∈ s then some grantor else none
  | _ => none

/-- The grantors of a plan's revokes of `p` on `k`, in plan order; a plain revoke has none. -/
def revokeGrantors (k : GrantKey) (p : Privilege) (plan : List Change) : List (Option String) :=
  plan.filterMap (revokeGrantor? k p)

/-- The plan revokes `p` on `k`. -/
def Revokes (plan : List Change) (k : GrantKey) (p : Privilege) : Prop :=
  ∃ s grantor, .revoke k s grantor ∈ plan ∧ p ∈ s

/-- The grantors whose recorded ACL entry on `k` holds `p`. -/
def recordedEntries (current : RoleGraph) (k : GrantKey) (p : Privilege) : List String :=
  (current.grantEntryGrantors[k]?.elim [] ExtTreeMap.toList).filterMap fun e =>
    if p ∈ e.2 then some e.1 else none

/-- The grantors a complete revoke of `p` on `k` names: each recorded holder, else a plain one. -/
def entryGrantors (current : RoleGraph) (k : GrantKey) (p : Privilege) : List (Option String) :=
  if recordedEntries current k p = [] then [none] else (recordedEntries current k p).map some

theorem mem_revokeGrantors {plan : List Change} {g : Option String} :
    g ∈ revokeGrantors k p plan ↔ ∃ s, .revoke k s g ∈ plan ∧ p ∈ s := by
  rw [revokeGrantors, List.mem_filterMap]
  constructor
  · rintro ⟨c, hc, hg⟩
    cases c with
    | revoke a s grantor =>
        simp only [revokeGrantor?] at hg
        split_ifs at hg with h
        obtain ⟨rfl, hp⟩ := h
        obtain rfl := Option.some.inj hg
        exact ⟨s, hc, hp⟩
    | _ => simp [revokeGrantor?] at hg
  · rintro ⟨s, hs, hp⟩
    exact ⟨_, hs, by simp [revokeGrantor?, hp]⟩

theorem revokes_iff {plan : List Change} :
    Revokes plan k p ↔ revokeGrantors k p plan ≠ [] := by
  constructor
  · rintro ⟨s, g, h, hp⟩
    exact List.ne_nil_of_mem (mem_revokeGrantors.2 ⟨s, h, hp⟩)
  · intro h
    obtain ⟨g, hg⟩ := List.exists_mem_of_ne_nil _ h
    obtain ⟨s, h, hp⟩ := mem_revokeGrantors.1 hg
    exact ⟨s, g, h, hp⟩

theorem entryGrantors_ne_nil : entryGrantors current k p ≠ [] := by
  unfold entryGrantors
  split
  · simp
  · next h => simpa using h

theorem revokeGrantors_append (l₁ l₂ : List Change) :
    revokeGrantors k p (l₁ ++ l₂) = revokeGrantors k p l₁ ++ revokeGrantors k p l₂ :=
  List.filterMap_append

theorem revokeGrantors_flatMap {α : Type} (l : List α) (f : α → List Change) :
    revokeGrantors k p (l.flatMap f) = l.flatMap fun e => revokeGrantors k p (f e) :=
  List.filterMap_flatMap

/-- Every change of a target's split is a revoke on that target within the given privileges. -/
theorem mem_pushRevokesOnTarget {s : Finset Privilege} {c : Change}
    (h : c ∈ pushRevokesOnTarget current desired k s) :
    ∃ t g, c = .revoke k t g ∧ t ⊆ s := by
  unfold pushRevokesOnTarget at h
  split at h
  · exact ⟨s, none, List.mem_singleton.1 h, Finset.Subset.refl _⟩
  · split at h
    · exact ⟨s, none, List.mem_singleton.1 h, Finset.Subset.refl _⟩
    · rcases List.mem_append.1 h with h | h
      · obtain ⟨g, t, -, hc⟩ := mem_flatMap_toList.1 h
        split_ifs at hc
        · simp at hc
        · exact ⟨_, _, List.mem_singleton.1 hc, Finset.inter_subset_left⟩
      · split_ifs at h
        · simp at h
        · exact ⟨_, _, List.mem_singleton.1 h, Finset.sdiff_subset⟩

/-- The revokes pushed per recorded entry name, for `p`, the entries that hold it. -/
theorem revokeGrantors_perEntry {s : Finset Privilege} (hp : p ∈ s)
    (l : List (String × Finset Privilege)) :
    revokeGrantors k p (l.flatMap fun e =>
        if s ∩ e.2 = ∅ then [] else [Change.revoke k (s ∩ e.2) (some e.1)]) =
      (l.filterMap fun e => if p ∈ e.2 then some e.1 else none).map some := by
  induction l with
  | nil => rfl
  | cons e l ih =>
      rw [List.flatMap_cons, revokeGrantors_append, ih, List.filterMap_cons]
      by_cases he : p ∈ e.2
      · have hmem : p ∈ s ∩ e.2 := Finset.mem_inter.2 ⟨hp, he⟩
        have hne : s ∩ e.2 ≠ ∅ := Finset.ne_empty_of_mem hmem
        simp [hne, he, revokeGrantors, revokeGrantor?, hp]
      · by_cases hne : s ∩ e.2 = ∅
        · simp [hne, he, revokeGrantors]
        · simp [hne, he, revokeGrantors, revokeGrantor?]

/-- The privileges that recorded entries cover. -/
theorem mem_covered {s : Finset Privilege} {l : List (String × Finset Privilege)} (hp : p ∈ s) :
    p ∈ l.foldl (fun acc e => acc ∪ (s ∩ e.2)) ∅ ↔
      (l.filterMap fun e => if p ∈ e.2 then some e.1 else none) ≠ [] := by
  have hfold : p ∈ l.foldl (fun acc e => acc ∪ (s ∩ e.2)) ∅ ↔
      p ∈ (∅ : Finset Privilege) ∨ ∃ e ∈ l, p ∈ e.2 :=
    holds_foldl_of_adds (fun acc : Finset Privilege => p ∈ acc)
      (fun e : String × Finset Privilege => p ∈ e.2)
      (fun acc e _ => by simp [hp]) ∅
  rw [hfold, ne_eq, List.filterMap_eq_nil_iff]
  simp

/-- The split of a target's revoke of `p`, where no transfer makes the records stale. -/
theorem revokeGrantors_pushRevokesOnTarget {s : Finset Privilege}
    (hstale : schemaOwnerTransfers current desired k = false) (hp : p ∈ s) :
    revokeGrantors k p (pushRevokesOnTarget current desired k s) = entryGrantors current k p := by
  unfold pushRevokesOnTarget
  rw [if_neg (by simp [hstale])]
  cases hper : current.grantEntryGrantors[k]? with
  | none => simp [revokeGrantors, revokeGrantor?, hp, entryGrantors, recordedEntries, hper]
  | some perGrantor =>
      have hrecorded : recordedEntries current k p =
          perGrantor.toList.filterMap fun e => if p ∈ e.2 then some e.1 else none := by
        rw [recordedEntries, hper]
        rfl
      simp only
      rw [revokeGrantors_append, revokeGrantors_perEntry hp, ← hrecorded, entryGrantors]
      by_cases hnil : recordedEntries current k p = []
      · have hplain : p ∈ s \ perGrantor.toList.foldl (fun acc e => acc ∪ (s ∩ e.2)) ∅ := by
          rw [Finset.mem_sdiff, mem_covered hp, ← hrecorded]
          exact ⟨hp, not_not.2 hnil⟩
        rw [if_neg (Finset.ne_empty_of_mem hplain), if_pos hnil, hnil]
        simp only [revokeGrantors, List.filterMap_cons, revokeGrantor?, hplain, and_self, if_true,
          List.map_nil, List.nil_append, List.filterMap_nil]
      · have hcovered : p ∉ s \ perGrantor.toList.foldl (fun acc e => acc ∪ (s ∩ e.2)) ∅ := by
          rw [Finset.mem_sdiff, mem_covered hp, ← hrecorded]
          exact fun h => h.2 hnil
        rw [if_neg hnil]
        split
        · simp [revokeGrantors]
        · simp only [revokeGrantors, List.filterMap_cons, revokeGrantor?, hcovered, and_false,
            if_false, List.filterMap_nil, List.append_nil]

/-- The grantors of a target's complete revoke of `p`; a transfer makes the records stale and
leaves the plain one. -/
def targetGrantors (current desired : RoleGraph) (k : GrantKey) (p : Privilege) :
    List (Option String) :=
  if schemaOwnerTransfers current desired k then [none] else entryGrantors current k p

theorem targetGrantors_ne_nil : targetGrantors current desired k p ≠ [] := by
  unfold targetGrantors
  split
  · simp
  · exact entryGrantors_ne_nil

theorem revokeGrantors_pushRevokesOnTarget_of_mem {s : Finset Privilege} (hp : p ∈ s) :
    revokeGrantors k p (pushRevokesOnTarget current desired k s) =
      targetGrantors current desired k p := by
  cases hstale : schemaOwnerTransfers current desired k with
  | true =>
      simp [pushRevokesOnTarget, hstale, revokeGrantors, revokeGrantor?, hp, targetGrantors]
  | false =>
      rw [revokeGrantors_pushRevokesOnTarget hstale hp, targetGrantors, hstale]
      rfl

theorem revokeGrantors_pushRevokesOnTarget_ne {s : Finset Privilege} {a : GrantKey}
    (h : a ≠ k ∨ p ∉ s) : revokeGrantors k p (pushRevokesOnTarget current desired a s) = [] := by
  rw [revokeGrantors, List.filterMap_eq_nil_iff]
  intro c hc
  obtain ⟨t, g, rfl, hts⟩ := mem_pushRevokesOnTarget hc
  have hno : ¬ (a = k ∧ p ∈ t) := by
    rintro ⟨rfl, hp⟩
    rcases h with h | h
    · exact h rfl
    · exact h (hts hp)
  simp [revokeGrantor?, hno]

/-! ## The expansion of a wildcard -/

/-- What the records of a wildcard's scope say of one concrete target. -/
theorem mem_concreteTargets {w : GrantKey} :
    p ∈ entryAt (concreteTargets current w) k ↔
      w.sameScope k = true ∧ k.isWildcard = false ∧
        (recordedEntries current k p ≠ [] ∨ p ∈ entryAt current.grants k) := by
  have hrecorded : ∀ m, current.grantEntryGrantors[k]? = some m →
      (p ∈ m.toList.foldl (fun acc g => acc ∪ g.2) ∅ ↔ recordedEntries current k p ≠ []) := by
    intro m hm
    rw [foldl_union_mem, recordedEntries, hm, ne_eq, List.filterMap_eq_nil_iff]
    simp
  rw [concreteTargets, mem_entryAt_extendEntries]
  constructor
  · rintro (h | ⟨s, hs, hp⟩)
    · simp [entryAt] at h
    · rcases List.mem_append.1 hs with hs | hs
      · obtain ⟨⟨a, m⟩, he, heq⟩ := List.mem_map.1 hs
        obtain ⟨rfl, rfl⟩ := Prod.mk.inj heq
        obtain ⟨hscan, hconcrete⟩ := List.mem_filter.1 he
        obtain ⟨hm, hscope⟩ := mem_scanScope.1 hscan
        exact ⟨hscope, by simpa using hconcrete, Or.inl ((hrecorded m hm).1 hp)⟩
      · obtain ⟨hscan, hconcrete⟩ := List.mem_filter.1 hs
        obtain ⟨hm, hscope⟩ := mem_scanScope.1 hscan
        refine ⟨hscope, by simpa using hconcrete, Or.inr ?_⟩
        rwa [entryAt_of_getElem? hm]
  · rintro ⟨hscope, hconcrete, hp⟩
    rcases hp with hp | hp
    · cases hm : current.grantEntryGrantors[k]? with
      | none => simp [recordedEntries, hm] at hp
      | some m =>
          refine Or.inr ⟨_, List.mem_append_left _ (List.mem_map.2 ⟨(k, m), ?_, rfl⟩),
            (hrecorded m hm).2 hp⟩
          exact List.mem_filter.2 ⟨mem_scanScope.2 ⟨hm, hscope⟩, by simp [hconcrete]⟩
    · refine Or.inr ⟨_, List.mem_append_right _ (List.mem_filter.2 ⟨?_, by simp [hconcrete]⟩), hp⟩
      exact mem_scanScope.2 ⟨getElem?_of_mem_entryAt hp, hscope⟩

/-- Every change a key contributes is a revoke, on the key itself or on a concrete revocable target
of its scope. -/
theorem mem_pushRevokesSplitByGrantor {w : GrantKey} {s : Finset Privilege} {c : Change}
    (h : c ∈ pushRevokesSplitByGrantor current desired w s) :
    ∃ a t g, c = .revoke a t g ∧ t ⊆ s ∧
      ((expandsWildcard current w = false ∧ a = w) ∨
        (w.isWildcard = true ∧ w.sameScope a = true ∧ a.isWildcard = false ∧
          a ∉ current.inherentGrants)) := by
  unfold pushRevokesSplitByGrantor at h
  split at h
  · next hw =>
      obtain ⟨a, held, ha, hc⟩ := mem_flatMap_toList.1 h
      simp only at hc
      split_ifs at hc with hinh hne
      · simp at hc
      · simp at hc
      · obtain ⟨t, g, rfl, hts⟩ := mem_pushRevokesOnTarget hc
        obtain ⟨q, hq⟩ := Finset.nonempty_iff_ne_empty.2 hne
        have hmem : q ∈ entryAt (concreteTargets current w) a := by
          rw [entryAt_of_getElem? ha]
          exact (Finset.mem_inter.1 hq).2
        obtain ⟨hscope, hconcrete, -⟩ := mem_concreteTargets.1 hmem
        have hwild : w.isWildcard = true := by
          unfold expandsWildcard at hw
          exact (Bool.and_eq_true_iff.1 hw).1
        exact ⟨a, t, g, rfl, hts.trans Finset.inter_subset_left,
          Or.inr ⟨hwild, hscope, hconcrete, hinh⟩⟩
  · next hw =>
      obtain ⟨t, g, rfl, hts⟩ := mem_pushRevokesOnTarget h
      exact ⟨w, t, g, rfl, hts, Or.inl ⟨by simpa using hw, rfl⟩⟩

/-- What a concrete key contributes to its own revokes. -/
theorem pushRevokesSplitByGrantor_of_concrete {s : Finset Privilege} (hk : k.isWildcard = false) :
    pushRevokesSplitByGrantor current desired k s = pushRevokesOnTarget current desired k s := by
  simp [pushRevokesSplitByGrantor, expandsWildcard, hk]

/-- What an expanded wildcard contributes to one concrete target. -/
theorem revokeGrantors_expanded {w : GrantKey} {s : Finset Privilege}
    (hw : expandsWildcard current w = true) :
    revokeGrantors k p (pushRevokesSplitByGrantor current desired w s) =
      if k ∉ current.inherentGrants ∧ p ∈ s ∧ p ∈ entryAt (concreteTargets current w) k then
        targetGrantors current desired k p
      else [] := by
  rw [pushRevokesSplitByGrantor, if_pos hw, revokeGrantors_flatMap,
    flatMap_toList_eq_single (concreteTargets current w) k]
  · cases ht : (concreteTargets current w)[k]? with
    | none => simp [entryAt_of_getElem?_none ht]
    | some held =>
        simp only [Option.elim_some, entryAt_of_getElem? ht]
        by_cases hinh : k ∈ current.inherentGrants
        · simp [hinh, revokeGrantors]
        · by_cases hp : p ∈ s ∩ held
          · have hmem := Finset.mem_inter.1 hp
            rw [if_neg hinh, if_neg (Finset.ne_empty_of_mem hp),
              revokeGrantors_pushRevokesOnTarget_of_mem hp, if_pos ⟨hinh, hmem⟩]
          · have hno : ¬ (k ∉ current.inherentGrants ∧ p ∈ s ∧ p ∈ held) := fun h =>
              hp (Finset.mem_inter.2 h.2)
            rw [if_neg hinh, if_neg hno]
            split
            · rfl
            · exact revokeGrantors_pushRevokesOnTarget_ne (Or.inr hp)
  · intro e _ hne
    split_ifs
    · rfl
    · rfl
    · exact revokeGrantors_pushRevokesOnTarget_ne (Or.inl hne)

/-- A wildcard that is not expanded contributes nothing to a concrete target. -/
theorem revokeGrantors_unexpanded {w : GrantKey} {s : Finset Privilege}
    (hw : expandsWildcard current w = false) (hne : w ≠ k) :
    revokeGrantors k p (pushRevokesSplitByGrantor current desired w s) = [] := by
  rw [pushRevokesSplitByGrantor, if_neg (by simp [hw])]
  exact revokeGrantors_pushRevokesOnTarget_ne (Or.inl hne)

/-! ## All revokes of one privilege on one concrete target -/

/-- The wildcard of a concrete target's scope reaches the target with `p`. -/
def ReachedByWildcard (current desired : RoleGraph) (k : GrantKey) (p : Privilege) : Prop :=
  k ∉ current.inherentGrants ∧ p ∈ entryAt (accumulatedRevokes current desired) k.wildcard ∧
    p ∈ entryAt (concreteTargets current k.wildcard) k

instance : Decidable (ReachedByWildcard current desired k p) :=
  inferInstanceAs (Decidable (_ ∧ _ ∧ _))

theorem GrantKey.eq_wildcard_of_sameScope {w : GrantKey} (hw : w.isWildcard = true)
    (h : w.sameScope k = true) : w = k.wildcard := by
  obtain ⟨hr, ht, hs⟩ := GrantKey.sameScope_iff.1 h
  have hn : w.name = some wildcardName := by simpa [GrantKey.isWildcard] using hw
  cases w
  cases k
  simp_all [GrantKey.wildcard]

theorem GrantKey.isWildcard_wildcard : k.wildcard.isWildcard = true := by
  simp [GrantKey.wildcard, GrantKey.isWildcard]

theorem GrantKey.sameScope_wildcard : k.wildcard.sameScope k = true :=
  GrantKey.sameScope_iff.2 ⟨rfl, rfl, rfl⟩

theorem expandsWildcard_of_mem_concreteTargets
    (h : p ∈ entryAt (concreteTargets current k.wildcard) k) :
    expandsWildcard current k.wildcard = true := by
  have hmem : k ∈ concreteTargets current k.wildcard :=
    mem_iff_exists_getElem?.2 ⟨_, getElem?_of_mem_entryAt h⟩
  have hne : (concreteTargets current k.wildcard).isEmpty = false := by
    rw [← Bool.not_eq_true, ExtTreeMap.isEmpty_iff]
    intro hempty
    rw [hempty] at hmem
    exact ExtTreeMap.not_mem_empty hmem
  simp [expandsWildcard, GrantKey.isWildcard_wildcard, hne]

/-- A key other than the target and its wildcard contributes nothing to the target. -/
theorem revokeGrantors_other {w : GrantKey} {s : Finset Privilege} (hk : w ≠ k)
    (hwild : w ≠ k.wildcard) :
    revokeGrantors k p (pushRevokesSplitByGrantor current desired w s) = [] := by
  cases hw : expandsWildcard current w with
  | false => exact revokeGrantors_unexpanded hw hk
  | true =>
      rw [revokeGrantors_expanded hw, if_neg]
      rintro ⟨-, -, hp⟩
      have hscope := (mem_concreteTargets.1 hp).1
      have hiswild : w.isWildcard = true := by
        unfold expandsWildcard at hw
        exact (Bool.and_eq_true_iff.1 hw).1
      exact hwild (GrantKey.eq_wildcard_of_sameScope hiswild hscope)

theorem GrantKey.wildcard_ne (hk : k.isWildcard = false) : k.wildcard ≠ k := by
  intro h
  have hwild := GrantKey.isWildcard_wildcard (k := k)
  rw [h, hk] at hwild
  exact Bool.false_ne_true hwild

/-- What the wildcard of a target's scope contributes to the target. -/
theorem revokeGrantors_wildcard (hk : k.isWildcard = false) :
    ((accumulatedRevokes current desired)[k.wildcard]?.elim [] fun s =>
        revokeGrantors k p (pushRevokesSplitByGrantor current desired k.wildcard s)) =
      if ReachedByWildcard current desired k p then targetGrantors current desired k p else [] := by
  cases hs : (accumulatedRevokes current desired)[k.wildcard]? with
  | none => simp [ReachedByWildcard, entryAt_of_getElem?_none hs]
  | some s =>
      rw [Option.elim_some]
      cases hw : expandsWildcard current k.wildcard with
      | true =>
          rw [revokeGrantors_expanded hw]
          simp only [ReachedByWildcard, entryAt_of_getElem? hs]
      | false =>
          rw [revokeGrantors_unexpanded hw (GrantKey.wildcard_ne hk), if_neg]
          rintro ⟨-, -, hp⟩
          rw [expandsWildcard_of_mem_concreteTargets hp] at hw
          cases hw

/-- What a target's own accumulated key contributes to the target. -/
theorem revokeGrantors_own (hk : k.isWildcard = false) :
    ((accumulatedRevokes current desired)[k]?.elim [] fun s =>
        revokeGrantors k p (pushRevokesSplitByGrantor current desired k s)) =
      if p ∈ entryAt (accumulatedRevokes current desired) k then
        targetGrantors current desired k p else [] := by
  cases hs : (accumulatedRevokes current desired)[k]? with
  | none => simp [entryAt_of_getElem?_none hs]
  | some s =>
      rw [Option.elim_some, entryAt_of_getElem? hs, pushRevokesSplitByGrantor_of_concrete hk]
      by_cases hp : p ∈ s
      · rw [if_pos hp, revokeGrantors_pushRevokesOnTarget_of_mem hp]
      · rw [if_neg hp, revokeGrantors_pushRevokesOnTarget_ne (Or.inr hp)]

/-- Every revoke of `p` on a concrete target comes from the target's own accumulated key or from
the wildcard of its scope. -/
theorem revokeGrantors_revokeChanges (hk : k.isWildcard = false) :
    (revokeGrantors k p (revokeChanges current desired)).Perm
      ((if p ∈ entryAt (accumulatedRevokes current desired) k then
          targetGrantors current desired k p else []) ++
        if ReachedByWildcard current desired k p then targetGrantors current desired k p
          else []) := by
  rw [revokeChanges, revokeGrantors_flatMap]
  refine (flatMap_toList_perm _ _ k).trans ?_
  rw [revokeGrantors_own hk, flatMap_toList_eq_single _ k.wildcard, ← revokeGrantors_wildcard hk]
  · simp only [GrantKey.wildcard_ne hk, if_false]
    exact List.Perm.refl _
  · intro e _ hwild
    split
    · rfl
    · next hne => exact revokeGrantors_other hne hwild

/-- A privilege is revoked on a concrete target exactly through one of the two. -/
theorem revokes_revokeChanges (hk : k.isWildcard = false) :
    Revokes (revokeChanges current desired) k p ↔
      p ∈ entryAt (accumulatedRevokes current desired) k ∨
        ReachedByWildcard current desired k p := by
  have hperm : (revokeGrantors k p (revokeChanges current desired)).Perm _ :=
    revokeGrantors_revokeChanges hk
  have hne : targetGrantors current desired k p ≠ [] := targetGrantors_ne_nil
  rw [revokes_iff, ne_eq, ← List.length_eq_zero_iff, hperm.length_eq, List.length_eq_zero_iff]
  by_cases hown : p ∈ entryAt (accumulatedRevokes current desired) k
  · simp [hown, hne]
  · by_cases hwild : ReachedByWildcard current desired k p
    · simp [hown, hwild, hne]
    · simp [hown, hwild]

/-! ## Default privileges -/

section Defaults

variable {d : DefaultPrivKey}

/-- Of a declared rule the default privileges go that are there and not declared. -/
theorem mem_declaredDefaultRevokes {s : Finset Privilege} :
    (d, s) ∈ declaredDefaultRevokes current desired ↔
      ∃ want held, desired.defaultPrivileges[d]? = some want ∧
        current.defaultPrivileges[d]? = some held ∧ d.grantee.isPublic = false ∧
          s = held \ want ∧ s ≠ ∅ := by
  rw [declaredDefaultRevokes, mem_flatMap_toList]
  constructor
  · rintro ⟨a, want, ha, hs⟩
    cases hc : current.defaultPrivileges[a]? with
    | none => simp [hc] at hs
    | some held =>
        simp only [hc] at hs
        split_ifs at hs with hpub hex
        · simp at hs
        · simp at hs
        · obtain ⟨rfl, rfl⟩ := Prod.mk.inj (List.mem_singleton.1 hs)
          exact ⟨want, held, ha, hc, by simpa using hpub, rfl, hex⟩
  · rintro ⟨want, held, hw, hc, hpub, rfl, hne⟩
    exact ⟨d, want, hw, by simp [hc, hpub, hne]⟩

/-- Of an undeclared rule all default privileges go. -/
theorem mem_undeclaredDefaultRevokes {s : Finset Privilege} :
    (d, s) ∈ undeclaredDefaultRevokes current desired ↔
      desired.defaultPrivileges[d]? = none ∧ current.defaultPrivileges[d]? = some s ∧
        d.grantee.isPublic = false := by
  rw [undeclaredDefaultRevokes, mem_flatMap_toList]
  constructor
  · rintro ⟨a, held, ha, hs⟩
    simp only at hs
    split_ifs at hs with hdes hpub
    · simp at hs
    · simp at hs
    · obtain ⟨rfl, rfl⟩ := Prod.mk.inj (List.mem_singleton.1 hs)
      exact ⟨not_mem_iff_getElem?.1 hdes, ha, by simpa using hpub⟩
  · rintro ⟨hd, hc, hpub⟩
    have hdes := not_mem_iff_getElem?.2 hd
    exact ⟨d, s, hc, by simp [hdes, hpub]⟩

theorem mem_absenceDefaultRevokes {s : Finset Privilege} :
    (d, s) ∈ absenceDefaultRevokes current desired ↔
      ∃ a, desired.defaultPrivilegeAbsences[d]? = some a ∧
        s = a ∩ heldDefaults current desired d ∧ s ≠ ∅ := by
  rw [absenceDefaultRevokes, mem_flatMap_toList]
  constructor
  · rintro ⟨b, a, hb, hs⟩
    simp only at hs
    split_ifs at hs with hex
    · simp at hs
    · obtain ⟨rfl, rfl⟩ := Prod.mk.inj (List.mem_singleton.1 hs)
      exact ⟨a, hb, rfl, hex⟩
  · rintro ⟨a, ha, rfl, hne⟩
    exact ⟨d, a, ha, by simp [hne]⟩

/-- What the default-privilege revoke map holds under a rule. -/
theorem mem_accumulatedDefaultRevokes :
    p ∈ entryAt (accumulatedDefaultRevokes current desired) d ↔
      (d.grantee.isPublic = false ∧ p ∈ entryAt current.defaultPrivileges d ∧
        p ∉ entryAt desired.defaultPrivileges d) ∨
      (p ∈ entryAt desired.defaultPrivilegeAbsences d ∧ p ∈ heldDefaults current desired d) := by
  rw [accumulatedDefaultRevokes, mem_entryAt_extendEntries]
  constructor
  · rintro (h | ⟨s, hs, hp⟩)
    · simp [entryAt] at h
    · rcases List.mem_append.1 hs with hs | hs
      · rcases List.mem_append.1 hs with hs | hs
        · obtain ⟨want, held, hw, hc, hpub, rfl, -⟩ := mem_declaredDefaultRevokes.1 hs
          rw [entryAt_of_getElem? hw, entryAt_of_getElem? hc]
          exact Or.inl ⟨hpub, Finset.mem_sdiff.1 hp⟩
        · obtain ⟨hd, hc, hpub⟩ := mem_undeclaredDefaultRevokes.1 hs
          rw [entryAt_of_getElem?_none hd, entryAt_of_getElem? hc]
          exact Or.inl ⟨hpub, hp, Finset.notMem_empty p⟩
      · obtain ⟨a, ha, rfl, -⟩ := mem_absenceDefaultRevokes.1 hs
        rw [entryAt_of_getElem? ha]
        exact Or.inr (Finset.mem_inter.1 hp)
  · rintro (⟨hpub, hc, hd⟩ | ⟨ha, hheld⟩)
    · have hcur := getElem?_of_mem_entryAt hc
      cases hw : desired.defaultPrivileges[d]? with
      | none =>
          have hmem := mem_undeclaredDefaultRevokes.2 ⟨hw, hcur, hpub⟩
          exact Or.inr ⟨_, List.mem_append_left _ (List.mem_append_right _ hmem), hc⟩
      | some want =>
          rw [entryAt_of_getElem? hw] at hd
          have hp := Finset.mem_sdiff.2 ⟨hc, hd⟩
          have hmem := mem_declaredDefaultRevokes.2
            ⟨want, _, hw, hcur, hpub, rfl, Finset.ne_empty_of_mem hp⟩
          exact Or.inr ⟨_, List.mem_append_left _ (List.mem_append_left _ hmem), hp⟩
    · have hp := Finset.mem_inter.2 ⟨ha, hheld⟩
      have hmem := mem_absenceDefaultRevokes.2
        ⟨_, getElem?_of_mem_entryAt ha, rfl, Finset.ne_empty_of_mem hp⟩
      exact Or.inr ⟨_, List.mem_append_right _ hmem, hp⟩

/-- A rule is in the revoke map when a privilege of it is revoked, or when an ordinary grantee's
rule is undeclared. -/
theorem isSome_accumulatedDefaultRevokes :
    (accumulatedDefaultRevokes current desired)[d]?.isSome ↔
      (∃ p, p ∈ entryAt (accumulatedDefaultRevokes current desired) d) ∨
        (desired.defaultPrivileges[d]? = none ∧ current.defaultPrivileges[d]?.isSome ∧
          d.grantee.isPublic = false) := by
  constructor
  · intro h
    by_cases hempty : ∃ p, p ∈ entryAt (accumulatedDefaultRevokes current desired) d
    · exact Or.inl hempty
    · refine Or.inr ?_
      rw [accumulatedDefaultRevokes, isSome_extendEntries] at h
      rcases h with h | ⟨s, hs⟩
      · simp at h
      · have hs_empty : s = ∅ := by
          refine Finset.eq_empty_of_forall_notMem fun p hp => hempty ⟨p, ?_⟩
          exact mem_entryAt_extendEntries.2 (Or.inr ⟨s, hs, hp⟩)
        rcases List.mem_append.1 hs with hs | hs
        · rcases List.mem_append.1 hs with hs | hs
          · obtain ⟨_, _, _, _, _, _, hne⟩ := mem_declaredDefaultRevokes.1 hs
            exact absurd hs_empty hne
          · obtain ⟨hd, hc, hpub⟩ := mem_undeclaredDefaultRevokes.1 hs
            exact ⟨hd, by simp [hc], hpub⟩
        · obtain ⟨_, _, _, hne⟩ := mem_absenceDefaultRevokes.1 hs
          exact absurd hs_empty hne
  · rintro (⟨p, hp⟩ | ⟨hd, hc, hpub⟩)
    · rw [getElem?_of_mem_entryAt hp]
      rfl
    · obtain ⟨s, hs⟩ := Option.isSome_iff_exists.1 hc
      rw [accumulatedDefaultRevokes, isSome_extendEntries]
      have hmem := mem_undeclaredDefaultRevokes.2 ⟨hd, hs, hpub⟩
      exact Or.inr ⟨s, List.mem_append_left _ (List.mem_append_right _ hmem)⟩

end Defaults

end PgRoles.Core
