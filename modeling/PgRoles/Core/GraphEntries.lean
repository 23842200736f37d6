import PgRoles.Core.ExpandSpec

/-!
# The entries of a desired graph

How the maps of a graph are compared and rebuilt, and which declaration each default-privilege entry
of a desired graph comes from.
-/

set_option autoImplicit false

namespace PgRoles.Core

open Std PgRoles.Lib

/-! ## Maps -/

section Maps

variable {K V W : Type} [Ord K] [TransOrd K] [LawfulEqOrd K]

/-- Maps of sets are equal when they have the same keys and hold the same under them. -/
theorem ext_entries {m m' : BTreeMap K (Finset Privilege)}
    (hkeys : ∀ k : K, m[k]?.isSome ↔ m'[k]?.isSome)
    (hentries : ∀ (k : K) p, p ∈ entryAt m k ↔ p ∈ entryAt m' k) : m = m' := by
  refine ExtTreeMap.ext_getElem? fun k => ?_
  have hk := Finset.ext (hentries k)
  cases hm : m[k]? with
  | none =>
      have hnone : ¬ m'[k]?.isSome := by
        rw [← hkeys k, hm]
        exact Bool.false_ne_true
      rw [Option.not_isSome_iff_eq_none] at hnone
      exact hnone.symm
  | some s =>
      have hsome : m'[k]?.isSome := (hkeys k).1 (by rw [hm]; rfl)
      obtain ⟨s', hm'⟩ := Option.isSome_iff_exists.1 hsome
      rw [entryAt_of_getElem? hm, entryAt_of_getElem? hm'] at hk
      rw [hm', hk]

/-- A map rebuilt from its entries with other values. -/
theorem ofList_map_toList (m : BTreeMap K V) (f : K → V → W) :
    ExtTreeMap.ofList (m.toList.map fun e => (e.1, f e.1 e.2)) compare = m.map f := by
  refine ExtTreeMap.ext_getElem? fun k => ?_
  rw [ExtTreeMap.getElem?_map]
  have hpairs : ∀ w, (k, w) ∈ (m.toList.map fun e => (e.1, f e.1 e.2)) →
      ∃ v, m[k]? = some v ∧ w = f k v := by
    intro w hw
    obtain ⟨⟨a, v⟩, hmem, heq⟩ := List.mem_map.1 hw
    obtain ⟨rfl, rfl⟩ := Prod.mk.inj heq
    exact ⟨v, mem_toList_iff.1 hmem, rfl⟩
  cases hm : m[k]? with
  | none =>
      cases hl : (ExtTreeMap.ofList (m.toList.map fun e => (e.1, f e.1 e.2)) compare)[k]? with
      | none => rfl
      | some w =>
          obtain ⟨v, hv, -⟩ := hpairs w (mem_of_getElem?_ofList hl)
          rw [hm] at hv
          cases hv
  | some v =>
      have hin : (k, f k v) ∈ (m.toList.map fun e => (e.1, f e.1 e.2)) :=
        List.mem_map.2 ⟨(k, v), mem_toList_iff.2 hm, rfl⟩
      obtain ⟨w, hw⟩ := exists_getElem?_ofList hin
      obtain ⟨v', hv', rfl⟩ := hpairs w (mem_of_getElem?_ofList hw)
      rw [hm] at hv'
      rw [hw, Option.some.inj hv']
      rfl

end Maps

/-! ## Default privileges -/

/-- The entry one grantee of a declaration becomes. -/
def DefaultPrivilegeEntry.ofGrant (owner : String) (scope : DefaultPrivilegeScope)
    (grant : DefaultPrivilegeGrant) (role : String) : DefaultPrivilegeEntry :=
  ⟨⟨owner, scope, grant.onType, .parse role⟩, grant.ensure, grant.privileges.toFinset⟩

/-- The declaration has the entry: for a grantee it names, in the scope it resolves to. -/
def DefaultPrivilege.HasEntry (d : DefaultPrivilege) (defaultOwner : Option String)
    (entry : DefaultPrivilegeEntry) : Prop :=
  ∃ grant ∈ d.grant, ∃ role, grant.role = some role ∧ ∃ scope, d.resolvedScope = .ok scope ∧
    entry = .ofGrant (defaultPrivilegeOwner defaultOwner d) scope grant role

section Defaults

variable {defaultOwner : Option String}

theorem mem_defaultPrivilegeEntries_iff {d : DefaultPrivilege}
    {entries : List DefaultPrivilegeEntry}
    (hentries : defaultPrivilegeEntries defaultOwner d = .ok entries)
    {entry : DefaultPrivilegeEntry} : entry ∈ entries ↔ d.HasEntry defaultOwner entry := by
  obtain ⟨scope, hscope, hentries⟩ := bind_eq_ok.1 hentries
  constructor
  · intro hentry
    obtain ⟨grant, hgrant, hok⟩ := exists_of_mem_mapM hentries hentry
    cases hrole : grant.role with
    | none =>
        simp only [hrole] at hok
        cases hok
    | some role =>
        simp only [hrole] at hok
        exact ⟨grant, hgrant, role, hrole, scope, hscope, (Except.ok.inj hok).symm⟩
  · intro hentry
    obtain ⟨grant, hgrant, role, hrole, scope', hscope', rfl⟩ := hentry
    obtain rfl : scope = scope' := Except.ok.inj (hscope.symm.trans hscope')
    obtain ⟨entry, hentry, hok⟩ := exists_of_mem_of_mapM hentries hgrant
    simp only [hrole] at hok
    rw [← Except.ok.inj hok] at hentry
    exact hentry

theorem mem_flatten_entries_iff {ds : List DefaultPrivilege}
    {entries : List (List DefaultPrivilegeEntry)}
    (hentries : ds.mapM (defaultPrivilegeEntries defaultOwner) = .ok entries)
    {entry : DefaultPrivilegeEntry} :
    entry ∈ entries.flatten ↔ ∃ d ∈ ds, d.HasEntry defaultOwner entry := by
  rw [List.mem_flatten]
  constructor
  · intro h
    obtain ⟨l, hl, hentry⟩ := h
    obtain ⟨d, hd, hok⟩ := exists_of_mem_mapM hentries hl
    exact ⟨d, hd, (mem_defaultPrivilegeEntries_iff hok).1 hentry⟩
  · intro h
    obtain ⟨d, hd, hentry⟩ := h
    obtain ⟨l, hl, hok⟩ := exists_of_mem_of_mapM hentries hd
    exact ⟨l, hl, (mem_defaultPrivilegeEntries_iff hok).2 hentry⟩

theorem mem_entryAt_entriesWith {ensure : Ensure} {entries : List DefaultPrivilegeEntry}
    {k : DefaultPrivKey} {p : Privilege} :
    p ∈ entryAt (extendEntries ∅ (entriesWith ensure entries)) k ↔
      ∃ entry ∈ entries, entry.ensure = ensure ∧ entry.key = k ∧ p ∈ entry.privileges := by
  rw [mem_entryAt_extendEntries]
  constructor
  · intro h
    rcases h with h | ⟨s, hs, hp⟩
    · simp [entryAt] at h
    · obtain ⟨entry, hentry, heq⟩ := List.mem_map.1 hs
      obtain ⟨rfl, rfl⟩ := Prod.mk.inj heq
      obtain ⟨hmem, hensure⟩ := List.mem_filter.1 hentry
      exact ⟨entry, hmem, by simpa using hensure, rfl, hp⟩
  · intro h
    obtain ⟨entry, hmem, hensure, rfl, hp⟩ := h
    refine Or.inr ⟨entry.privileges, List.mem_map.2 ⟨entry, ?_, rfl⟩, hp⟩
    exact List.mem_filter.2 ⟨hmem, by simpa using hensure⟩

theorem isSome_entriesWith {ensure : Ensure} {entries : List DefaultPrivilegeEntry}
    {k : DefaultPrivKey} :
    (extendEntries ∅ (entriesWith ensure entries))[k]?.isSome ↔
      ∃ entry ∈ entries, entry.ensure = ensure ∧ entry.key = k := by
  rw [isSome_extendEntries]
  constructor
  · intro h
    rcases h with h | ⟨s, hs⟩
    · simp at h
    · obtain ⟨entry, hentry, heq⟩ := List.mem_map.1 hs
      obtain ⟨hmem, hensure⟩ := List.mem_filter.1 hentry
      exact ⟨entry, hmem, by simpa using hensure, (Prod.mk.inj heq).1⟩
  · intro h
    obtain ⟨entry, hmem, hensure, rfl⟩ := h
    refine Or.inr ⟨entry.privileges, List.mem_map.2 ⟨entry, ?_, rfl⟩⟩
    exact List.mem_filter.2 ⟨hmem, by simpa using hensure⟩

theorem isSome_grantEntries {ensure : Ensure} {grants : List Grant} {k : GrantKey} :
    (extendEntries ∅ (grantEntries ensure grants))[k]?.isSome ↔
      ∃ grant ∈ grants, grant.ensure = ensure ∧ grantKeyFromManifest grant = k := by
  rw [isSome_extendEntries]
  constructor
  · intro h
    rcases h with h | ⟨s, hs⟩
    · simp at h
    · obtain ⟨grant, hgrant, heq⟩ := List.mem_map.1 hs
      obtain ⟨hmem, hensure⟩ := List.mem_filter.1 hgrant
      exact ⟨grant, hmem, by simpa using hensure, (Prod.mk.inj heq).1⟩
  · intro h
    obtain ⟨grant, hmem, hensure, rfl⟩ := h
    refine Or.inr ⟨grant.privileges.toFinset, List.mem_map.2 ⟨grant, ?_, rfl⟩⟩
    exact List.mem_filter.2 ⟨hmem, by simpa using hensure⟩

end Defaults

end PgRoles.Core
