import PgRoles.Lib.Run
import PgRoles.Inspect.Config

/-!
# Normalization of the inspected graph

What inspection does to the raw grants before the graph is compared: a schema owner's own grants on
the schema are left to the schema state, and what every object of a scope holds of a desired
wildcard rule becomes an entry of the wildcard.
-/

set_option autoImplicit false

namespace PgRoles.Inspect

open Std PgRoles.Lib PgRoles.Core

/-! ## Schema owners -/

/-- The grant is one of a schema's owner on the schema. -/
def isSchemaOwnerGrant (schemas : BTreeMap String SchemaState) (key : GrantKey) : Bool :=
  match key.objectType, key.name with
  | .schema, some name =>
      match schemas[name]? with
      | some state => state.owner == some key.role.asStr
      | none => false
  | _, _ => false

/-- Keep ordinary owner privileges in the schema state instead of the grants map. -/
def removeRedundantSchemaOwnerGrants (g : RoleGraph) : RoleGraph :=
  { g with grants := g.grants.filter fun key _ => !isSchemaOwnerGrant g.schemas key }

theorem isSchemaOwnerGrant_iff {schemas : BTreeMap String SchemaState} {k : GrantKey} :
    isSchemaOwnerGrant schemas k = true ↔
      k.objectType = .schema ∧
        ∃ n s, k.name = some n ∧ schemas[n]? = some s ∧ s.owner = some k.role.asStr := by
  obtain ⟨role, objectType, schema, name⟩ := k
  cases objectType <;> cases name <;> simp [isSchemaOwnerGrant]
  next n => cases schemas[n]? <;> simp

theorem getElem?_removeRedundantSchemaOwnerGrants {g : RoleGraph} {k : GrantKey} :
    (removeRedundantSchemaOwnerGrants g).grants[k]? =
      if isSchemaOwnerGrant g.schemas k then none else g.grants[k]? := by
  rw [removeRedundantSchemaOwnerGrants, getElem?_filter_eq]
  cases isSchemaOwnerGrant g.schemas k <;> cases g.grants[k]? <;> rfl

theorem mem_entryAt_removeRedundantSchemaOwnerGrants {g : RoleGraph} {k : GrantKey}
    {p : Privilege} :
    p ∈ entryAt (removeRedundantSchemaOwnerGrants g).grants k ↔
      isSchemaOwnerGrant g.schemas k = false ∧ p ∈ entryAt g.grants k := by
  rw [entryAt, getElem?_removeRedundantSchemaOwnerGrants]
  cases isSchemaOwnerGrant g.schemas k <;> simp [entryAt]

/-! ## Wildcards -/

/-- The objects of each type in each schema. -/
abbrev Inventory : Type := BTreeMap (ObjectType × String) (BTreeSet String)

/-- The grant key of one object of a pattern's scope. -/
def wildcardTarget (key : WildcardKey) (name : String) : GrantKey :=
  ⟨.parse key.1, key.2.1, some key.2.2, some name⟩

/-- Without objects the wildcard is satisfied by definition. -/
def insertVacuousWildcard (grants : BTreeMap GrantKey (Finset Privilege))
    (pattern : WildcardGrantPattern) : BTreeMap GrantKey (Finset Privilege) :=
  grants.insert (wildcardTarget pattern.key wildcardName) pattern.privileges

/-- The privileges of the pattern that every object holds. -/
def sharedPrivileges (grants : BTreeMap GrantKey (Finset Privilege))
    (pattern : WildcardGrantPattern) (names : List String) : Finset Privilege :=
  names.foldl (fun shared name => shared ∩ entryAt grants (wildcardTarget pattern.key name))
    pattern.privileges

/-- Compact one pattern. Only its own privileges are compacted: extras stay with their object. -/
def normalizeWildcard (inventory : Inventory) (grants : BTreeMap GrantKey (Finset Privilege))
    (pattern : WildcardGrantPattern) : BTreeMap GrantKey (Finset Privilege) :=
  match inventory[(pattern.objectType, pattern.schema)]? with
  | none => insertVacuousWildcard grants pattern
  | some names =>
      if names.isEmpty then insertVacuousWildcard grants pattern
      else
        let shared := sharedPrivileges grants pattern names.toList
        if shared = ∅ then grants
        else
          names.toList.foldl
            (fun grants name => shrinkEntry grants (wildcardTarget pattern.key name) shared)
            (grants.insert (wildcardTarget pattern.key wildcardName) shared)

/-- The grants with every wildcard pattern collapsed, one after the other. -/
def normalizeWildcardGrants (grants : BTreeMap GrantKey (Finset Privilege)) (inventory : Inventory)
    (patterns : List WildcardGrantPattern) : BTreeMap GrantKey (Finset Privilege) :=
  patterns.foldl (normalizeWildcard inventory) grants

/-- The key lies in the scope of a pattern. -/
def InWildcardScope (key : WildcardKey) (k : GrantKey) : Prop :=
  k.role = .parse key.1 ∧ k.objectType = key.2.1 ∧ k.schema = some key.2.2

/-- Scopes of different patterns are disjoint. -/
theorem InWildcardScope.eq {key key' : WildcardKey} {k : GrantKey} (h : InWildcardScope key k)
    (h' : InWildcardScope key' k) : key = key' := by
  obtain ⟨role, objectType, schema⟩ := key
  obtain ⟨role', objectType', schema'⟩ := key'
  obtain ⟨hr, ht, hs⟩ := h
  obtain ⟨hr', ht', hs'⟩ := h'
  have hrole : role = role' := Grantee.parse_injective (hr.symm.trans hr')
  have htype : objectType = objectType' := ht.symm.trans ht'
  have hschema : schema = schema' := Option.some.inj (hs.symm.trans hs')
  rw [hrole, htype, hschema]

theorem inWildcardScope_target (key : WildcardKey) (name : String) :
    InWildcardScope key (wildcardTarget key name) :=
  ⟨rfl, rfl, rfl⟩

theorem wildcardTarget_inj {key : WildcardKey} {a b : String} :
    wildcardTarget key a = wildcardTarget key b ↔ a = b := by
  simp [wildcardTarget]

theorem mem_sharedPrivileges {grants : BTreeMap GrantKey (Finset Privilege)}
    {pattern : WildcardGrantPattern} {names : List String} {p : Privilege} :
    p ∈ sharedPrivileges grants pattern names ↔
      p ∈ pattern.privileges ∧
        ∀ name ∈ names, p ∈ entryAt grants (wildcardTarget pattern.key name) := by
  rw [sharedPrivileges, holds_foldl_of_removes (fun shared : Finset Privilege => p ∈ shared)
    (fun name => p ∉ entryAt grants (wildcardTarget pattern.key name))
    (fun shared name _ => by rw [Finset.mem_inter, not_not])]
  simp only [not_not]

/-- A pattern is normalized within its scope. -/
theorem getElem?_normalizeWildcard_of_not_inScope {inventory : Inventory}
    {grants : BTreeMap GrantKey (Finset Privilege)} {pattern : WildcardGrantPattern}
    {k : GrantKey} (h : ¬ InWildcardScope pattern.key k) :
    (normalizeWildcard inventory grants pattern)[k]? = grants[k]? := by
  have hne : ∀ name, wildcardTarget pattern.key name ≠ k := by
    rintro name rfl
    exact h (inWildcardScope_target _ _)
  have hinsert : ∀ s, (grants.insert (wildcardTarget pattern.key wildcardName) s)[k]? =
      grants[k]? := by
    intro s
    rw [getElem?_insert_eq, if_neg (hne _)]
  unfold normalizeWildcard
  split
  · exact hinsert _
  · split_ifs
    · exact hinsert _
    · dsimp only
      split_ifs
      · rfl
      · refine foldl_invariant (fun m : BTreeMap GrantKey (Finset Privilege) => m[k]? = grants[k]?)
          ?_ (hinsert _)
        intro m hm name _
        rw [getElem?_shrinkEntry, if_neg (hne _), hm]

/-- What a scope holds before it is normalized: entries of its objects, none of them empty. -/
structure RawScope (key : WildcardKey) (names : BTreeSet String)
    (grants : BTreeMap GrantKey (Finset Privilege)) : Prop where
  objects : ∀ k p, InWildcardScope key k → p ∈ entryAt grants k →
    ∃ name ∈ names, k = wildcardTarget key name
  no_empty : ∀ k, InWildcardScope key k → grants[k]? ≠ some ∅

/-- What a scope holds once it is normalized: the shared privileges under the wildcard, and the
others under their object. -/
structure NormalizedScope (key : WildcardKey) (shared : Finset Privilege)
    (before after : BTreeMap GrantKey (Finset Privilege)) : Prop where
  entries : ∀ k p, InWildcardScope key k →
    (p ∈ entryAt after k ↔
      if k = wildcardTarget key wildcardName then p ∈ shared else p ∈ entryAt before k ∧ p ∉ shared)
  no_empty : ∀ k, InWildcardScope key k → after[k]? ≠ some ∅

/-- A scope without a pattern is as good as normalized. -/
theorem RawScope.unshared {key : WildcardKey} {names : BTreeSet String}
    {grants : BTreeMap GrantKey (Finset Privilege)} (h : RawScope key names grants)
    (hwild : wildcardName ∉ names) : NormalizedScope key ∅ grants grants where
  entries k p hk := by
    split
    · next heq =>
        constructor
        · intro hp
          obtain ⟨name, hname, hkey⟩ := h.objects k p hk hp
          rw [heq] at hkey
          rw [wildcardTarget_inj.1 hkey] at hwild
          exact absurd hname hwild
        · intro hp
          exact absurd hp (Finset.notMem_empty p)
    · simp
  no_empty := h.no_empty

theorem normalizedScope_normalizeWildcard {inventory : Inventory}
    {grants : BTreeMap GrantKey (Finset Privilege)} {pattern : WildcardGrantPattern}
    {names : BTreeSet String} (h : RawScope pattern.key names grants)
    (hinv : inventory[(pattern.objectType, pattern.schema)]? = some names)
    (hne : names.isEmpty = false) (hwild : wildcardName ∉ names) :
    NormalizedScope pattern.key (sharedPrivileges grants pattern names.toList) grants
      (normalizeWildcard inventory grants pattern) := by
  unfold normalizeWildcard
  simp only [hinv, hne, Bool.false_eq_true, if_false]
  split_ifs with hshared
  · rw [hshared]
    exact h.unshared hwild
  · constructor
    · intro k p hk
      rw [holds_foldl_of_removes (fun m : BTreeMap GrantKey (Finset Privilege) => p ∈ entryAt m k)
        (fun name => wildcardTarget pattern.key name = k ∧
          p ∈ sharedPrivileges grants pattern names.toList)
        (fun m name _ => mem_entryAt_shrinkEntry)]
      rw [entryAt, getElem?_insert_eq]
      split
      · next heq =>
          subst heq
          simp only [if_true, Option.getD_some, and_iff_left_iff_imp]
          rintro - name hname ⟨heq, -⟩
          rw [wildcardTarget_inj.1 heq] at hname
          exact hwild (ExtTreeSet.mem_toList.1 hname)
      · next heq =>
          rw [if_neg fun h => heq h.symm]
          refine and_congr_right fun hp => ?_
          obtain ⟨name, hname, rfl⟩ := h.objects k p hk hp
          constructor
          · intro hall hmem
            exact hall name (ExtTreeSet.mem_toList.2 hname) ⟨rfl, hmem⟩
          · rintro hnot - - ⟨-, hmem⟩
            exact hnot hmem
    · intro k hk
      refine foldl_invariant (fun m : BTreeMap GrantKey (Finset Privilege) => m[k]? ≠ some ∅) ?_ ?_
      · intro m hm name _
        by_cases heq : wildcardTarget pattern.key name = k
        · rw [← heq]
          exact shrinkEntry_ne_empty _ _ _
        · rw [getElem?_shrinkEntry, if_neg heq]
          exact hm
      · rw [getElem?_insert_eq]
        split
        · exact fun heq => hshared (Option.some.inj heq)
        · exact h.no_empty k hk

theorem getElem?_normalizeWildcardGrants_of_not_inScope {inventory : Inventory}
    {patterns : List WildcardGrantPattern} {k : GrantKey}
    (h : ∀ pattern ∈ patterns, ¬ InWildcardScope pattern.key k)
    (grants : BTreeMap GrantKey (Finset Privilege)) :
    (normalizeWildcardGrants grants inventory patterns)[k]? = grants[k]? := by
  refine foldl_invariant (fun m : BTreeMap GrantKey (Finset Privilege) => m[k]? = grants[k]?) ?_ rfl
  intro m hm pattern hpattern
  rw [getElem?_normalizeWildcard_of_not_inScope (h pattern hpattern), hm]

/-- The two maps have the same entries in a scope. -/
def SameInScope (key : WildcardKey) (a b : BTreeMap GrantKey (Finset Privilege)) : Prop :=
  ∀ k, InWildcardScope key k → a[k]? = b[k]?

theorem SameInScope.entryAt_eq {key : WildcardKey} {a b : BTreeMap GrantKey (Finset Privilege)}
    (h : SameInScope key a b) {k : GrantKey} (hk : InWildcardScope key k) :
    entryAt a k = entryAt b k := by
  rw [entryAt, entryAt, h k hk]

theorem NormalizedScope.congr {key : WildcardKey} {shared : Finset Privilege}
    {before before' after after' : BTreeMap GrantKey (Finset Privilege)}
    (h : NormalizedScope key shared before after) (hbefore : SameInScope key before' before)
    (hafter : SameInScope key after' after) : NormalizedScope key shared before' after' where
  entries k p hk := by
    rw [hbefore.entryAt_eq hk, hafter.entryAt_eq hk]
    exact h.entries k p hk
  no_empty k hk := by
    rw [hafter k hk]
    exact h.no_empty k hk

/-- Patterns of other scopes leave a scope alone. -/
theorem sameInScope_normalizeWildcardGrants {key : WildcardKey} {inventory : Inventory}
    {patterns : List WildcardGrantPattern} (h : ∀ pattern ∈ patterns, pattern.key ≠ key)
    (grants : BTreeMap GrantKey (Finset Privilege)) :
    SameInScope key (normalizeWildcardGrants grants inventory patterns) grants := by
  intro k hk
  apply getElem?_normalizeWildcardGrants_of_not_inScope
  intro pattern hpattern hscope
  exact h pattern hpattern (hscope.eq hk)

section Scope

variable {key : WildcardKey} {names : BTreeSet String} {inventory : Inventory}
  {grants : BTreeMap GrantKey (Finset Privilege)} {patterns : List WildcardGrantPattern}
  (h : RawScope key names grants) (hwild : wildcardName ∉ names)

include h hwild

/-- Without a pattern a scope stays as it was read. -/
theorem normalizedScope_of_no_pattern (hnone : ∀ pattern ∈ patterns, pattern.key ≠ key) :
    NormalizedScope key ∅ grants (normalizeWildcardGrants grants inventory patterns) :=
  (h.unshared hwild).congr (fun _ _ => rfl) (sameInScope_normalizeWildcardGrants hnone grants)

/-- With a pattern the privileges shared by all objects move to the wildcard. -/
theorem normalizedScope_of_pattern (hnodup : (patterns.map WildcardGrantPattern.key).Nodup)
    {pattern : WildcardGrantPattern} (hpattern : pattern ∈ patterns) (hkey : pattern.key = key)
    (hinv : inventory[key.2]? = some names) (hne : names.isEmpty = false) :
    NormalizedScope key (sharedPrivileges grants pattern names.toList) grants
      (normalizeWildcardGrants grants inventory patterns) := by
  obtain ⟨l₁, l₂, rfl⟩ := List.append_of_mem hpattern
  rw [List.map_append, List.map_cons] at hnodup
  obtain ⟨-, hcons, hdisjoint⟩ := List.nodup_append.1 hnodup
  have hothers₁ : ∀ a ∈ l₁, a.key ≠ key := by
    intro a ha
    rw [← hkey]
    exact hdisjoint _ (List.mem_map_of_mem ha) _ List.mem_cons_self
  have hothers₂ : ∀ a ∈ l₂, a.key ≠ key := by
    intro a ha heq
    exact (List.nodup_cons.1 hcons).1 (List.mem_map.2 ⟨a, ha, heq.trans hkey.symm⟩)
  -- The patterns before and after the scope's own leave the scope alone.
  have hsame : SameInScope key (normalizeWildcardGrants grants inventory l₁) grants :=
    sameInScope_normalizeWildcardGrants hothers₁ grants
  have hraw : RawScope pattern.key names (normalizeWildcardGrants grants inventory l₁) := by
    rw [hkey]
    constructor
    · intro k p hk hp
      rw [hsame.entryAt_eq hk] at hp
      exact h.objects k p hk hp
    · intro k hk
      rw [hsame k hk]
      exact h.no_empty k hk
  have hinv' : inventory[(pattern.objectType, pattern.schema)]? = some names := by
    rw [← hinv, ← hkey]
    rfl
  have hown := normalizedScope_normalizeWildcard hraw hinv' hne hwild
  have hshared : sharedPrivileges (normalizeWildcardGrants grants inventory l₁) pattern
      names.toList = sharedPrivileges grants pattern names.toList := by
    ext p
    simp only [mem_sharedPrivileges, hkey, hsame.entryAt_eq (inWildcardScope_target key _)]
  rw [hshared, hkey] at hown
  have hsplit : normalizeWildcardGrants grants inventory (l₁ ++ pattern :: l₂) =
      normalizeWildcardGrants (normalizeWildcard inventory
        (normalizeWildcardGrants grants inventory l₁) pattern) inventory l₂ := by
    simp only [normalizeWildcardGrants, List.foldl_append, List.foldl_cons]
  rw [hsplit]
  exact hown.congr (fun k hk => (hsame k hk).symm) (sameInScope_normalizeWildcardGrants hothers₂ _)

end Scope

end PgRoles.Inspect
