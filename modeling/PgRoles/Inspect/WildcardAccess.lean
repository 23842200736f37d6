import PgRoles.Inspect.Normalize

/-!
# Access under normalized wildcards

Normalization of wildcards moves privileges between keys and must not change who can do what: on an
object of a scope, the object's entry and the wildcard's together hold what the object's entry held
before. The patterns are folded over the map one after the other, each reads what the ones before it
left, but a pattern touches its own scope alone. So with one pattern for each scope every pattern
finds its scope as it was inspected (`sameInScope_of_pattern`), and the order does not matter.

A scope without objects gets its pattern's privileges as they are. A pattern without a privilege
leaves an entry of none there; nothing else introduces an empty entry.
-/

set_option autoImplicit false

namespace PgRoles.Inspect

open Std PgRoles.Lib PgRoles.Core

variable {inventory : Inventory} {grants : BTreeMap GrantKey (Finset Privilege)}
  {pattern : WildcardGrantPattern} {names : BTreeSet String} {k : GrantKey} {p : Privilege}

/-- The grants as inspection reads them: no entry is of a wildcard. -/
def NoWildcardKeys (grants : BTreeMap GrantKey (Finset Privilege)) : Prop :=
  ∀ k : GrantKey, k.isWildcard = true → grants[k]? = none

/-- The key the pattern compacts to. -/
def WildcardGrantPattern.target (pattern : WildcardGrantPattern) : GrantKey :=
  wildcardTarget pattern.key wildcardName

/-- The inventory lists no object for the pattern's scope. -/
def NoObjects (inventory : Inventory) (pattern : WildcardGrantPattern) : Prop :=
  ∀ names, inventory[(pattern.objectType, pattern.schema)]? = some names → names.isEmpty = true

theorem isWildcard_target (pattern : WildcardGrantPattern) : pattern.target.isWildcard = true := by
  simp [WildcardGrantPattern.target, wildcardTarget, GrantKey.isWildcard]

theorem inWildcardScope_own (pattern : WildcardGrantPattern) :
    InWildcardScope pattern.key pattern.target :=
  inWildcardScope_target _ _

/-! ## One pattern -/

theorem normalizeWildcard_of_noObjects (h : NoObjects inventory pattern) :
    normalizeWildcard inventory grants pattern = insertVacuousWildcard grants pattern := by
  unfold normalizeWildcard
  cases hinv : inventory[(pattern.objectType, pattern.schema)]? with
  | none => rfl
  | some names =>
      dsimp only
      rw [if_pos (h names hinv)]

/-- An object that shares a privilege with the scope has an entry, which no wildcard has. -/
theorem wildcardName_not_mem_of_shared (hstar : NoWildcardKeys grants)
    (hshared : sharedPrivileges grants pattern names.toList ≠ ∅) : wildcardName ∉ names := by
  intro hmem
  obtain ⟨q, hq⟩ := Finset.nonempty_iff_ne_empty.2 hshared
  obtain ⟨-, hall⟩ := mem_sharedPrivileges.1 hq
  have hentry := getElem?_of_mem_entryAt (hall wildcardName (ExtTreeSet.mem_toList.2 hmem))
  have hnone : grants[wildcardTarget pattern.key wildcardName]? = none :=
    hstar _ (isWildcard_target pattern)
  rw [hnone] at hentry
  cases hentry

/-- Where the scope has objects, the wildcard holds what they share and each object the rest. -/
theorem mem_entryAt_normalizeWildcard (hstar : NoWildcardKeys grants)
    (hinv : inventory[(pattern.objectType, pattern.schema)]? = some names)
    (hne : names.isEmpty = false) :
    p ∈ entryAt (normalizeWildcard inventory grants pattern) k ↔
      if k = pattern.target then p ∈ sharedPrivileges grants pattern names.toList
      else p ∈ entryAt grants k ∧ ¬ (p ∈ sharedPrivileges grants pattern names.toList ∧
        ∃ name ∈ names, wildcardTarget pattern.key name = k) := by
  unfold normalizeWildcard
  simp only [hinv, hne, Bool.false_eq_true, if_false]
  split_ifs with hshared htarget htarget
  · subst htarget
    rw [hshared, entryAt_of_getElem?_none (hstar _ (isWildcard_target pattern))]
  · rw [hshared]
    simp
  · subst htarget
    have hwild := wildcardName_not_mem_of_shared hstar hshared
    rw [holds_foldl_of_removes
      (fun m : BTreeMap GrantKey (Finset Privilege) => p ∈ entryAt m pattern.target)
      (fun name => wildcardTarget pattern.key name = pattern.target ∧
        p ∈ sharedPrivileges grants pattern names.toList)
      (fun m name _ => mem_entryAt_shrinkEntry)]
    rw [entryAt, WildcardGrantPattern.target, getElem?_insert_eq, if_pos rfl, Option.getD_some,
      and_iff_left_iff_imp]
    -- No object is the wildcard, so shrinking the objects leaves the new entry alone.
    rintro - name hname ⟨heq, -⟩
    rw [wildcardTarget_inj.1 heq] at hname
    exact hwild (ExtTreeSet.mem_toList.1 hname)
  · rw [holds_foldl_of_removes (fun m : BTreeMap GrantKey (Finset Privilege) => p ∈ entryAt m k)
      (fun name => wildcardTarget pattern.key name = k ∧
        p ∈ sharedPrivileges grants pattern names.toList)
      (fun m name _ => mem_entryAt_shrinkEntry)]
    rw [entryAt, getElem?_insert_eq, if_neg fun h => htarget h.symm]
    apply and_congr_right
    intro _
    constructor
    · rintro hall ⟨hp, name, hname, hkey⟩
      exact hall name (ExtTreeSet.mem_toList.2 hname) ⟨hkey, hp⟩
    · rintro hnot name hname ⟨hkey, hp⟩
      exact hnot ⟨hp, name, ExtTreeSet.mem_toList.1 hname, hkey⟩

/-- The object's entry and the wildcard's hold together what the object's entry held. -/
theorem entryAt_union_normalizeWildcard (hstar : NoWildcardKeys grants)
    (hinv : inventory[(pattern.objectType, pattern.schema)]? = some names) {name : String}
    (hname : name ∈ names) :
    entryAt (normalizeWildcard inventory grants pattern) (wildcardTarget pattern.key name) ∪
        entryAt (normalizeWildcard inventory grants pattern) pattern.target =
      entryAt grants (wildcardTarget pattern.key name) := by
  have hne : names.isEmpty = false := by
    rw [← Bool.not_eq_true, ExtTreeSet.isEmpty_iff]
    rintro rfl
    simp at hname
  ext p
  rw [Finset.mem_union, mem_entryAt_normalizeWildcard hstar hinv hne,
    mem_entryAt_normalizeWildcard hstar hinv hne, if_pos rfl]
  have hheld : p ∈ sharedPrivileges grants pattern names.toList →
      p ∈ entryAt grants (wildcardTarget pattern.key name) := fun hp =>
    (mem_sharedPrivileges.1 hp).2 name (ExtTreeSet.mem_toList.2 hname)
  split_ifs with htarget
  · -- An object named like the wildcard has no entry, so nothing is shared.
    rw [or_self]
    constructor
    · exact hheld
    · intro hp
      rw [htarget, entryAt_of_getElem?_none (hstar _ (isWildcard_target pattern))] at hp
      exact absurd hp (Finset.notMem_empty p)
  · constructor
    · intro h
      rcases h with ⟨hp, -⟩ | hp
      · exact hp
      · exact hheld hp
    · intro hp
      by_cases hshared : p ∈ sharedPrivileges grants pattern names.toList
      · exact Or.inr hshared
      · exact Or.inl ⟨hp, fun h => hshared h.1⟩

/-- An empty entry was there before, or it is the wildcard of an empty pattern without objects. -/
theorem empty_of_normalizeWildcard
    (h : (normalizeWildcard inventory grants pattern)[k]? = some ∅) :
    grants[k]? = some ∅ ∨
      (k = pattern.target ∧ pattern.privileges = ∅ ∧ NoObjects inventory pattern) := by
  by_cases hobjects : NoObjects inventory pattern
  · rw [normalizeWildcard_of_noObjects hobjects, insertVacuousWildcard, getElem?_insert_eq] at h
    split_ifs at h with htarget
    · exact Or.inr ⟨htarget.symm, Option.some.inj h, hobjects⟩
    · exact Or.inl h
  · left
    revert h
    unfold normalizeWildcard
    split
    · next hnone =>
        refine absurd (fun names hsome => ?_) hobjects
        rw [hnone] at hsome
        cases hsome
    · next names hsome =>
        have hne : ¬ names.isEmpty = true := by
          intro hempty
          apply hobjects
          intro names' hsome'
          rw [hsome] at hsome'
          rwa [← Option.some.inj hsome']
        rw [if_neg hne]
        dsimp only
        split_ifs with hshared
        · exact id
        · -- The new wildcard entry is not empty, and an emptied object entry goes.
          refine foldl_invariant
            (fun m : BTreeMap GrantKey (Finset Privilege) => m[k]? = some ∅ → grants[k]? = some ∅)
            ?_ ?_
          · intro m hm name _ hk
            by_cases hkey : wildcardTarget pattern.key name = k
            · rw [← hkey] at hk
              exact absurd hk (shrinkEntry_ne_empty _ _ _)
            · rw [getElem?_shrinkEntry, if_neg hkey] at hk
              exact hm hk
          · intro hk
            rw [getElem?_insert_eq] at hk
            split_ifs at hk
            · exact absurd (Option.some.inj hk) hshared
            · exact hk

/-! ## Patterns of different scopes -/

/-- A pattern reads its own scope alone. -/
theorem sameInScope_normalizeWildcard {a b : BTreeMap GrantKey (Finset Privilege)}
    (h : SameInScope pattern.key a b) :
    SameInScope pattern.key (normalizeWildcard inventory a pattern)
      (normalizeWildcard inventory b pattern) := by
  have hinsert : ∀ (key : GrantKey) (s : Finset Privilege),
      SameInScope pattern.key (a.insert key s) (b.insert key s) := by
    intro key s k hk
    rw [getElem?_insert_eq, getElem?_insert_eq, h k hk]
  have hshared : ∀ l, sharedPrivileges a pattern l = sharedPrivileges b pattern l := by
    intro l
    ext p
    simp only [mem_sharedPrivileges, h.entryAt_eq (inWildcardScope_target pattern.key _)]
  have hshrink : ∀ (s : Finset Privilege) (l : List String)
      {a b : BTreeMap GrantKey (Finset Privilege)}, SameInScope pattern.key a b →
      SameInScope pattern.key
        (l.foldl (fun m name => shrinkEntry m (wildcardTarget pattern.key name) s) a)
        (l.foldl (fun m name => shrinkEntry m (wildcardTarget pattern.key name) s) b) := by
    intro s l
    induction l with
    | nil => exact fun hab => hab
    | cons name l ih =>
        intro a b hab
        refine ih fun k hk => ?_
        rw [getElem?_shrinkEntry, getElem?_shrinkEntry, hab k hk]
  unfold normalizeWildcard
  split
  · exact hinsert _ _
  · split_ifs
    · exact hinsert _ _
    · dsimp only
      rw [hshared]
      split_ifs
      · exact h
      · exact hshrink _ _ (hinsert _ _)

section Patterns

variable {patterns : List WildcardGrantPattern}
  (hnodup : (patterns.map WildcardGrantPattern.key).Nodup)

include hnodup

/-- In the scope of a pattern the result is what that pattern alone makes of the grants. -/
theorem sameInScope_of_pattern (hpattern : pattern ∈ patterns) :
    SameInScope pattern.key (normalizeWildcardGrants grants inventory patterns)
      (normalizeWildcard inventory grants pattern) := by
  obtain ⟨l₁, l₂, rfl⟩ := List.append_of_mem hpattern
  rw [List.map_append, List.map_cons] at hnodup
  obtain ⟨-, hcons, hdisjoint⟩ := List.nodup_append.1 hnodup
  have hothers₁ : ∀ a ∈ l₁, a.key ≠ pattern.key := by
    intro a ha
    exact hdisjoint _ (List.mem_map_of_mem ha) _ List.mem_cons_self
  have hothers₂ : ∀ a ∈ l₂, a.key ≠ pattern.key := by
    intro a ha heq
    exact (List.nodup_cons.1 hcons).1 (List.mem_map.2 ⟨a, ha, heq⟩)
  have hsplit : normalizeWildcardGrants grants inventory (l₁ ++ pattern :: l₂) =
      normalizeWildcardGrants (normalizeWildcard inventory
        (normalizeWildcardGrants grants inventory l₁) pattern) inventory l₂ := by
    simp only [normalizeWildcardGrants, List.foldl_append, List.foldl_cons]
  intro k hk
  rw [hsplit, sameInScope_normalizeWildcardGrants hothers₂ _ k hk]
  exact sameInScope_normalizeWildcard (sameInScope_normalizeWildcardGrants hothers₁ grants) k hk

/-- The order of the patterns does not matter. -/
theorem normalizeWildcardGrants_perm {patterns' : List WildcardGrantPattern}
    (hperm : patterns'.Perm patterns) :
    normalizeWildcardGrants grants inventory patterns' =
      normalizeWildcardGrants grants inventory patterns := by
  apply ExtTreeMap.ext_getElem?
  intro k
  by_cases hscope : ∃ pattern ∈ patterns, InWildcardScope pattern.key k
  · obtain ⟨pattern, hpattern, hk⟩ := hscope
    have hnodup' : (patterns'.map WildcardGrantPattern.key).Nodup :=
      (hperm.map WildcardGrantPattern.key).nodup_iff.2 hnodup
    rw [sameInScope_of_pattern hnodup hpattern k hk,
      sameInScope_of_pattern hnodup' (hperm.mem_iff.2 hpattern) k hk]
  · rw [getElem?_normalizeWildcardGrants_of_not_inScope,
      getElem?_normalizeWildcardGrants_of_not_inScope]
    · intro pattern hpattern hk
      exact hscope ⟨pattern, hpattern, hk⟩
    · intro pattern hpattern hk
      exact hscope ⟨pattern, hperm.mem_iff.1 hpattern, hk⟩

/-- Normalization preserves the access to every object of the inventory, leaves the other keys,
compacts what all objects share and is vacuous without objects, in whatever order the patterns come;
and the only empty entry it introduces is the wildcard of a pattern without a privilege in a scope
without objects. -/
theorem normalizeWildcardGrants_preserves (hstar : NoWildcardKeys grants) :
    (∀ (role : Grantee) (objectType : ObjectType) (schema : String) (names : BTreeSet String),
      inventory[(objectType, schema)]? = some names → ∀ name ∈ names,
        entryAt (normalizeWildcardGrants grants inventory patterns)
            ⟨role, objectType, some schema, some name⟩ ∪
          entryAt (normalizeWildcardGrants grants inventory patterns)
            ⟨role, objectType, some schema, some wildcardName⟩ =
        entryAt grants ⟨role, objectType, some schema, some name⟩) ∧
    (∀ k, (∀ pattern ∈ patterns, ¬ InWildcardScope pattern.key k) →
      (normalizeWildcardGrants grants inventory patterns)[k]? = grants[k]?) ∧
    (∀ k, (normalizeWildcardGrants grants inventory patterns)[k]? = some ∅ →
      grants[k]? = some ∅ ∨ ∃ pattern ∈ patterns,
        k = pattern.target ∧ pattern.privileges = ∅ ∧ NoObjects inventory pattern) ∧
    (∀ pattern ∈ patterns, ∀ names : BTreeSet String,
      inventory[(pattern.objectType, pattern.schema)]? = some names → names.isEmpty = false →
        ∀ p, p ∈ entryAt (normalizeWildcardGrants grants inventory patterns) pattern.target ↔
          p ∈ pattern.privileges ∧
            ∀ name ∈ names, p ∈ entryAt grants (wildcardTarget pattern.key name)) ∧
    (∀ pattern ∈ patterns, NoObjects inventory pattern →
      (normalizeWildcardGrants grants inventory patterns)[pattern.target]? =
        some pattern.privileges) ∧
    ∀ patterns', patterns'.Perm patterns →
      normalizeWildcardGrants grants inventory patterns' =
        normalizeWildcardGrants grants inventory patterns := by
  refine ⟨fun role objectType schema names hinv name hname => ?_, fun k hk => ?_, fun k hk => ?_,
    fun pattern hpattern names hinv hne p => ?_, fun pattern hpattern hobjects => ?_,
    fun patterns' hperm => normalizeWildcardGrants_perm hnodup hperm⟩
  · by_cases hscope : ∃ pattern ∈ patterns,
        InWildcardScope pattern.key ⟨role, objectType, some schema, some name⟩
    · obtain ⟨pattern, hpattern, hrole, htype, hschema⟩ := hscope
      dsimp only at hrole htype hschema
      obtain rfl := Option.some.inj hschema
      subst hrole
      subst htype
      have hsame : SameInScope pattern.key (normalizeWildcardGrants grants inventory patterns)
          (normalizeWildcard inventory grants pattern) := sameInScope_of_pattern hnodup hpattern
      have hunion := entryAt_union_normalizeWildcard hstar hinv hname
      rw [← hsame.entryAt_eq (inWildcardScope_target _ _),
        ← hsame.entryAt_eq (inWildcardScope_own pattern)] at hunion
      exact hunion
    · have hnone : ∀ n, ∀ pattern ∈ patterns,
          ¬ InWildcardScope pattern.key ⟨role, objectType, some schema, some n⟩ :=
        fun n pattern hpattern hin => hscope ⟨pattern, hpattern, hin⟩
      rw [entryAt, entryAt, getElem?_normalizeWildcardGrants_of_not_inScope (hnone _),
        getElem?_normalizeWildcardGrants_of_not_inScope (hnone _)]
      rw [hstar ⟨role, objectType, some schema, some wildcardName⟩ (by simp [GrantKey.isWildcard])]
      exact Finset.union_empty _
  · exact getElem?_normalizeWildcardGrants_of_not_inScope hk grants
  · by_cases hscope : ∃ pattern ∈ patterns, InWildcardScope pattern.key k
    · obtain ⟨pattern, hpattern, hin⟩ := hscope
      rw [sameInScope_of_pattern hnodup hpattern k hin] at hk
      rcases empty_of_normalizeWildcard hk with hbefore | hvacuous
      · exact Or.inl hbefore
      · exact Or.inr ⟨pattern, hpattern, hvacuous⟩
    · rw [getElem?_normalizeWildcardGrants_of_not_inScope] at hk
      · exact Or.inl hk
      · exact fun pattern hpattern hin => hscope ⟨pattern, hpattern, hin⟩
  · have hsame : SameInScope pattern.key (normalizeWildcardGrants grants inventory patterns)
        (normalizeWildcard inventory grants pattern) := sameInScope_of_pattern hnodup hpattern
    rw [hsame.entryAt_eq (inWildcardScope_own pattern),
      mem_entryAt_normalizeWildcard hstar hinv hne, if_pos rfl, mem_sharedPrivileges]
    simp only [ExtTreeSet.mem_toList]
  · rw [sameInScope_of_pattern hnodup hpattern _ (inWildcardScope_own pattern),
      normalizeWildcard_of_noObjects hobjects, insertVacuousWildcard, WildcardGrantPattern.target,
      getElem?_insert_eq, if_pos rfl]

end Patterns

/-! ### Two tables, and a pattern without a privilege -/

/-- `reader` reads both tables of `app` and writes one of them. -/
def twoTables : BTreeMap GrantKey (Finset Privilege) :=
  extendEntries ∅
    [(⟨.role "reader", .table, some "app", some "logs"⟩, {.select}),
      (⟨.role "reader", .table, some "app", some "orders"⟩, {.select, .insert})]

/-- A schema with two tables. -/
def twoTablesInventory : Inventory :=
  ExtTreeMap.ofList [((.table, "app"), ExtTreeSet.ofList ["logs", "orders"] compare)] compare

/-- `SELECT` on all tables of `app`, and nothing on all its sequences. -/
def readerPatterns : List WildcardGrantPattern :=
  [⟨"reader", .table, "app", {.select}⟩, ⟨"reader", .sequence, "app", ∅⟩]

theorem noWildcardKeys_twoTables : NoWildcardKeys twoTables := by
  intro k hk
  rw [← Option.not_isSome_iff_eq_none, twoTables, isSome_extendEntries]
  rintro (h | ⟨s, hs⟩)
  · simp at h
  · simp only [List.mem_cons, Prod.mk.injEq, List.not_mem_nil, or_false] at hs
    rcases hs with ⟨rfl, -⟩ | ⟨rfl, -⟩ <;> revert hk <;> decide

theorem twoTables_preserved :
    entryAt (normalizeWildcardGrants twoTables twoTablesInventory readerPatterns)
        ⟨.role "reader", .table, some "app", some "orders"⟩ ∪
      entryAt (normalizeWildcardGrants twoTables twoTablesInventory readerPatterns)
        ⟨.role "reader", .table, some "app", some wildcardName⟩ =
    entryAt twoTables ⟨.role "reader", .table, some "app", some "orders"⟩ :=
  (@normalizeWildcardGrants_preserves twoTablesInventory twoTables readerPatterns (by decide)
    noWildcardKeys_twoTables).1 (.role "reader") .table "app" _ rfl "orders" (by simp)

/-- The pattern of no privilege introduces an entry of none for the sequences, which `app` lacks. -/
theorem emptyPattern_introduces :
    NoWildcardKeys twoTables ∧ (readerPatterns.map WildcardGrantPattern.key).Nodup ∧
      ¬ ∀ k : GrantKey,
        (normalizeWildcardGrants twoTables twoTablesInventory readerPatterns)[k]? = some ∅ →
          twoTables[k]? = some ∅ := by
  refine ⟨noWildcardKeys_twoTables, by decide, fun hall => ?_⟩
  have hnone : twoTables[(⟨.role "reader", .sequence, some "app", some "*"⟩ : GrantKey)]? = none :=
    noWildcardKeys_twoTables _ rfl
  have hempty := hall ⟨.role "reader", .sequence, some "app", some "*"⟩ (by decide +kernel)
  rw [hnone] at hempty
  cases hempty

end PgRoles.Inspect
