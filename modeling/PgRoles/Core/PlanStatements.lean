import PgRoles.Core.PlanSpec
import PgRoles.Core.RevokeSpec
import PgRoles.Core.ExpandSpec

/-!
# Statements of nothing

Each producer of the diff compares a difference with the empty set before it makes a change of it,
with two exceptions: the privileges of a target, or of a default-privilege rule, that the current
graph does not hold are granted whole. The passes over the plan keep a change, drop it or cut it
down to a part they find non-empty. A plan therefore states nothing exactly where the manifest
declares a new target without a privilege (`planChanges_nonVacuous_iff`); the manifest's schema
asks for at least one, and `validate_bounds` looks at the upper bound alone.
-/

set_option autoImplicit false

namespace PgRoles.Core

open Std PgRoles.Lib

/-- The change has a privilege, an attribute or an option to state, where it has a list of them. -/
def Change.NonVacuous : Change → Prop
  | .grant _ privileges | .revoke _ privileges _ | .setDefaultPrivilege _ privileges
  | .revokeDefaultPrivilege _ privileges | .ensureSchemaOwnerPrivileges _ _ privileges =>
      privileges ≠ ∅
  | .alterRole _ attributes => attributes ≠ []
  | .updateMemberOptions _ _ _ inherit admin _ => inherit.isSome ∨ admin.isSome
  | _ => True

variable {current desired : RoleGraph} {c : Change}

/-! ## The diff -/

theorem nonVacuous_of_mem_removeAllEdges {pair : String × String}
    (h : c ∈ removeAllEdges current pair) : c.NonVacuous := by
  rcases mem_removeAllEdges.1 h with ⟨-, rfl⟩ | ⟨_, _, -, -, -, rfl⟩ <;> trivial

theorem nonVacuous_of_mem_memberAdds (h : c ∈ memberAdds current desired) : c.NonVacuous := by
  obtain ⟨pair, edge, -, hc⟩ := mem_memberAdds.1 h
  rcases mem_pairAdds.1 hc with ⟨-, rfl⟩ | ⟨_, -, -, ⟨-, rfl⟩ | ⟨grantors, -, hc⟩⟩
  · trivial
  · trivial
  · obtain ⟨hsome, rfl⟩ := mem_optionIncreases.1 hc
    exact hsome

theorem nonVacuous_of_mem_memberRemoves (h : c ∈ memberRemoves current desired) :
    c.NonVacuous := by
  rcases mem_memberRemoves.1 h with ⟨pair, edge, -, hc⟩ | ⟨pair, edge, -, -, hc⟩
  · rcases mem_pairRemoves.1 hc with ⟨_, -, -, ⟨-, rfl⟩ | ⟨grantors, -, hc⟩⟩
    · trivial
    · obtain ⟨g, -, hsome, rfl⟩ := mem_optionReductions.1 hc
      exact hsome
  · exact nonVacuous_of_mem_removeAllEdges hc

/-- Splitting a non-empty revoke by grantor leaves no empty part. -/
theorem nonVacuous_of_mem_pushRevokesOnTarget {k : GrantKey} {s : Finset Privilege} (hs : s ≠ ∅)
    (h : c ∈ pushRevokesOnTarget current desired k s) : c.NonVacuous := by
  unfold pushRevokesOnTarget at h
  split at h
  · rw [List.mem_singleton.1 h]
    exact hs
  · split at h
    · rw [List.mem_singleton.1 h]
      exact hs
    · rcases List.mem_append.1 h with h | h
      · obtain ⟨g, t, -, hc⟩ := mem_flatMap_toList.1 h
        split_ifs at hc with hempty
        · simp at hc
        · rw [List.mem_singleton.1 hc]
          exact hempty
      · split_ifs at h with hempty
        · simp at h
        · rw [List.mem_singleton.1 h]
          exact hempty

theorem nonVacuous_of_mem_plannedRevokes (h : c ∈ plannedRevokes current desired) :
    c.NonVacuous := by
  obtain ⟨k, s, hs, hc⟩ := mem_flatMap_toList.1 (List.mem_of_mem_filter h)
  have hne : s ≠ ∅ := accumulatedRevokes_nonempty hs
  unfold pushRevokesSplitByGrantor at hc
  split at hc
  · -- An expanded wildcard: each recorded object gets what it shares with the revoke.
    obtain ⟨a, held, -, hc⟩ := mem_flatMap_toList.1 hc
    simp only at hc
    split_ifs at hc with hinherent hempty
    · simp at hc
    · simp at hc
    · exact nonVacuous_of_mem_pushRevokesOnTarget hempty hc
  · exact nonVacuous_of_mem_pushRevokesOnTarget hne hc

/-- Where the recorded default privileges are not empty, none of the accumulated revokes is. -/
theorem accumulatedDefaultRevokes_nonempty (hcurrent : NoEmptyEntries current.defaultPrivileges)
    {k : DefaultPrivKey} {s : Finset Privilege}
    (h : (accumulatedDefaultRevokes current desired)[k]? = some s) : s ≠ ∅ := by
  have hentries : ∀ t, (k, t) ∈ declaredDefaultRevokes current desired ++
      undeclaredDefaultRevokes current desired ++ absenceDefaultRevokes current desired →
      t ≠ ∅ := by
    intro t ht
    simp only [List.mem_append] at ht
    rcases ht with (ht | ht) | ht
    · obtain ⟨a, declared, -, ht⟩ := mem_flatMap_toList.1 ht
      dsimp only at ht
      split at ht
      · simp at ht
      · split_ifs at ht with hpublic hempty
        · simp at ht
        · simp at ht
        · obtain ⟨rfl, rfl⟩ := Prod.mk.inj (List.mem_singleton.1 ht)
          exact hempty
    · obtain ⟨a, held, hheld, ht⟩ := mem_flatMap_toList.1 ht
      split_ifs at ht
      · simp at ht
      · simp at ht
      · obtain ⟨rfl, rfl⟩ := Prod.mk.inj (List.mem_singleton.1 ht)
        intro hempty
        exact hcurrent k (hempty ▸ hheld)
    · obtain ⟨a, absent, -, ht⟩ := mem_flatMap_toList.1 ht
      dsimp only at ht
      split_ifs at ht with hempty
      · simp at ht
      · obtain ⟨rfl, rfl⟩ := Prod.mk.inj (List.mem_singleton.1 ht)
        exact hempty
  -- The entry is the union of what the branches contribute, and some branch does.
  have hsome : (accumulatedDefaultRevokes current desired)[k]?.isSome := by simp [h]
  rw [accumulatedDefaultRevokes, isSome_extendEntries] at hsome
  rcases hsome with hnone | ⟨t, ht⟩
  · simp at hnone
  · obtain ⟨p, hp⟩ := Finset.nonempty_iff_ne_empty.2 (hentries t ht)
    have hmem : p ∈ entryAt (accumulatedDefaultRevokes current desired) k := by
      rw [accumulatedDefaultRevokes, mem_entryAt_extendEntries]
      exact Or.inr ⟨t, ht, hp⟩
    rw [entryAt_of_getElem? h] at hmem
    exact Finset.ne_empty_of_mem hmem

/-- A new grant target that the graph holds without a privilege. -/
def GrantsNothing (current desired : RoleGraph) (k : GrantKey) : Prop :=
  desired.grants[k]? = some ∅ ∧ current.grants[k]? = none

/-- A new default-privilege rule that the graph holds without a privilege. -/
def SetsNothing (current desired : RoleGraph) (k : DefaultPrivKey) : Prop :=
  desired.defaultPrivileges[k]? = some ∅ ∧ current.defaultPrivileges[k]? = none

/-- The changes of the diff that state nothing: the whole sets of new entries that have none. -/
theorem nonVacuous_or_of_mem_diffResolved (hcurrent : NoEmptyEntries current.defaultPrivileges)
    (h : c ∈ diffResolved current desired) :
    c.NonVacuous ∨ (∃ k, GrantsNothing current desired k ∧ c = .grant k ∅) ∨
      ∃ k, SetsNothing current desired k ∧ c = .setDefaultPrivilege k ∅ := by
  simp only [diffResolved, List.mem_append] at h
  rcases h with (((((((((h | h) | h) | h) | h) | h) | h) | h) | h) | h) | h
  · obtain ⟨n, s, -, -, rfl⟩ := mem_roleCreates.1 h
    exact Or.inl trivial
  · obtain ⟨n, s, -, ⟨-, hconfig, rfl⟩ | ⟨t, -, ⟨hne, rfl⟩ | ⟨-, rfl⟩⟩⟩ := mem_roleAlters.1 h
    · left
      intro hnil
      rw [createdConfig, List.map_eq_nil_iff, ExtTreeMap.toList_eq_nil_iff] at hnil
      simp [hnil] at hconfig
    · exact Or.inl hne
    · exact Or.inl trivial
  · obtain ⟨n, d, -, ⟨-, rfl⟩ | ⟨t, o, -, -, -, rfl⟩⟩ := mem_schemaChanges.1 h
    · exact Or.inl trivial
    · exact Or.inl trivial
  · obtain ⟨n, d, t, o, -, -, -, hne, rfl⟩ := mem_schemaGrants.1 h
    exact Or.inl hne
  · obtain ⟨k, s, hs, hnew, rfl⟩ := mem_grantChanges.1 h
    by_cases hempty : s \ entryAt current.grants k = ∅
    · have hnone : current.grants[k]? = none := hnew.resolve_right fun hne => hne hempty
      rw [entryAt_of_getElem?_none hnone, Finset.sdiff_empty] at hempty
      subst hempty
      exact Or.inr (Or.inl ⟨k, ⟨hs, hnone⟩, by rw [Finset.empty_sdiff]⟩)
    · exact Or.inl hempty
  · obtain ⟨k, s, hs, hnew, rfl⟩ := mem_defaultSets.1 h
    by_cases hempty : s \ entryAt current.defaultPrivileges k = ∅
    · have hnone : current.defaultPrivileges[k]? = none := hnew.resolve_right fun hne => hne hempty
      rw [entryAt_of_getElem?_none hnone, Finset.sdiff_empty] at hempty
      subst hempty
      exact Or.inr (Or.inr ⟨k, ⟨hs, hnone⟩, by rw [Finset.empty_sdiff]⟩)
    · exact Or.inl hempty
  · exact Or.inl (nonVacuous_of_mem_plannedRevokes h)
  · exact Or.inl (nonVacuous_of_mem_memberRemoves h)
  · exact Or.inl (nonVacuous_of_mem_memberAdds h)
  · obtain ⟨k, s, hs, rfl⟩ := mem_defaultRevokes.1 h
    exact Or.inl (accumulatedDefaultRevokes_nonempty hcurrent hs)
  · obtain ⟨n, s, -, -, rfl⟩ := mem_roleDrops.1 h
    exact Or.inl trivial

/-! ## The passes -/

section Passes

variable {m : PolicyManifest} {e : ExpandedManifest} {mode : ReconciliationMode}
  {full : List Change} {resolved : RoleGraph} {c' : Change}

theorem nonVacuous_of_retirement (h : c.phase = .retirement) : c.NonVacuous := by
  cases c with
  | reassignOwned _ _ | dropOwned _ | terminateSessions _ => trivial
  | _ => cases h

/-- Additive mode leaves an option change only while it still increases an option. -/
theorem nonVacuous_of_keepIncreases (hc : c.NonVacuous) (h : keepIncreases c = some c') :
    c'.NonVacuous := by
  cases c with
  | updateMemberOptions role member grantor inherit admin binding =>
      simp only [keepIncreases] at h
      split_ifs at h with hnone
      rw [← Option.some.inj h]
      rw [Bool.and_eq_true, Option.isNone_iff_eq_none, Option.isNone_iff_eq_none] at hnone
      change (dropReduction inherit).isSome = true ∨ (dropReduction admin).isSome = true
      rw [Option.isSome_iff_ne_none, Option.isSome_iff_ne_none]
      by_contra hboth
      rw [not_or, not_not, not_not] at hboth
      exact hnone hboth
  | _ =>
      rw [← Option.some.inj h]
      exact hc

theorem nonVacuous_of_mem_revokeUnlessEmpty {k : GrantKey} {s : Finset Privilege}
    {g : Option String} (h : c ∈ revokeUnlessEmpty k s g) : c.NonVacuous := by
  unfold revokeUnlessEmpty at h
  split_ifs at h with hempty
  · exact absurd h List.not_mem_nil
  · rw [List.mem_singleton.1 h]
    exact hempty

theorem nonVacuous_of_mem_enforcedRevokes {k : GrantKey} {s : Finset Privilege}
    {g : Option String} (h : c ∈ enforcedRevokes resolved k s g) : c.NonVacuous := by
  unfold enforcedRevokes at h
  dsimp only at h
  split at h
  · rcases List.mem_append.1 h with h | h
    · exact nonVacuous_of_mem_revokeUnlessEmpty h
    · obtain ⟨a, absent, -, hc⟩ := mem_flatMap_toList.1 h
      split_ifs at hc
      · exact nonVacuous_of_mem_revokeUnlessEmpty hc
      · exact absurd hc List.not_mem_nil
  · exact nonVacuous_of_mem_revokeUnlessEmpty h

theorem nonVacuous_of_mem_preserveGrants {roles : List RoleDefinition} (hc : c.NonVacuous)
    (h : c' ∈ preserveGrants roles resolved c) : c'.NonVacuous := by
  cases c with
  | revoke key privileges grantor =>
      rw [preserveGrants] at h
      split_ifs at h
      · exact nonVacuous_of_mem_enforcedRevokes h
      · rw [List.mem_singleton.1 h]
        exact hc
  | _ =>
      rw [List.mem_singleton.1 h]
      exact hc

theorem nonVacuous_of_mem_keptByMode (hc : c.NonVacuous) (h : c' ∈ keptByMode full mode c) :
    c'.NonVacuous := by
  cases mode with
  | authoritative =>
      rw [List.mem_singleton.1 h]
      exact hc
  | additive =>
      have hkept := List.mem_of_mem_filter h
      exact nonVacuous_of_keepIncreases hc (Option.mem_toList.1 hkept)
  | adopt =>
      rw [keptByMode] at h
      split_ifs at h
      · exact absurd h List.not_mem_nil
      · rw [List.mem_singleton.1 h]
        exact hc

theorem nonVacuous_of_mem_passedChange (hc : c.NonVacuous)
    (h : c' ∈ passedChange full e mode resolved c) : c'.NonVacuous := by
  obtain ⟨a, ha, hc'⟩ := List.mem_flatMap.1 h
  exact nonVacuous_of_mem_preserveGrants
    (nonVacuous_of_mem_keptByMode hc (List.mem_of_mem_filter ha)) hc'

/-- No pass makes a change vacuous. -/
theorem nonVacuous_of_mem_plannedChange (hc : c.NonVacuous)
    (h : c' ∈ plannedChange current desired m e mode c) : c'.NonVacuous := by
  obtain ⟨a, ha, hc'⟩ := List.mem_flatMap.1 h
  apply nonVacuous_of_mem_passedChange (c := a) _ hc'
  obtain ⟨steps, heq, hsteps⟩ := withRetirement_eq (retirementByRole m.retirements) c
  rw [heq, List.mem_append] at ha
  rcases ha with ha | ha
  · exact nonVacuous_of_retirement (hsteps a ha)
  · rw [List.mem_singleton.1 ha]
    exact hc

/-- A grant passes every mode and filter. -/
theorem plannedChange_grant (k : GrantKey) (s : Finset Privilege) :
    plannedChange current desired m e mode (.grant k s) = [.grant k s] := by
  cases mode <;> rfl

/-- The plan transfers the rule's schema to the rule's owner. -/
def TransfersScope (current desired : RoleGraph) (k : DefaultPrivKey) : Prop :=
  ∃ schema d t, k.scope = .schema schema ∧ desired.schemas[schema]? = some d ∧
    current.schemas[schema]? = some t ∧ d.owner = some k.owner ∧ t.owner ≠ some k.owner

theorem transfersSchema_fullPlan_iff {name owner : String} :
    transfersSchema (fullPlan current desired m) name owner = true ↔
      ∃ d t, desired.schemas[name]? = some d ∧ current.schemas[name]? = some t ∧
        d.owner = some owner ∧ t.owner ≠ some owner := by
  have hbucket : .alterSchemaOwner name owner ∈ fullPlan current desired m ↔
      .alterSchemaOwner name owner ∈ schemaChanges current (plannedGraph current desired) := by
    have hfilter := filter_applyRoleRetirements (q := (· == .schema)) rfl
      (diff current (desired.resolveRoutineAliases current.routineAliases)) m.retirements
    have hself : ∀ l : List Change, Change.alterSchemaOwner name owner ∈ l ↔
        Change.alterSchemaOwner name owner ∈ l.filter fun c => c.phase == .schema := by
      intro l
      simp [Change.phase]
    rw [hself, fullPlan, hfilter, diff, filter_phase_diffResolved (· == .schema)]
    simp [plannedGraph]
  have hschemas : (plannedGraph current desired).schemas = desired.schemas := by
    rw [plannedGraph, resolveRoutineAliases_schemas, resolveRoutineAliases_schemas]
  rw [transfersSchema, List.contains_iff_mem, hbucket, mem_schemaChanges, hschemas]
  constructor
  · rintro ⟨n, d, hd, ⟨-, heq⟩ | ⟨t, o, ht, ho, hne, heq⟩⟩
    · cases heq
    · cases heq
      exact ⟨d, t, hd, ht, ho, hne⟩
  · rintro ⟨d, t, hd, ht, ho, hne⟩
    exact ⟨name, d, hd, Or.inr ⟨t, owner, ht, ho, hne, rfl⟩⟩

/-- A default privilege passes, except in additive mode where its owner would need the schema. -/
theorem mem_plannedChange_setDefault {k : DefaultPrivKey} {s : Finset Privilege} :
    c ∈ plannedChange current desired m e mode (.setDefaultPrivilege k s) ↔
      c = .setDefaultPrivilege k s ∧ ¬ (mode = .additive ∧ TransfersScope current desired k) := by
  obtain ⟨owner, scope, onType, grantee⟩ := k
  cases mode with
  | authoritative => exact List.mem_singleton.trans (by simp)
  | adopt => exact List.mem_singleton.trans (by simp)
  | additive =>
      cases scope with
      | global => exact List.mem_singleton.trans (by simp [TransfersScope])
      | schema schema =>
          -- Only the mode looks at the owner; the other passes leave a default privilege alone.
          have hplanned : plannedChange current desired m e .additive
              (.setDefaultPrivilege ⟨owner, .schema schema, onType, grantee⟩ s) =
                passedChange (fullPlan current desired m) e .additive
                  (desired.resolveRoutineAliases current.routineAliases)
                  (.setDefaultPrivilege ⟨owner, .schema schema, onType, grantee⟩ s) := by
            exact List.flatMap_singleton _ _
          have hkept : keptByMode (fullPlan current desired m) .additive
              (.setDefaultPrivilege ⟨owner, .schema schema, onType, grantee⟩ s) =
                if transfersSchema (fullPlan current desired m) schema owner = true then []
                else [.setDefaultPrivilege ⟨owner, .schema schema, onType, grantee⟩ s] := by
            cases htransfer : transfersSchema (fullPlan current desired m) schema owner <;>
              simp [keptByMode, keepIncreases, keptByAdditive, htransfer]
          have hscope : TransfersScope current desired ⟨owner, .schema schema, onType, grantee⟩ ↔
              transfersSchema (fullPlan current desired m) schema owner = true := by
            rw [transfersSchema_fullPlan_iff]
            simp [TransfersScope]
          rw [hplanned, passedChange, hkept, hscope]
          split_ifs with h
          · simp [h]
          · simp [h, keptForExternal, preserveGrants]

end Passes

/-! ## Rules without a privilege -/

/-- Where a grant rule lands: the plan resolves the routine's spelling, and the diff once more. -/
def plannedTarget (current : RoleGraph) (grant : Grant) : GrantKey :=
  resolveKey current.routineAliases
    (resolveKey current.routineAliases (grantKeyFromManifest grant))

/-- The target has a rule, and no rule of it lists a privilege. -/
def DeclaresNothing (current : RoleGraph) (grants : List Grant) (k : GrantKey) : Prop :=
  (∃ grant ∈ grants, grant.ensure = .present ∧ plannedTarget current grant = k) ∧
    ∀ grant ∈ grants, grant.ensure = .present → plannedTarget current grant = k →
      grant.privileges = []

/-- The default-privilege rule that a grant of a declaration is about. -/
def DeclaresDefaultRule (defaultOwner : Option String) (d : DefaultPrivilege)
    (grant : DefaultPrivilegeGrant) (k : DefaultPrivKey) : Prop :=
  grant ∈ d.grant ∧ grant.ensure = .present ∧ ∃ role scope, grant.role = some role ∧
    d.resolvedScope = .ok scope ∧
    k = ⟨defaultPrivilegeOwner defaultOwner d, scope, grant.onType, .parse role⟩

/-- The default-privilege rule is declared, and no declaration of it lists a privilege. -/
def DefaultsNothing (defaultOwner : Option String) (defaults : List DefaultPrivilege)
    (k : DefaultPrivKey) : Prop :=
  (∃ d ∈ defaults, ∃ grant, DeclaresDefaultRule defaultOwner d grant k) ∧
    ∀ d ∈ defaults, ∀ grant, DeclaresDefaultRule defaultOwner d grant k → grant.privileges = []

section Rules

variable {m : PolicyManifest} {e : ExpandedManifest} {defaultOwner : Option String}
  (hgraph : RoleGraph.fromExpanded e defaultOwner = .ok desired)

include hgraph

/-- An empty entry of the planned grants is a target whose rules list no privilege. -/
theorem plannedGrants_eq_empty_iff {k : GrantKey} :
    (plannedGraph current desired).grants[k]? = some ∅ ↔ DeclaresNothing current e.grants k := by
  have hsome : (plannedGraph current desired).grants[k]?.isSome ↔
      ∃ grant ∈ e.grants, grant.ensure = .present ∧ plannedTarget current grant = k := by
    rw [plannedGraph, isSome_resolvedGrants]
    constructor
    · intro hresolved
      obtain ⟨a, ha, hsome⟩ := hresolved
      obtain ⟨b, hb, hsome⟩ := isSome_resolvedGrants.1 hsome
      obtain ⟨grant, hgrant, hensure, hkey⟩ := (isSome_grants hgraph).1 hsome
      exact ⟨grant, hgrant, hensure, by rw [plannedTarget, hkey, hb, ha]⟩
    · intro hdeclared
      obtain ⟨grant, hgrant, hensure, hkey⟩ := hdeclared
      exact ⟨_, hkey, isSome_resolvedGrants.2
        ⟨_, rfl, (isSome_grants hgraph).2 ⟨grant, hgrant, hensure, rfl⟩⟩⟩
  have hmem : ∀ p, p ∈ entryAt (plannedGraph current desired).grants k ↔
      ∃ grant ∈ e.grants, grant.ensure = .present ∧ plannedTarget current grant = k ∧
        p ∈ grant.privileges := by
    intro p
    rw [plannedGraph, mem_entryAt_resolvedGrants]
    constructor
    · intro hresolved
      obtain ⟨a, ha, hp⟩ := hresolved
      obtain ⟨b, hb, hp⟩ := mem_entryAt_resolvedGrants.1 hp
      obtain ⟨grant, hgrant, hensure, hkey, hp⟩ := (mem_entryAt_grants hgraph).1 hp
      exact ⟨grant, hgrant, hensure, by rw [plannedTarget, hkey, hb, ha], hp⟩
    · intro hdeclared
      obtain ⟨grant, hgrant, hensure, hkey, hp⟩ := hdeclared
      exact ⟨_, hkey, mem_entryAt_resolvedGrants.2
        ⟨_, rfl, (mem_entryAt_grants hgraph).2 ⟨grant, hgrant, hensure, rfl, hp⟩⟩⟩
  rw [getElem?_eq_some_empty_iff, hsome, DeclaresNothing]
  apply and_congr_right
  intro _
  constructor
  · intro hnone grant hgrant hensure hkey
    apply List.eq_nil_iff_forall_not_mem.2
    intro p hp
    exact hnone p ((hmem p).2 ⟨grant, hgrant, hensure, hkey, hp⟩)
  · intro hnil p hp
    obtain ⟨grant, hgrant, hensure, hkey, hp⟩ := (hmem p).1 hp
    rw [hnil grant hgrant hensure hkey] at hp
    exact absurd hp List.not_mem_nil

/-- An empty entry of the default privileges is a rule whose declarations list no privilege. -/
theorem defaultPrivileges_eq_empty_iff {k : DefaultPrivKey} :
    desired.defaultPrivileges[k]? = some ∅ ↔
      DefaultsNothing defaultOwner e.defaultPrivileges k := by
  obtain ⟨entries, hentries, rfl⟩ := of_fromExpanded_eq_ok hgraph
  -- The entries of the map are the declared sets.
  have hset : ∀ s, (k, s) ∈ entriesWith .present entries.flatten ↔
      ∃ d ∈ e.defaultPrivileges, ∃ grant, DeclaresDefaultRule defaultOwner d grant k ∧
        s = grant.privileges.toFinset := by
    intro s
    constructor
    · intro hs
      obtain ⟨entry, hentry, heq⟩ := List.mem_map.1 hs
      obtain ⟨rfl, rfl⟩ := Prod.mk.inj heq
      obtain ⟨hentry, hensure⟩ := List.mem_filter.1 hentry
      obtain ⟨l, hl, hentry⟩ := List.mem_flatten.1 hentry
      obtain ⟨d, hd, hok⟩ := exists_of_mem_mapM hentries hl
      obtain ⟨scope, hscope, hok⟩ := bind_eq_ok.1 hok
      obtain ⟨grant, hgrant, hok⟩ := exists_of_mem_mapM hok hentry
      cases hrole : grant.role with
      | none =>
          simp only [hrole] at hok
          cases hok
      | some role =>
          simp only [hrole] at hok
          rw [← Except.ok.inj hok] at hensure ⊢
          exact ⟨d, hd, grant, ⟨hgrant, by simpa using hensure, role, scope, hrole, hscope, rfl⟩,
            rfl⟩
    · intro hdeclared
      obtain ⟨d, hd, grant, ⟨hgrant, hensure, role, scope, hrole, hscope, hkey⟩, rfl⟩ := hdeclared
      obtain ⟨l, hl, hok⟩ := exists_of_mem_of_mapM hentries hd
      obtain ⟨scope', hscope', hok⟩ := bind_eq_ok.1 hok
      obtain rfl : scope = scope' := Except.ok.inj (hscope.symm.trans hscope')
      obtain ⟨entry, hentry, hok⟩ := exists_of_mem_of_mapM hok hgrant
      simp only [hrole] at hok
      have heq := (Except.ok.inj hok).symm
      refine List.mem_map.2 ⟨entry, List.mem_filter.2 ⟨List.mem_flatten.2 ⟨l, hl, hentry⟩, ?_⟩, ?_⟩
      · rw [heq]
        simpa using hensure
      · rw [heq, hkey]
  have hempty : ∀ k : DefaultPrivKey,
      (∅ : BTreeMap DefaultPrivKey (Finset Privilege))[k]?.isSome = false := by simp
  rw [getElem?_eq_some_empty_iff, isSome_extendEntries, hempty, DefaultsNothing]
  simp only [mem_entryAt_extendEntries, hset, Bool.false_eq_true, false_or]
  constructor
  · rintro ⟨⟨s, d, hd, grant, hgrant, -⟩, hnone⟩
    refine ⟨⟨d, hd, grant, hgrant⟩, fun d hd grant hgrant => ?_⟩
    apply List.eq_nil_iff_forall_not_mem.2
    intro p hp
    exact hnone p (Or.inr ⟨_, ⟨d, hd, grant, hgrant, rfl⟩, List.mem_toFinset.2 hp⟩)
  · rintro ⟨⟨d, hd, grant, hgrant⟩, hnil⟩
    refine ⟨⟨_, d, hd, grant, hgrant, rfl⟩, fun p hp => ?_⟩
    rcases hp with hp | ⟨s, ⟨d, hd, grant, hgrant, rfl⟩, hp⟩
    · simp [entryAt] at hp
    · rw [hnil d hd grant hgrant] at hp
      simp at hp

end Rules

/-- No change of a plan states nothing exactly when the rules that list no privilege are about
targets and rules the current graph has already, or, in additive mode, about schemas whose transfer
to the rule's owner is skipped. -/
theorem planChanges_nonVacuous_iff {m : PolicyManifest} {e : ExpandedManifest}
    (hgraph : RoleGraph.fromExpanded e m.defaultOwner = .ok desired)
    (hcurrent : NoEmptyEntries current.defaultPrivileges) (mode : ReconciliationMode) :
    (∀ c ∈ planChanges current desired m e mode, c.NonVacuous) ↔
      (∀ k, DeclaresNothing current e.grants k → k ∈ current.grants) ∧
        ∀ k, DefaultsNothing m.defaultOwner e.defaultPrivileges k →
          k ∈ current.defaultPrivileges ∨
            (mode = .additive ∧ TransfersScope current desired k) := by
  have hdefaults : (plannedGraph current desired).defaultPrivileges = desired.defaultPrivileges := by
    rw [plannedGraph, resolveRoutineAliases_defaultPrivileges,
      resolveRoutineAliases_defaultPrivileges]
  rw [planChanges_eq]
  constructor
  · intro hall
    refine ⟨fun k hk => ?_, fun k hk => ?_⟩
    · by_contra hnew
      have hentry := (plannedGrants_eq_empty_iff hgraph).2 hk
      -- The new target is granted its whole set, which is empty.
      have hmem : Change.grant k ∅ ∈ diffResolved current (plannedGraph current desired) := by
        have hgrant : Change.grant k ∅ ∈ grantChanges current (plannedGraph current desired) :=
          mem_grantChanges.2 ⟨k, ∅, hentry, Or.inl (not_mem_iff_getElem?.1 hnew),
            by rw [Finset.empty_sdiff]⟩
        simp [diffResolved, hgrant]
      refine hall (.grant k ∅) (List.mem_flatMap.2 ⟨_, hmem, ?_⟩) rfl
      rw [plannedChange_grant]
      exact List.mem_singleton_self _
    · by_contra hnot
      obtain ⟨hnew, hkept⟩ := not_or.1 hnot
      have hentry := (defaultPrivileges_eq_empty_iff hgraph).2 hk
      have hmem : Change.setDefaultPrivilege k ∅ ∈
          diffResolved current (plannedGraph current desired) := by
        have hset : Change.setDefaultPrivilege k ∅ ∈
            defaultSets current (plannedGraph current desired) :=
          mem_defaultSets.2 ⟨k, ∅, hdefaults ▸ hentry, Or.inl (not_mem_iff_getElem?.1 hnew),
            by rw [Finset.empty_sdiff]⟩
        simp [diffResolved, hset]
      exact hall (.setDefaultPrivilege k ∅)
        (List.mem_flatMap.2 ⟨_, hmem, mem_plannedChange_setDefault.2 ⟨rfl, hkept⟩⟩) rfl
  · intro hrules c hc
    obtain ⟨hgrants, hsets⟩ := hrules
    obtain ⟨a, ha, hc⟩ := List.mem_flatMap.1 hc
    rcases nonVacuous_or_of_mem_diffResolved hcurrent ha with
      hplain | ⟨k, ⟨hentry, hnew⟩, rfl⟩ | ⟨k, ⟨hentry, hnew⟩, rfl⟩
    · exact nonVacuous_of_mem_plannedChange hplain hc
    · have hheld := hgrants k ((plannedGrants_eq_empty_iff hgraph).1 hentry)
      exact absurd hheld (not_mem_iff_getElem?.2 hnew)
    · rw [hdefaults] at hentry
      obtain ⟨-, hkept⟩ := mem_plannedChange_setDefault.1 hc
      rcases hsets k ((defaultPrivileges_eq_empty_iff hgraph).1 hentry) with hheld | hskipped
      · exact absurd hheld (not_mem_iff_getElem?.2 hnew)
      · exact absurd hskipped hkept

/-! ### A rule without a privilege -/

/-- Grants on the schema `app`, of the privileges given. -/
def schemaGrantOf (privileges : List Privilege) : PolicyManifest :=
  { grants := [{ role := "reader", privileges, object := ⟨.schema, none, some "app"⟩ }] }

/-- Its expansion and its graph. -/
def schemaGrantExpanded (privileges : List Privilege) : ExpandedManifest :=
  { grants := (schemaGrantOf privileges).grants }

/-- A graph with one grant on one schema. -/
def schemaGrantGraph (privileges : List Privilege) : RoleGraph :=
  { grants := extendEntry ∅ ⟨.role "reader", .schema, none, some "app"⟩ privileges.toFinset }

/-- A rule that lists a privilege is accepted, and its plan has no empty change. -/
theorem schemaGrant_nonVacuous :
    expandManifest (schemaGrantOf [.usage]) = .ok (schemaGrantExpanded [.usage]) ∧
      ∀ c ∈ planChanges {} (schemaGrantGraph [.usage]) (schemaGrantOf [.usage])
        (schemaGrantExpanded [.usage]) .authoritative, c.NonVacuous := by
  refine ⟨by decide +kernel, ?_⟩
  apply (planChanges_nonVacuous_iff rfl (fun k => by simp) .authoritative).2
  constructor
  · rintro k ⟨⟨grant, hgrant, hensure, hkey⟩, hnil⟩
    have husage := hnil grant hgrant hensure hkey
    rw [List.mem_singleton.1 hgrant] at husage
    cases husage
  · rintro k ⟨⟨d, hd, -⟩, -⟩
    exact absurd hd List.not_mem_nil

theorem planChanges_schemaGrant (mode : ReconciliationMode) :
    planChanges {} (schemaGrantGraph []) (schemaGrantOf []) (schemaGrantExpanded []) mode =
      [.grant ⟨.role "reader", .schema, none, some "app"⟩ ∅] := by
  cases mode <;> decide +kernel

/-- A rule that lists no privilege is accepted, and on a new target every mode grants nothing. -/
theorem schemaGrant_vacuous :
    expandManifest (schemaGrantOf []) = .ok (schemaGrantExpanded []) ∧
      RoleGraph.fromExpanded (schemaGrantExpanded []) none = .ok (schemaGrantGraph []) ∧
        ∀ mode, ¬ ∀ c ∈ planChanges {} (schemaGrantGraph []) (schemaGrantOf [])
          (schemaGrantExpanded []) mode, c.NonVacuous := by
  refine ⟨by decide +kernel, rfl, fun mode hall => ?_⟩
  rw [planChanges_schemaGrant] at hall
  exact hall _ (List.mem_singleton_self _) rfl

end PgRoles.Core
