import PgRoles.Core.Ownership
import PgRoles.Inspect.Routines

/-!
# Where scopes come from

The scope of an inspection is that of an expanded manifest, cut down to what a bundle manages,
widened by more roles or united with others. However it was built, the routines of its PUBLIC rules
are among the routines it resolves (`Built.namesPublicRoutines`).
-/

set_option autoImplicit false

namespace PgRoles.Inspect

open Std PgRoles.Lib PgRoles.Core

/-! ## The scope of a bundle -/

/-- The bundle manages the bindings of the schema. -/
def hasBindings (scope : ManagedScope) (schema : String) : Bool :=
  scope.schemas[schema]?.any (·.bindings)

/-- The scope of a PUBLIC rule lies in a schema whose bindings the bundle manages. Schema targets
carry the schema in the name; database targets pass through. -/
def keepsPublicScope (scope : ManagedScope) (publicScope : PublicObjectScope) : Bool :=
  match publicScope.schema with
  | some schema => hasBindings scope schema
  | none =>
      match publicScope.objectType with
      | .schema => publicScope.name.any (hasBindings scope)
      | _ => true

/-- Global defaults belong to whoever owns the owner role. -/
def keepsDefaultScope (scope : ManagedScope) (pattern : DefaultPrivScopePattern) : Bool :=
  match pattern.schema with
  | some schema => hasBindings scope schema
  | none => scope.roles.contains pattern.owner

/-- The scope of an expanded manifest, restricted to what the bundle manages. -/
def InspectConfig.fromManagedScope (scope : ManagedScope) (e : ExpandedManifest)
    (includeDatabasePrivileges : Bool) : InspectConfig :=
  let base := InspectConfig.fromExpanded e includeDatabasePrivileges
  { routineGrants := base.routineGrants.filter fun grant =>
      grant.object.schema.any (hasBindings scope)
    managedRoles := scope.roles.toList
    membershipGrantors := base.membershipGrantors
    managedSchemas := scope.schemas.keys
    privilegeSchemas := (scope.schemas.toList.filter (·.2.bindings)).map (·.1)
    includeDatabasePrivileges := includeDatabasePrivileges
    databaseTargets := base.databaseTargets
    wildcardGrants := base.wildcardGrants.filter fun pattern => hasBindings scope pattern.schema
    publicObjectScopes := base.publicObjectScopes.filter (keepsPublicScope scope)
    defaultPrivScopes := base.defaultPrivScopes.filter (keepsDefaultScope scope) }

/-! ## Routines of PUBLIC rules -/

/-- The scopes that configs are made of. -/
inductive InspectConfig.Built : InspectConfig → Prop where
  | fromExpanded (e : ExpandedManifest) (includeDatabasePrivileges : Bool) :
      Built (.fromExpanded e includeDatabasePrivileges)
  | fromManagedScope (scope : ManagedScope) (e : ExpandedManifest)
      (includeDatabasePrivileges : Bool) :
      Built (.fromManagedScope scope e includeDatabasePrivileges)
  | withAdditionalRoles {config : InspectConfig} (h : config.Built) (roles : List String) :
      Built (config.withAdditionalRoles roles)
  | unionOf {configs : List InspectConfig} (h : ∀ config ∈ configs, config.Built) :
      Built (.unionOf configs)

/-- A PUBLIC scope stands for one of the entries it was collected from. -/
theorem exists_entry_of_mem_publicScopes {entries : List (PublicScopeKey × Finset Privilege)}
    {p : PublicObjectScope} (h : p ∈ publicScopes entries) :
    ∃ entry ∈ entries, entry.1 = p.target := by
  obtain ⟨e, he, rfl⟩ := List.mem_map.1 h
  have hsome : (extendEntries (∅ : BTreeMap PublicScopeKey (Finset Privilege)) entries)[e.1]?.isSome :=
    Option.isSome_of_eq_some (mem_toList_iff.1 he)
  rcases isSome_extendEntries.1 hsome with hempty | ⟨privileges, hentry⟩
  · simp at hempty
  · exact ⟨_, hentry, rfl⟩

theorem namesPublicRoutines_fromExpanded (e : ExpandedManifest) (includeDatabasePrivileges : Bool) :
    (InspectConfig.fromExpanded e includeDatabasePrivileges).NamesPublicRoutines := by
  intro p hp htype schema name hschema hname
  obtain ⟨entry, hentry, htarget⟩ := exists_entry_of_mem_publicScopes hp
  obtain ⟨grant, hgrant, hmem⟩ := List.mem_flatMap.1 hentry
  unfold publicEntry at hmem
  split_ifs at hmem
  · rw [List.mem_singleton.1 hmem] at htarget
    simp only [PublicObjectScope.target, Prod.mk.injEq] at htarget
    obtain ⟨htarget, hgschema, hgname⟩ := htarget
    refine ⟨grant, List.mem_filter.2 ⟨hgrant, ?_⟩, hgschema.trans hschema, hgname.trans hname⟩
    simp [htarget, htype]
  · cases hmem

theorem namesPublicRoutines_fromManagedScope (scope : ManagedScope) (e : ExpandedManifest)
    (includeDatabasePrivileges : Bool) :
    (InspectConfig.fromManagedScope scope e includeDatabasePrivileges).NamesPublicRoutines := by
  intro p hp htype schema name hschema hname
  obtain ⟨hp, hkept⟩ := List.mem_filter.1 hp
  obtain ⟨grant, hgrant, hgschema, hgname⟩ :=
    namesPublicRoutines_fromExpanded e includeDatabasePrivileges p hp htype schema name hschema hname
  refine ⟨grant, List.mem_filter.2 ⟨hgrant, ?_⟩, hgschema, hgname⟩
  rw [keepsPublicScope, hschema] at hkept
  simpa [hgschema] using hkept

theorem namesPublicRoutines_unionOf {configs : List InspectConfig}
    (h : ∀ config ∈ configs, config.NamesPublicRoutines) :
    (InspectConfig.unionOf configs).NamesPublicRoutines := by
  intro p hp htype schema name hschema hname
  obtain ⟨entry, hentry, htarget⟩ := exists_entry_of_mem_publicScopes hp
  obtain ⟨config, hconfig, hmem⟩ := List.mem_flatMap.1 hentry
  obtain ⟨q, hq, rfl⟩ := List.mem_map.1 hmem
  simp only [PublicObjectScope.target, Prod.mk.injEq] at htarget
  obtain ⟨hqtype, hqschema, hqname⟩ := htarget
  obtain ⟨grant, hgrant, hgrantNames⟩ := h config hconfig q hq (hqtype.trans htype) schema name
    (hqschema.trans hschema) (hqname.trans hname)
  exact ⟨grant, List.mem_flatMap.2 ⟨config, hconfig, hgrant⟩, hgrantNames⟩

/-- The routines of PUBLIC rules are resolved with the others. -/
theorem InspectConfig.Built.namesPublicRoutines {config : InspectConfig} (h : config.Built) :
    config.NamesPublicRoutines := by
  induction h with
  | fromExpanded e includeDatabasePrivileges =>
      exact namesPublicRoutines_fromExpanded e includeDatabasePrivileges
  | fromManagedScope scope e includeDatabasePrivileges =>
      exact namesPublicRoutines_fromManagedScope scope e includeDatabasePrivileges
  | withAdditionalRoles h roles ih => exact ih
  | unionOf h ih => exact namesPublicRoutines_unionOf ih

end PgRoles.Inspect
