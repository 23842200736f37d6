import PgRoles.Core.Expand

/-!
# The inspection scope

What inspection reads of a database is limited to what a manifest manages: the scope is computed
from the expanded manifest, and several scopes are united for one shared read.
-/

set_option autoImplicit false

namespace PgRoles.Inspect

open Std PgRoles.Lib PgRoles.Core

/-- A wildcard rule of the desired manifest; absence assertions stay per object. The role is a name,
with `PUBLIC` for the pseudo-role. -/
structure WildcardGrantPattern where
  role : String
  objectType : ObjectType
  schema : String
  privileges : Finset Privilege
  deriving DecidableEq

/-- An object scope with PUBLIC rules, and the privileges they mention. -/
structure PublicObjectScope where
  objectType : ObjectType
  schema : Option String
  name : Option String
  privileges : Finset Privilege
  deriving DecidableEq

/-- A default-privilege layer of the manifest; no schema is the global layer. The privileges are
those of its PUBLIC rules. -/
structure DefaultPrivScopePattern where
  owner : String
  schema : Option String
  onType : ObjectType
  publicPrivileges : Finset Privilege
  deriving DecidableEq

/-- What to inspect. -/
structure InspectConfig where
  /-- Routine rules to resolve by catalog identity. -/
  routineGrants : List Grant := []
  managedRoles : List String := []
  /-- Predefined roles referenced as membership grantors; they widen membership inspection only. -/
  membershipGrantors : List String := []
  managedSchemas : List String := []
  privilegeSchemas : List String := []
  includeDatabasePrivileges : Bool := false
  databaseTargets : List String := []
  wildcardGrants : List WildcardGrantPattern := []
  publicObjectScopes : List PublicObjectScope := []
  defaultPrivScopes : List DefaultPrivScopePattern := []

/-! ## Keyed collection -/

/-- The key wildcard patterns are collected under. -/
abbrev WildcardKey : Type := String × ObjectType × String

/-- The key PUBLIC scopes are collected under. -/
abbrev PublicScopeKey : Type := ObjectType × Option String × Option String

/-- The key default-privilege layers are collected under. -/
abbrev DefaultScopeKey : Type := String × Option String × ObjectType

/-- The patterns of the collected wildcard privileges, in key order. -/
def wildcardPatterns (entries : List (WildcardKey × Finset Privilege)) :
    List WildcardGrantPattern :=
  (extendEntries (∅ : BTreeMap WildcardKey (Finset Privilege)) entries).toList.map fun e =>
    ⟨e.1.1, e.1.2.1, e.1.2.2, e.2⟩

/-- The scopes of the collected PUBLIC privileges, in key order. -/
def publicScopes (entries : List (PublicScopeKey × Finset Privilege)) : List PublicObjectScope :=
  (extendEntries (∅ : BTreeMap PublicScopeKey (Finset Privilege)) entries).toList.map fun e =>
    ⟨e.1.1, e.1.2.1, e.1.2.2, e.2⟩

/-- The layers of the collected default privileges, in key order. -/
def defaultScopes (entries : List (DefaultScopeKey × Finset Privilege)) :
    List DefaultPrivScopePattern :=
  (extendEntries (∅ : BTreeMap DefaultScopeKey (Finset Privilege)) entries).toList.map fun e =>
    ⟨e.1.1, e.1.2.1, e.1.2.2, e.2⟩

/-- The distinct names, in order. -/
def distinctNames (names : List String) : List String :=
  (ExtTreeSet.ofList names compare).toList

/-! ## The scope of a manifest -/

/-- Wildcards select the objects of a schema; schemas and databases are named one by one. -/
def isWildcardType : ObjectType → Bool
  | .schema | .database => false
  | _ => true

/-- A present wildcard rule contributes its privileges to a pattern. -/
def wildcardEntry (grant : Grant) : List (WildcardKey × Finset Privilege) :=
  match grant.object.schema with
  | some schema =>
      if grant.object.name == some wildcardName && grant.ensure == .present &&
          isWildcardType grant.object.objectType then
        [((grant.role, grant.object.objectType, schema), grant.privileges.toFinset)]
      else []
  | none => []

/-- A PUBLIC rule contributes its privileges to its object scope. -/
def publicEntry (grant : Grant) : List (PublicScopeKey × Finset Privilege) :=
  if grant.role = publicRoleName then
    [((grant.object.objectType, grant.object.schema, grant.object.name),
      grant.privileges.toFinset)]
  else []

/-- The layers of a default-privilege declaration, with the privileges of its PUBLIC rules. -/
def defaultScopeEntries (d : DefaultPrivilege) : List (DefaultScopeKey × Finset Privilege) :=
  match d.resolvedScope with
  | .error _ => []
  | .ok scope => d.grant.map fun grant =>
      ((d.owner.getD "postgres", scope.schema?, grant.onType),
        if grant.role = some publicRoleName then grant.privileges.toFinset else ∅)

/-- The schemas a grant needs. -/
def grantSchemas (grant : Grant) : List String :=
  grant.object.schema.toList ++
    (if grant.object.objectType = .schema then grant.object.name.toList else [])

/-- The schema a default-privilege declaration needs. -/
def defaultPrivilegeSchemas (d : DefaultPrivilege) : List String :=
  match d.resolvedScope with
  | .error _ => []
  | .ok scope => scope.schema?.toList

/-- The scope of an expanded manifest. -/
def InspectConfig.fromExpanded (e : ExpandedManifest) (includeDatabasePrivileges : Bool) :
    InspectConfig :=
  let schemas := distinctNames (e.grants.flatMap grantSchemas ++
    e.defaultPrivileges.flatMap defaultPrivilegeSchemas ++ e.schemas.map (·.name))
  { routineGrants := e.grants.filter fun grant => grant.object.objectType == .function
    managedRoles := distinctNames (e.roles.map (·.name))
    membershipGrantors :=
      distinctNames ((e.memberships.map (·.role)).filter isPredefinedRole)
    managedSchemas := schemas
    privilegeSchemas := schemas
    includeDatabasePrivileges := includeDatabasePrivileges
    databaseTargets := distinctNames
      ((e.grants.filter fun grant => grant.object.objectType == .database).flatMap fun grant =>
        grant.object.name.toList)
    wildcardGrants := wildcardPatterns (e.grants.flatMap wildcardEntry)
    publicObjectScopes := publicScopes (e.grants.flatMap publicEntry)
    defaultPrivScopes := defaultScopes (e.defaultPrivileges.flatMap defaultScopeEntries) }

/-- The scope with more roles, such as retired ones. -/
def InspectConfig.withAdditionalRoles (config : InspectConfig) (roles : List String) :
    InspectConfig :=
  { config with managedRoles := distinctNames (config.managedRoles ++ roles) }

/-! ## Patterns -/

/-- The key a pattern is collected under. -/
def WildcardGrantPattern.key (pattern : WildcardGrantPattern) : WildcardKey :=
  (pattern.role, pattern.objectType, pattern.schema)

theorem nodup_key_wildcardPatterns (entries : List (WildcardKey × Finset Privilege)) :
    ((wildcardPatterns entries).map WildcardGrantPattern.key).Nodup := by
  rw [wildcardPatterns, List.map_map]
  exact nodup_fst_toList _

theorem mem_wildcardPatterns {entries : List (WildcardKey × Finset Privilege)}
    {pattern : WildcardGrantPattern} :
    pattern ∈ wildcardPatterns entries ↔
      (extendEntries (∅ : BTreeMap WildcardKey (Finset Privilege)) entries)[pattern.key]? =
        some pattern.privileges := by
  rw [wildcardPatterns, List.mem_map, ← mem_toList_iff]
  constructor
  · rintro ⟨⟨⟨role, objectType, schema⟩, privileges⟩, hmem, rfl⟩
    exact hmem
  · intro hmem
    exact ⟨(pattern.key, pattern.privileges), hmem, rfl⟩

end PgRoles.Inspect
