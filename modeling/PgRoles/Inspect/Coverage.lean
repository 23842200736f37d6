import PgRoles.Inspect.Catalog

/-!
# Coverage of scopes

One read serves several scopes when it was made over their union. Whether a scope can be derived from
a read is decided part by part, and the first part that was not read is named.
-/

set_option autoImplicit false

namespace PgRoles.Inspect

open Std PgRoles.Lib PgRoles.Core

/-! ## Uncovered parts -/

/-- The first part of a scope that a snapshot did not read. -/
inductive UncoveredAxis where
  | routine (schema name : String)
  | databasePrivileges
  | databaseTarget (target : String)
  | managedRole (role : String)
  | membershipGrantor (role : String)
  | managedSchema (schema : String)
  | privilegeSchema (schema : String)
  | wildcardScope (objectType : ObjectType) (schema : String)
  | publicScope (objectType : ObjectType) (schema name : Option String)
  | defaultPrivileges (owner : String) (onType : ObjectType) (schema : Option String)
  deriving DecidableEq, Repr

/-- Privileges play no part: the reads ignore them, and a derivation narrows to its own. -/
def PublicObjectScope.target (scope : PublicObjectScope) :
    ObjectType × Option String × Option String :=
  (scope.objectType, scope.schema, scope.name)

/-- The routine that a rule names; wildcards name none. -/
def routineTarget? (grant : Grant) : Option (String × String) := do
  let schema ← grant.object.schema
  let name ← grant.object.name
  if name = wildcardName then none else some (schema, name)

/-- The routines of a config, in order. -/
def routineTargets (config : InspectConfig) : List (String × String) :=
  (ExtTreeSet.ofList (config.routineGrants.filterMap routineTarget?) compare).toList

/-- The first element that is wanted and was not read. -/
def firstMissing {α : Type} [BEq α] (wanted read : List α) : Option α :=
  wanted.find? fun a => !read.contains a

/-- The first part of a config's scope that a read over another scope lacks. -/
def uncoveredAxis (scope config : InspectConfig) : Option UncoveredAxis :=
  ((firstMissing (routineTargets config) (routineTargets scope)).map fun target =>
    .routine target.1 target.2).or <|
  (if config.includeDatabasePrivileges && !scope.includeDatabasePrivileges then
    some .databasePrivileges else none).or <|
  ((firstMissing config.databaseTargets scope.databaseTargets).map .databaseTarget).or <|
  ((firstMissing config.managedRoles scope.managedRoles).map .managedRole).or <|
  ((firstMissing config.membershipGrantors (scope.membershipGrantors ++ scope.managedRoles)).map
    .membershipGrantor).or <|
  ((firstMissing config.managedSchemas scope.managedSchemas).map .managedSchema).or <|
  ((firstMissing config.privilegeSchemas scope.privilegeSchemas).map .privilegeSchema).or <|
  ((firstMissing (wildcardScopesOf config.wildcardGrants)
    (wildcardScopesOf scope.wildcardGrants)).map fun wildcard =>
      .wildcardScope wildcard.1 wildcard.2).or <|
  ((firstMissing (config.publicObjectScopes.map (·.target))
    (scope.publicObjectScopes.map (·.target))).map fun target =>
      .publicScope target.1 target.2.1 target.2.2).or <|
  (firstMissing config.defaultPrivScopes scope.defaultPrivScopes).map fun pattern =>
    .defaultPrivileges pattern.owner pattern.onType pattern.schema

/-! ## Union of scopes -/

/-- The wildcards of a config, by the key they are united under. -/
def InspectConfig.wildcardEntries (config : InspectConfig) :
    List (WildcardKey × Finset Privilege) :=
  config.wildcardGrants.map fun pattern => (pattern.key, pattern.privileges)

/-- The PUBLIC scopes of a config, by the key they are united under. -/
def InspectConfig.publicEntries (config : InspectConfig) :
    List (PublicScopeKey × Finset Privilege) :=
  config.publicObjectScopes.map fun scope => (scope.target, scope.privileges)

/-- The narrowest scope that contains every one of the scopes. -/
def InspectConfig.unionOf (configs : List InspectConfig) : InspectConfig where
  routineGrants := configs.flatMap (·.routineGrants)
  managedRoles := distinctNames (configs.flatMap (·.managedRoles))
  membershipGrantors := distinctNames (configs.flatMap (·.membershipGrantors))
  managedSchemas := distinctNames (configs.flatMap (·.managedSchemas))
  privilegeSchemas := distinctNames (configs.flatMap (·.privilegeSchemas))
  includeDatabasePrivileges := configs.any (·.includeDatabasePrivileges)
  databaseTargets := distinctNames (configs.flatMap (·.databaseTargets))
  wildcardGrants := wildcardPatterns (configs.flatMap (·.wildcardEntries))
  publicObjectScopes := publicScopes (configs.flatMap (·.publicEntries))
  defaultPrivScopes := (configs.flatMap (·.defaultPrivScopes)).dedup

/-! ## Coverage -/

/-- Every part of the config's scope is in the scope that was read. -/
structure Covers (scope config : InspectConfig) : Prop where
  routines : routineTargets config ⊆ routineTargets scope
  databasePrivileges : config.includeDatabasePrivileges = true →
    scope.includeDatabasePrivileges = true
  databaseTargets : config.databaseTargets ⊆ scope.databaseTargets
  roles : config.managedRoles ⊆ scope.managedRoles
  membershipGrantors : config.membershipGrantors ⊆ scope.membershipGrantors ++ scope.managedRoles
  managedSchemas : config.managedSchemas ⊆ scope.managedSchemas
  schemas : config.privilegeSchemas ⊆ scope.privilegeSchemas
  wildcards : wildcardScopesOf config.wildcardGrants ⊆ wildcardScopesOf scope.wildcardGrants
  publicScopes : config.publicObjectScopes.map (·.target) ⊆
    scope.publicObjectScopes.map (·.target)
  defaultPrivileges : config.defaultPrivScopes ⊆ scope.defaultPrivScopes

theorem firstMissing_eq_none_iff {α : Type} [BEq α] [LawfulBEq α] {wanted read : List α} :
    firstMissing wanted read = none ↔ wanted ⊆ read := by
  simp [firstMissing, List.subset_def]

theorem uncoveredAxis_eq_none_iff {scope config : InspectConfig} :
    uncoveredAxis scope config = none ↔ Covers scope config := by
  unfold uncoveredAxis
  simp only [Option.or_eq_none_iff, Option.map_eq_none_iff, firstMissing_eq_none_iff]
  constructor
  · rintro ⟨h1, h2, h3, h4, h5, h6, h7, h8, h9, h10⟩
    exact ⟨h1, by simpa using h2, h3, h4, h5, h6, h7, h8, h9, h10⟩
  · rintro ⟨h1, h2, h3, h4, h5, h6, h7, h8, h9, h10⟩
    exact ⟨h1, by simpa using h2, h3, h4, h5, h6, h7, h8, h9, h10⟩

theorem Covers.refl (config : InspectConfig) : Covers config config :=
  ⟨List.Subset.refl _, id, List.Subset.refl _, List.Subset.refl _,
    List.subset_append_left _ _, List.Subset.refl _, List.Subset.refl _, List.Subset.refl _,
    List.Subset.refl _, List.Subset.refl _⟩

theorem mem_distinctNames {names : List String} {name : String} :
    name ∈ distinctNames names ↔ name ∈ names := by
  simp [distinctNames]

theorem mem_routineTargets {config : InspectConfig} {target : String × String} :
    target ∈ routineTargets config ↔
      ∃ grant ∈ config.routineGrants, routineTarget? grant = some target := by
  simp [routineTargets]

/-- Names collected from all the scopes contain the names of each. -/
theorem subset_distinctNames {configs : List InspectConfig} {config : InspectConfig}
    (h : config ∈ configs) (names : InspectConfig → List String) :
    names config ⊆ distinctNames (configs.flatMap names) :=
  fun _ hname => mem_distinctNames.2 (List.mem_flatMap.2 ⟨config, h, hname⟩)

/-- An entry of one scope is collected under its key. -/
theorem exists_collected {K : Type} [Ord K] [TransOrd K] [LawfulEqOrd K] [DecidableEq K]
    {configs : List InspectConfig} {config : InspectConfig} (h : config ∈ configs)
    (entries : InspectConfig → List (K × Finset Privilege)) {e : K × Finset Privilege}
    (he : e ∈ entries config) :
    ∃ privileges, (e.1, privileges) ∈
      (extendEntries (∅ : BTreeMap K (Finset Privilege)) (configs.flatMap entries)).toList := by
  have hentry : e ∈ configs.flatMap entries := List.mem_flatMap.2 ⟨config, h, he⟩
  obtain ⟨privileges, hsome⟩ := Option.isSome_iff_exists.1
    (isSome_extendEntries.2 (Or.inr ⟨e.2, hentry⟩) :
      (extendEntries (∅ : BTreeMap K (Finset Privilege)) (configs.flatMap entries))[e.1]?.isSome)
  exact ⟨privileges, mem_toList_iff.2 hsome⟩

/-- The union of scopes covers each of them. -/
theorem covers_unionOf {configs : List InspectConfig} {config : InspectConfig}
    (h : config ∈ configs) : Covers (.unionOf configs) config where
  routines target htarget := by
    obtain ⟨grant, hgrant, heq⟩ := mem_routineTargets.1 htarget
    exact mem_routineTargets.2 ⟨grant, List.mem_flatMap.2 ⟨config, h, hgrant⟩, heq⟩
  databasePrivileges hread := List.any_eq_true.2 ⟨config, h, hread⟩
  databaseTargets := subset_distinctNames h (·.databaseTargets)
  roles := subset_distinctNames h (·.managedRoles)
  membershipGrantors :=
    List.Subset.trans (subset_distinctNames h (·.membershipGrantors))
      (List.subset_append_left _ _)
  managedSchemas := subset_distinctNames h (·.managedSchemas)
  schemas := subset_distinctNames h (·.privilegeSchemas)
  wildcards scope hscope := by
    obtain ⟨pattern, hpattern, htype, rfl⟩ := mem_wildcardScopesOf.1 hscope
    obtain ⟨privileges, hentry⟩ := exists_collected h (·.wildcardEntries)
      (List.mem_map.2 ⟨pattern, hpattern, rfl⟩)
    exact mem_wildcardScopesOf.2 ⟨{ pattern with privileges := privileges },
      List.mem_map.2 ⟨_, hentry, rfl⟩, htype, rfl⟩
  publicScopes target htarget := by
    obtain ⟨p, hp, rfl⟩ := List.mem_map.1 htarget
    obtain ⟨privileges, hentry⟩ := exists_collected h (·.publicEntries)
      (List.mem_map.2 ⟨p, hp, rfl⟩)
    exact List.mem_map.2 ⟨{ p with privileges := privileges },
      List.mem_map.2 ⟨_, hentry, rfl⟩, rfl⟩
  defaultPrivileges pattern hpattern :=
    List.mem_dedup.2 (List.mem_flatMap.2 ⟨config, h, hpattern⟩)

end PgRoles.Inspect
