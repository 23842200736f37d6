import PgRoles.Lib.Claims
import PgRoles.Core.Ownership
import PgRoles.Core.Expand

/-!
# Composition of a bundle

A bundle is a list of policy documents with settings they share. Each document is validated against
its declared scope and expanded alone; what it declares is registered under its label, and a key
that another document has registered is a conflict. The documents are then merged into one manifest,
and that manifest is expanded again into the desired graph of the bundle.
-/

set_option autoImplicit false

namespace PgRoles.Core

open Std PgRoles.Lib

/-! ## Documents -/

/-- Settings that every document of a bundle inherits. -/
structure SharedPolicy where
  rolePattern : Option String := none
  defaultOwner : Option String := none
  profiles : BTreeMap String Profile := ∅
  deriving DecidableEq

/-- A file that a bundle takes a fragment from. -/
structure BundleSource where
  file : String
  deriving DecidableEq

/-- A bundle: what its fragments share, and where they are. -/
structure PolicyBundle where
  shared : SharedPolicy := {}
  sources : List BundleSource := []
  deriving DecidableEq

/-- A schema of a fragment's scope with the facets that are the fragment's. -/
structure ScopedSchema where
  name : String
  facets : List SchemaBindingFacet := []
  deriving DecidableEq

/-- What a document may manage. -/
structure FragmentScope where
  roles : List String := []
  schemas : List ScopedSchema := []
  deriving DecidableEq

/-- The name of a fragment, where it has one. -/
structure FragmentMetadata where
  name : Option String := none
  deriving DecidableEq

/-- A fragment: its declarations and the scope they must stay in. -/
structure PolicyFragment where
  rolePattern : Option String := none
  policy : FragmentMetadata := {}
  scope : FragmentScope := {}
  schemas : List SchemaBinding := []
  roles : List RoleDefinition := []
  grants : List Grant := []
  defaultPrivileges : List DefaultPrivilege := []
  memberships : List Membership := []
  retirements : List RoleRetirement := []
  deriving DecidableEq

/-- A fragment with the source it was read from. -/
structure PolicyDocument where
  source : String
  fragment : PolicyFragment
  deriving DecidableEq

/-- The name of the policy, or else of the file. -/
def PolicyDocument.label (document : PolicyDocument) : String :=
  document.fragment.policy.name.getD document.source

/-- Why a bundle is rejected. -/
inductive CompositionError where
  | missingSources
  | roleOutOfScope (document role : String)
  | schemaOwnerOutOfScope (document schema : String)
  | schemaBindingsOutOfScope (document schema : String)
  | globalDefaultPrivilegeOutOfScope (document owner : String)
  | duplicateManagedRole (role first second : String)
  | duplicateManagedSchemaFacet (schema facet first second : String)
  | duplicateManagedGrant (target first second : String)
  | duplicateManagedDefaultPrivilege (target first second : String)
  | duplicateManagedMembership (role member first second : String)
  | exclusiveMembershipSplit (role first second : String)
  | invalidDocument (document : String) (error : ManifestError)
  | invalidComposedManifest (error : ManifestError)
  deriving DecidableEq

/-! ## The scope of a document -/

/-- The facets of each schema of the scope. -/
def schemaScopeMap (scope : FragmentScope) : BTreeMap String (Finset SchemaBindingFacet) :=
  extendEntries ∅ (scope.schemas.map fun schema => (schema.name, schema.facets.toFinset))

/-- The scope has the facet of the schema. -/
def hasSchemaFacet (scope : BTreeMap String (Finset SchemaBindingFacet)) (schema : String)
    (facet : SchemaBindingFacet) : Bool :=
  decide (facet ∈ entryAt scope schema)

/-- The schema a declared grant lies in. -/
def schemaNameForGrant (grant : Grant) : Option String :=
  match grant.object.objectType with
  | .database => none
  | .schema => grant.object.name
  | _ => grant.object.schema

/-- The document binds profiles to the schema, or names the roles they give. -/
def SchemaBinding.managesBindings (schema : SchemaBinding) : Bool :=
  !schema.profiles.isEmpty || schema.rolePattern.isSome

/-- The document sets the owner of the schema. -/
def SchemaBinding.managesOwner (defaultOwner : Option String) (schema : SchemaBinding) : Bool :=
  schema.owner.isSome || defaultOwner.isSome

/-- A schema's owner and bindings are declared where the scope has these facets, and its profiles
are known. -/
def validateSchemaScope (bundle : PolicyBundle) (document : PolicyDocument)
    (schema : SchemaBinding) : Except CompositionError Unit := do
  let scope := schemaScopeMap document.fragment.scope
  rejectIf (schema.managesBindings && !hasSchemaFacet scope schema.name .bindings)
    (.schemaBindingsOutOfScope document.label schema.name)
  rejectIf (schema.managesOwner bundle.shared.defaultOwner &&
      !hasSchemaFacet scope schema.name .owner)
    (.schemaOwnerOutOfScope document.label schema.name)

/-- A grant in a schema is declared where the scope has the schema's bindings. -/
def validateGrantScope (document : PolicyDocument) (grant : Grant) :
    Except CompositionError Unit :=
  match schemaNameForGrant grant with
  | some schema =>
      rejectIf (!hasSchemaFacet (schemaScopeMap document.fragment.scope) schema .bindings)
        (.schemaBindingsOutOfScope document.label schema)
  | none => .ok ()

/-- Global defaults affect every schema, so only the document with the owner in its scope may
manage them. -/
def validateDefaultPrivilegeInScope (bundle : PolicyBundle) (document : PolicyDocument)
    (d : DefaultPrivilege) : Except CompositionError Unit := do
  let scope ← d.resolvedScope.mapError (.invalidDocument document.label)
  match scope with
  | .schema schema =>
      rejectIf (!hasSchemaFacet (schemaScopeMap document.fragment.scope) schema .bindings)
        (.schemaBindingsOutOfScope document.label schema)
  | .global =>
      let owner := (d.owner.or bundle.shared.defaultOwner).getD "postgres"
      rejectIf (!document.fragment.scope.roles.contains owner)
        (.globalDefaultPrivilegeOutOfScope document.label owner)

/-- A role is declared where the scope names it. -/
def validateRoleScope (document : PolicyDocument) (role : String) :
    Except CompositionError Unit :=
  rejectIf (!document.fragment.scope.roles.contains role) (.roleOutOfScope document.label role)

/-- All that a document declares is in its scope. -/
def validateDocumentScope (bundle : PolicyBundle) (document : PolicyDocument) :
    Except CompositionError Unit := do
  document.fragment.roles.forM fun role => validateRoleScope document role.name
  document.fragment.retirements.forM fun retirement => validateRoleScope document retirement.role
  document.fragment.schemas.forM (validateSchemaScope bundle document)
  document.fragment.grants.forM (validateGrantScope document)
  document.fragment.defaultPrivileges.forM (validateDefaultPrivilegeInScope bundle document)

/-! ## Expansion of one document -/

/-- The fragment as a manifest of its own, with what the bundle shares. -/
def documentManifest (bundle : PolicyBundle) (fragment : PolicyFragment) : PolicyManifest :=
  { rolePattern := fragment.rolePattern.or bundle.shared.rolePattern
    defaultOwner := bundle.shared.defaultOwner
    profiles := bundle.shared.profiles
    schemas := fragment.schemas
    roles := fragment.roles
    grants := fragment.grants
    defaultPrivileges := fragment.defaultPrivileges
    memberships := fragment.memberships
    retirements := fragment.retirements }

/-- A document expanded alone. -/
structure DocumentExpansion where
  expanded : ExpandedManifest
  desired : RoleGraph

/-- Validate a document and expand it alone. -/
def expandDocument (bundle : PolicyBundle) (document : PolicyDocument) :
    Except CompositionError DocumentExpansion := do
  validateDocumentScope bundle document
  let manifest := documentManifest bundle document.fragment
  let expanded ← (expandManifest manifest).mapError (.invalidDocument document.label)
  let desired ← (RoleGraph.fromExpanded expanded manifest.defaultOwner).mapError
    (.invalidDocument document.label)
  return ⟨expanded, desired⟩

/-! ## Registration -/

/-- A grant as messages name it. -/
def formatGrantKey (key : GrantKey) : String :=
  "for role \"" ++ key.role.asStr ++ "\" on " ++ key.objectType.display ++ " \"" ++
    describeTarget key.schema key.name ++ "\""

/-- A default privilege as messages name it. -/
def formatDefaultPrivilegeKey (key : DefaultPrivKey) : String :=
  "owner \"" ++ key.owner ++ "\" " ++ key.scope.display ++ " on " ++ key.onType.display ++
    " to \"" ++ key.grantee.asStr ++ "\""

section Register

variable {K : Type} [Ord K] [TransOrd K]

/-- Register the keys for one owner, in order. -/
def registerOwner (error : K → String → String → CompositionError) (owner : String)
    (register : BTreeMap K String) (keys : List K) :
    Except CompositionError (BTreeMap K String) :=
  (keys.map fun key => (key, owner)).foldlM (claim error) register

end Register

/-- The roles a document registers: what it expands to, and what it retires. -/
def DocumentExpansion.roleKeys (x : DocumentExpansion) (document : PolicyDocument) :
    List String :=
  x.expanded.roles.map (·.name) ++ document.fragment.retirements.map (·.role)

/-- The schema facets that a document owns. -/
def PolicyDocument.facetKeys (document : PolicyDocument) : List SchemaFacetKey :=
  document.fragment.scope.schemas.flatMap fun schema =>
    schema.facets.map fun facet => ⟨schema.name, facet⟩

/-- Absence keys claim ownership too; a key in both maps of one document is registered once. -/
def DocumentExpansion.grantKeys (x : DocumentExpansion) : List GrantKey :=
  (ExtTreeSet.ofList (x.desired.grants.keys ++ x.desired.grantAbsences.keys) compare).toList

/-- The default privileges that a document owns, asserted present or absent. -/
def DocumentExpansion.defaultPrivilegeKeys (x : DocumentExpansion) : List DefaultPrivKey :=
  (ExtTreeSet.ofList
    (x.desired.defaultPrivileges.keys ++ x.desired.defaultPrivilegeAbsences.keys) compare).toList

/-- The memberships that a document owns. -/
def DocumentExpansion.membershipKeys (x : DocumentExpansion) : List MembershipKey :=
  x.desired.memberships.toList.map (·.key)

/-- Note one membership stanza. An exclusive list is an assertion about the whole role, so a second
document may not declare members of it; the check knows documents by their label. -/
def noteStanza (label : String) (stanzas : BTreeMap String (String × Bool))
    (membership : Membership) : Except CompositionError (BTreeMap String (String × Bool)) :=
  match stanzas[membership.role]? with
  | none => .ok (stanzas.insert membership.role (label, membership.exclusive))
  | some (first, anyExclusive) => do
      rejectIf (first != label && (anyExclusive || membership.exclusive))
        (.exclusiveMembershipSplit membership.role first label)
      return stanzas.insert membership.role (first, anyExclusive || membership.exclusive)

/-- Register all that a document owns; a key that has an owner is refused. -/
def registerDocumentOwnership (index : OwnershipIndex) (document : PolicyDocument)
    (x : DocumentExpansion) : Except CompositionError OwnershipIndex := do
  let label := document.label
  let roles ← registerOwner .duplicateManagedRole label index.roles (x.roleKeys document)
  let schemaFacets ← registerOwner
    (fun key => .duplicateManagedSchemaFacet key.schema key.facet.display) label
    index.schemaFacets document.facetKeys
  let grants ← registerOwner (fun key => .duplicateManagedGrant (formatGrantKey key)) label
    index.grants x.grantKeys
  let defaultPrivileges ← registerOwner
    (fun key => .duplicateManagedDefaultPrivilege (formatDefaultPrivilegeKey key)) label
    index.defaultPrivileges x.defaultPrivilegeKeys
  let memberships ← registerOwner (fun key => .duplicateManagedMembership key.role key.member)
    label index.memberships x.membershipKeys
  let membershipStanzas ←
    document.fragment.memberships.foldlM (noteStanza label) index.membershipStanzas
  return ⟨roles, schemaFacets, grants, defaultPrivileges, memberships, membershipStanzas⟩

/-! ## Merging -/

/-- What one binding of a fragment adds to the merged binding of its schema. -/
def mergeBinding (rolePattern : Option String) (schema entry : SchemaBinding) : SchemaBinding :=
  { entry with
    owner := if schema.owner.isSome then schema.owner else entry.owner
    profiles := if schema.profiles.isEmpty then entry.profiles else schema.profiles
    rolePattern :=
      if schema.managesBindings then schema.rolePattern.or rolePattern else entry.rolePattern }

/-- Add a fragment's binding of a schema to the bindings so far. -/
def mergeSchema (rolePattern : Option String) (merged : BTreeMap String SchemaBinding)
    (schema : SchemaBinding) : BTreeMap String SchemaBinding :=
  merged.alter schema.name fun entry =>
    some (mergeBinding rolePattern schema (entry.getD { name := schema.name }))

/-- The state between two documents. -/
structure Composing where
  ownership : OwnershipIndex := {}
  mergedSchemas : BTreeMap String SchemaBinding := ∅
  manifest : PolicyManifest

/-- Append a fragment's declarations; schemas are merged apart. -/
def mergeDocumentManifest (manifest : PolicyManifest) (fragment : PolicyFragment) :
    PolicyManifest :=
  { manifest with
    roles := manifest.roles ++ fragment.roles
    grants := manifest.grants ++ fragment.grants
    defaultPrivileges := manifest.defaultPrivileges ++ fragment.defaultPrivileges
    memberships := manifest.memberships ++ fragment.memberships
    retirements := manifest.retirements ++ fragment.retirements }

/-- Add all of a fragment's schemas. -/
def mergeDocumentSchemas (merged : BTreeMap String SchemaBinding) (fragment : PolicyFragment) :
    BTreeMap String SchemaBinding :=
  fragment.schemas.foldl (mergeSchema fragment.rolePattern) merged

/-- Take in one document. -/
def composeDocument (bundle : PolicyBundle) (state : Composing) (document : PolicyDocument) :
    Except CompositionError Composing := do
  let x ← expandDocument bundle document
  let ownership ← registerDocumentOwnership state.ownership document x
  return {
    ownership
    mergedSchemas := mergeDocumentSchemas state.mergedSchemas document.fragment
    manifest := mergeDocumentManifest state.manifest document.fragment }

/-! ## The bundle -/

/-- A composed bundle with its graph, its owners and its scope. -/
structure ComposedPolicy where
  manifest : PolicyManifest
  expanded : ExpandedManifest
  desired : RoleGraph
  ownership : OwnershipIndex
  managedScope : ManagedScope
  managedChangeSurface : ManagedChangeSurface

/-- The manifest before any document has been merged into it. -/
def PolicyBundle.emptyManifest (bundle : PolicyBundle) : PolicyManifest :=
  { rolePattern := bundle.shared.rolePattern
    defaultOwner := bundle.shared.defaultOwner
    profiles := bundle.shared.profiles }

/-- Compose the documents of a bundle. -/
def composeBundle (bundle : PolicyBundle) (documents : List PolicyDocument) :
    Except CompositionError ComposedPolicy := do
  rejectIf (bundle.sources.isEmpty || documents.isEmpty) .missingSources
  let state ← documents.foldlM (composeDocument bundle) { manifest := bundle.emptyManifest }
  let manifest := { state.manifest with schemas := state.mergedSchemas.toList.map (·.2) }
  let expanded ← (expandManifest manifest).mapError .invalidComposedManifest
  let desired ← (RoleGraph.fromExpanded expanded manifest.defaultOwner).mapError
    .invalidComposedManifest
  return {
    manifest
    expanded
    desired
    ownership := state.ownership
    managedScope := state.ownership.managedScope
    managedChangeSurface := state.ownership.managedChangeSurface }

end PgRoles.Core
