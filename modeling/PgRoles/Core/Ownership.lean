import PgRoles.Core.Change
import PgRoles.Core.Manifest

/-!
# Ownership within a bundle

Which document of a bundle manages what: every role, schema facet, grant target, default-privilege
rule and membership has one owner. The managed scope says what an inspection reads for the bundle,
and the change surface which changes a plan of the bundle may hold.
-/

set_option autoImplicit false

namespace PgRoles.Core

open Std PgRoles.Lib

/-! ## Keys -/

/-- The part of a schema one document manages. -/
inductive SchemaBindingFacet where
  | owner
  | bindings
  deriving DecidableEq, Repr

/-- A facet as messages show it. -/
def SchemaBindingFacet.display : SchemaBindingFacet → String
  | .owner => "owner"
  | .bindings => "bindings"

/-- Facets in declaration order. -/
def SchemaBindingFacet.index : SchemaBindingFacet → Nat
  | .owner => 0
  | .bindings => 1

theorem SchemaBindingFacet.index_injective : Function.Injective SchemaBindingFacet.index := by
  intro a b h
  cases a <;> cases b <;> first | rfl | (exact absurd h (by decide))

instance : Ord SchemaBindingFacet := ordOn SchemaBindingFacet.index
instance : TransOrd SchemaBindingFacet := transOrd_ordOn _
instance : LawfulEqOrd SchemaBindingFacet :=
  lawfulEqOrd_ordOn _ SchemaBindingFacet.index_injective

/-- One facet of one schema. -/
structure SchemaFacetKey where
  schema : String
  facet : SchemaBindingFacet
  deriving DecidableEq, Repr

/-- The fields of a facet key in comparison order. -/
def SchemaFacetKey.fields (k : SchemaFacetKey) : String × SchemaBindingFacet := (k.schema, k.facet)

theorem SchemaFacetKey.fields_injective : Function.Injective SchemaFacetKey.fields := by
  rintro ⟨s, f⟩ ⟨s', f'⟩ h
  simp only [SchemaFacetKey.fields, Prod.mk.injEq] at h
  obtain ⟨rfl, rfl⟩ := h
  rfl

instance : Ord SchemaFacetKey := ordOn SchemaFacetKey.fields
instance : TransOrd SchemaFacetKey := transOrd_ordOn _
instance : LawfulEqOrd SchemaFacetKey := lawfulEqOrd_ordOn _ SchemaFacetKey.fields_injective

/-- A role and one of its members. -/
structure MembershipKey where
  role : String
  member : String
  deriving DecidableEq, Repr

/-- The fields of a membership key in comparison order. -/
def MembershipKey.fields (k : MembershipKey) : String × String := (k.role, k.member)

theorem MembershipKey.fields_injective : Function.Injective MembershipKey.fields := by
  rintro ⟨r, m⟩ ⟨r', m'⟩ h
  simp only [MembershipKey.fields, Prod.mk.injEq] at h
  obtain ⟨rfl, rfl⟩ := h
  rfl

instance : Ord MembershipKey := ordOn MembershipKey.fields
instance : TransOrd MembershipKey := transOrd_ordOn _
instance : LawfulEqOrd MembershipKey := lawfulEqOrd_ordOn _ MembershipKey.fields_injective

/-- The key of a membership edge; the options are not part of it. -/
def MembershipEdge.key (e : MembershipEdge) : MembershipKey := ⟨e.role, e.member⟩

/-! ## The ownership index -/

/-- The label of the owning document, key by key. -/
structure OwnershipIndex where
  roles : BTreeMap String String := ∅
  schemaFacets : BTreeMap SchemaFacetKey String := ∅
  grants : BTreeMap GrantKey String := ∅
  defaultPrivileges : BTreeMap DefaultPrivKey String := ∅
  memberships : BTreeMap MembershipKey String := ∅
  /-- Granted role to the first declaring document and whether any stanza is exclusive. -/
  membershipStanzas : BTreeMap String (String × Bool) := ∅

/-- The managed facets of one schema. -/
structure ManagedSchemaScope where
  owner : Bool := false
  bindings : Bool := false
  deriving DecidableEq, Repr

/-- What a bundle manages, for its inspection. -/
structure ManagedScope where
  roles : BTreeSet String := ∅
  schemas : BTreeMap String ManagedSchemaScope := ∅

/-- What the changes of a bundle's plan may touch. -/
structure ManagedChangeSurface where
  roles : BTreeSet String := ∅
  ownerSchemas : BTreeSet String := ∅
  bindingSchemas : BTreeSet String := ∅
  explicitGrants : BTreeSet GrantKey := ∅
  explicitDefaultPrivileges : BTreeSet DefaultPrivKey := ∅
  explicitMemberships : BTreeSet MembershipKey := ∅

/-- The parts of a schema that are managed, with one more facet. -/
def ManagedSchemaScope.mark (scope : ManagedSchemaScope) : SchemaBindingFacet → ManagedSchemaScope
  | .owner => { scope with owner := true }
  | .bindings => { scope with bindings := true }

/-- The set of a map's keys. -/
def keySet {K V : Type} [Ord K] [TransOrd K] (m : BTreeMap K V) : BTreeSet K :=
  ExtTreeSet.ofList m.keys compare

/-- Mark the facet of a key in the scope of its schema. -/
def markFacet (schemas : BTreeMap String ManagedSchemaScope) (key : SchemaFacetKey) :
    BTreeMap String ManagedSchemaScope :=
  schemas.alter key.schema fun entry => some ((entry.getD {}).mark key.facet)

/-- The roles of the index, and for every schema the facets that are owned. -/
def OwnershipIndex.managedScope (index : OwnershipIndex) : ManagedScope :=
  { roles := keySet index.roles
    schemas := index.schemaFacets.keys.foldl markFacet ∅ }

/-- The schemas one facet is managed of. -/
def schemasOfFacet (index : OwnershipIndex) (facet : SchemaBindingFacet) : BTreeSet String :=
  ExtTreeSet.ofList ((index.schemaFacets.keys.filter (·.facet == facet)).map (·.schema)) compare

/-- What the plan may change: the keys of the index, and the schemas by their facets. -/
def OwnershipIndex.managedChangeSurface (index : OwnershipIndex) : ManagedChangeSurface :=
  { roles := keySet index.roles
    ownerSchemas := schemasOfFacet index .owner
    bindingSchemas := schemasOfFacet index .bindings
    explicitGrants := keySet index.grants
    explicitDefaultPrivileges := keySet index.defaultPrivileges
    explicitMemberships := keySet index.memberships }

/-! ## The change surface -/

/-- Does the object lie in a schema? Only a database does not. -/
def isBindingSchemaObject (objectType : ObjectType) : Bool := objectType != .database

/-- The schema a grant target lies in; a schema lies in itself. -/
def grantSchemaName (key : GrantKey) : Option String :=
  match key.objectType with
  | .schema => key.name
  | .database => none
  | _ => key.schema

namespace ManagedChangeSurface

variable (surface : ManagedChangeSurface)

/-- A grant may change by its own key, by the bindings of its schema or, on a database, by its role.
-/
def allowsGrantChange (key : GrantKey) : Bool :=
  surface.explicitGrants.contains key ||
    (isBindingSchemaObject key.objectType &&
      (grantSchemaName key).any fun schema => surface.bindingSchemas.contains schema) ||
    (key.objectType == .database && key.role.roleName?.any fun role => surface.roles.contains role)

/-- A global default is a property of the owner role, so the authority over the owner is the
authority over the default. -/
def allowsDefaultPrivilegeChange (key : DefaultPrivKey) : Bool :=
  surface.explicitDefaultPrivileges.contains key ||
    match key.scope with
    | .schema schema => surface.bindingSchemas.contains schema
    | .global => surface.roles.contains key.owner

/-- A membership may change by the granted role or by its own key. -/
def allowsMembershipChange (role member : String) : Bool :=
  surface.roles.contains role || surface.explicitMemberships.contains ⟨role, member⟩

/-- The change lies within what the bundle manages. -/
def allowsChange : Change → Bool
  | .createRole name _ | .alterRole name _ | .setComment name _ | .setPassword name _
  | .dropRole name => surface.roles.contains name
  | .terminateSessions role | .dropOwned role => surface.roles.contains role
  | .reassignOwned fromRole toRole => surface.roles.contains fromRole && !toRole.isEmpty
  | .createSchema name _ =>
      surface.ownerSchemas.contains name || surface.bindingSchemas.contains name
  | .alterSchemaOwner name owner | .ensureSchemaOwnerPrivileges name owner _ =>
      surface.ownerSchemas.contains name && !owner.isEmpty
  | .grant key _ | .revoke key _ _ => surface.allowsGrantChange key
  | .setDefaultPrivilege key _ | .revokeDefaultPrivilege key _ =>
      surface.allowsDefaultPrivilegeChange key
  | .addMember role member _ _ | .updateMemberOptions role member _ _ _ _
  | .removeMember role member _ => surface.allowsMembershipChange role member

end ManagedChangeSurface

/-! ## Rejected changes -/

/-- PUBLIC is a pseudo-role, so it is neither labelled nor quoted. -/
def describeGrantee : Grantee → String
  | .publicRole => "PUBLIC"
  | .role name => "role \"" ++ name ++ "\""

/-- The target of a grant in prose. -/
def describeTarget : Option String → Option String → String
  | some schema, some name => schema ++ "." ++ name
  | some schema, none => schema
  | none, some name => name
  | none, none => "<unnamed>"

/-- A change of a grant as an error message names it. -/
def formatGrantAction (action : String) (key : GrantKey) : String :=
  action ++ " for " ++ describeGrantee key.role ++ " on " ++ key.objectType.display ++ " \"" ++
    describeTarget key.schema key.name ++ "\""

/-- Default privileges as an error message names them. -/
def describeDefaultPrivilege (key : DefaultPrivKey) : String :=
  "default privilege for owner \"" ++ key.owner ++ "\" " ++ key.scope.display ++ " on " ++
    key.onType.display

/-- The change in prose. -/
def describeChange : Change → String
  | .createRole name _ => "create role \"" ++ name ++ "\""
  | .alterRole name _ => "alter role \"" ++ name ++ "\""
  | .setComment name _ => "set comment on role \"" ++ name ++ "\""
  | .setPassword name _ => "set password for role \"" ++ name ++ "\""
  | .dropRole name => "drop role \"" ++ name ++ "\""
  | .createSchema name _ => "create schema \"" ++ name ++ "\""
  | .alterSchemaOwner name owner =>
      "alter schema \"" ++ name ++ "\" owner to \"" ++ owner ++ "\""
  | .ensureSchemaOwnerPrivileges name owner _ =>
      "ensure owner privileges on schema \"" ++ name ++ "\" for \"" ++ owner ++ "\""
  | .grant key _ => formatGrantAction "grant" key
  | .revoke key _ _ => formatGrantAction "revoke" key
  | .setDefaultPrivilege key _ =>
      "set " ++ describeDefaultPrivilege key ++ " to " ++ describeGrantee key.grantee
  | .revokeDefaultPrivilege key _ =>
      "revoke " ++ describeDefaultPrivilege key ++ " from " ++ describeGrantee key.grantee
  | .addMember role member _ _ => "add membership \"" ++ role ++ "\" -> \"" ++ member ++ "\""
  | .updateMemberOptions role member _ _ _ _ =>
      "update membership options \"" ++ role ++ "\" -> \"" ++ member ++ "\""
  | .removeMember role member _ =>
      "remove membership \"" ++ role ++ "\" -> \"" ++ member ++ "\""
  | .terminateSessions role => "terminate sessions for role \"" ++ role ++ "\""
  | .reassignOwned fromRole toRole =>
      "reassign owned from \"" ++ fromRole ++ "\" to \"" ++ toRole ++ "\""
  | .dropOwned role => "drop owned by role \"" ++ role ++ "\""

/-- Why a plan is refused. -/
inductive ManagedChangeError where
  | outOfScope (change : String)
  deriving DecidableEq

/-- The first change outside the managed surface is refused. -/
def validateChangesAgainstManagedSurface (changes : List Change)
    (surface : ManagedChangeSurface) : Except ManagedChangeError Unit :=
  changes.forM fun change =>
    rejectIf (!surface.allowsChange change) (.outOfScope (describeChange change))

/-- A plan passes when each of its changes is allowed. -/
theorem validateChangesAgainstManagedSurface_eq_ok {changes : List Change}
    {surface : ManagedChangeSurface} :
    validateChangesAgainstManagedSurface changes surface = .ok () ↔
      ∀ change ∈ changes, surface.allowsChange change = true := by
  unfold validateChangesAgainstManagedSurface
  rw [forM_eq_ok]
  simp

/-! ## Keys decide -/

section Keys

variable {K V : Type} [Ord K] [TransOrd K] [LawfulEqOrd K] [DecidableEq K]

theorem mem_keySet {m : BTreeMap K V} {k : K} : k ∈ keySet m ↔ k ∈ m := by
  unfold keySet
  rw [ExtTreeSet.mem_ofList, List.contains_iff_mem, ExtTreeMap.mem_keys]

theorem contains_keySet {m : BTreeMap K V} {k : K} : (keySet m).contains k = true ↔ k ∈ m := by
  rw [ExtTreeSet.contains_iff_mem, mem_keySet]

omit [DecidableEq K] in
/-- Iteration reads nothing but the key set. -/
theorem keys_eq_of_mem_iff {V' : Type} {m : BTreeMap K V} {m' : BTreeMap K V'}
    (h : ∀ k, k ∈ m ↔ k ∈ m') : m.keys = m'.keys := by
  refine eq_of_sorted_of_mem_iff ExtTreeMap.ordered_keys ExtTreeMap.ordered_keys fun k => ?_
  rw [ExtTreeMap.mem_keys, ExtTreeMap.mem_keys, h]

end Keys

/-- The two indexes own the same keys. -/
structure OwnershipIndex.SameKeys (a b : OwnershipIndex) : Prop where
  roles : ∀ k, k ∈ a.roles ↔ k ∈ b.roles
  schemaFacets : ∀ k, k ∈ a.schemaFacets ↔ k ∈ b.schemaFacets
  grants : ∀ k, k ∈ a.grants ↔ k ∈ b.grants
  defaultPrivileges : ∀ k, k ∈ a.defaultPrivileges ↔ k ∈ b.defaultPrivileges
  memberships : ∀ k, k ∈ a.memberships ↔ k ∈ b.memberships
  membershipStanzas : ∀ k, k ∈ a.membershipStanzas ↔ k ∈ b.membershipStanzas

theorem OwnershipIndex.SameKeys.managedScope_eq {a b : OwnershipIndex} (h : a.SameKeys b) :
    a.managedScope = b.managedScope := by
  unfold OwnershipIndex.managedScope keySet
  rw [keys_eq_of_mem_iff h.roles, keys_eq_of_mem_iff h.schemaFacets]

theorem OwnershipIndex.SameKeys.managedChangeSurface_eq {a b : OwnershipIndex}
    (h : a.SameKeys b) : a.managedChangeSurface = b.managedChangeSurface := by
  unfold OwnershipIndex.managedChangeSurface schemasOfFacet keySet
  rw [keys_eq_of_mem_iff h.roles, keys_eq_of_mem_iff h.schemaFacets,
    keys_eq_of_mem_iff h.grants, keys_eq_of_mem_iff h.defaultPrivileges,
    keys_eq_of_mem_iff h.memberships]

end PgRoles.Core
