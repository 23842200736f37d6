import PgRoles.Lib.BTree

/-!
# The role graph

The normalized state that the manifest expander and the database inspector both produce and the
diff engine compares: roles, schemas, object privileges, default privileges and memberships, with
the inspection-only facts about grantors, ownership and routine spellings.

A `GrantState` and a `DefaultPrivState` of the source are one privilege set each, so the maps hold
the set itself. Every key type is ordered as its source type is: enumerations by their display
text, structures field by field, and the PUBLIC pseudo-role before every role.
-/

set_option autoImplicit false

namespace PgRoles.Core

open Std PgRoles.Lib

/-! ## Object types and privileges -/

/-- PostgreSQL object types that can have privileges granted on them. -/
inductive ObjectType where
  | table
  | view
  | materializedView
  | sequence
  | function
  | schema
  | database
  | type
  deriving DecidableEq, Repr

/-- Display text of an object type. -/
def ObjectType.display : ObjectType → String
  | .table => "table"
  | .view => "view"
  | .materializedView => "materialized_view"
  | .sequence => "sequence"
  | .function => "function"
  | .schema => "schema"
  | .database => "database"
  | .type => "type"

theorem ObjectType.display_injective : Function.Injective ObjectType.display := by
  intro a b h
  cases a <;> cases b <;> first | rfl | (exact absurd h (by decide))

/-- Object types are ordered by their display text. -/
instance : Ord ObjectType := ordOn ObjectType.display
instance : TransOrd ObjectType := transOrd_ordOn _
instance : LawfulEqOrd ObjectType := lawfulEqOrd_ordOn _ ObjectType.display_injective

/-- PostgreSQL privilege types. -/
inductive Privilege where
  | select
  | insert
  | update
  | delete
  | truncate
  | references
  | trigger
  | execute
  | usage
  | create
  | connect
  | temporary
  deriving DecidableEq, Repr

/-- Display text of a privilege. -/
def Privilege.display : Privilege → String
  | .select => "SELECT"
  | .insert => "INSERT"
  | .update => "UPDATE"
  | .delete => "DELETE"
  | .truncate => "TRUNCATE"
  | .references => "REFERENCES"
  | .trigger => "TRIGGER"
  | .execute => "EXECUTE"
  | .usage => "USAGE"
  | .create => "CREATE"
  | .connect => "CONNECT"
  | .temporary => "TEMPORARY"

theorem Privilege.display_injective : Function.Injective Privilege.display := by
  intro a b h
  cases a <;> cases b <;> first | rfl | (exact absurd h (by decide))

/-- Privileges are ordered by their display text. -/
instance : Ord Privilege := ordOn Privilege.display
instance : TransOrd Privilege := transOrd_ordOn _
instance : LawfulEqOrd Privilege := lawfulEqOrd_ordOn _ Privilege.display_injective

/-- Whether the listed privileges must exist or must not exist. -/
inductive Ensure where
  | present
  | absent
  deriving DecidableEq, Repr

/-! ## Roles and schemas -/

/-- The managed attributes of a role; the defaults are PostgreSQL's. -/
structure RoleState where
  login : Bool := false
  superuser : Bool := false
  createdb : Bool := false
  createrole : Bool := false
  inherit : Bool := true
  replication : Bool := false
  bypassrls : Bool := false
  connectionLimit : Int := -1
  comment : Option String := none
  passwordValidUntil : Option String := none
  config : BTreeMap String String := ∅
  deriving DecidableEq

/-- A single attribute change on a role. -/
inductive RoleAttribute where
  | login (value : Bool)
  | superuser (value : Bool)
  | createdb (value : Bool)
  | createrole (value : Bool)
  | inherit (value : Bool)
  | replication (value : Bool)
  | bypassrls (value : Bool)
  | connectionLimit (value : Int)
  | validUntil (value : Option String)
  | setConfig (parameter value : String)
  | resetConfig (parameter : String)
  deriving DecidableEq

/-- The managed state of a schema. An absent owner means "ensure existence only". -/
structure SchemaState where
  owner : Option String
  ownerPrivileges : Finset Privilege
  deriving DecidableEq

/-- The ordinary privileges of a schema owner; the owner's name plays no part. -/
def defaultSchemaOwnerPrivileges (_owner : String) : Finset Privilege := {.create, .usage}

/-! ## Grantees and keys -/

/-- A privilege grantee: the PUBLIC pseudo-role or an ordinary role. -/
inductive Grantee where
  | publicRole
  | role (name : String)
  deriving DecidableEq, Repr

/-- How the PUBLIC pseudo-role spells itself in a bare string. -/
def publicRoleName : String := "PUBLIC"

/-- Parse a manifest grantee: exactly `PUBLIC` is the pseudo-role. -/
def Grantee.parse (s : String) : Grantee := if s = publicRoleName then .publicRole else .role s

/-- Different names are different grantees. -/
theorem Grantee.parse_injective : Function.Injective Grantee.parse := by
  intro a b h
  unfold Grantee.parse at h
  split_ifs at h with ha hb hb
  · rw [ha, hb]
  · exact Grantee.role.inj h

/-- Is the grantee PUBLIC? -/
def Grantee.isPublic : Grantee → Bool
  | .publicRole => true
  | .role _ => false

/-- The name that a grantee is written as. -/
def Grantee.asStr : Grantee → String
  | .publicRole => publicRoleName
  | .role name => name

/-- The role name of an ordinary grantee. -/
def Grantee.roleName? : Grantee → Option String
  | .publicRole => none
  | .role name => some name

theorem Grantee.roleName?_injective : Function.Injective Grantee.roleName? := by
  intro a b h
  cases a <;> cases b <;> simp_all [Grantee.roleName?]

/-- PUBLIC sorts before every role. -/
instance : Ord Grantee := ordOn Grantee.roleName?
instance : TransOrd Grantee := transOrd_ordOn _
instance : LawfulEqOrd Grantee := lawfulEqOrd_ordOn _ Grantee.roleName?_injective

/-- Where a default-privilege rule applies: owner-wide, or in one schema. -/
inductive DefaultPrivilegeScope where
  | global
  | schema (schema : String)
  deriving DecidableEq, Repr

/-- The schema of a schema scope. -/
def DefaultPrivilegeScope.schema? : DefaultPrivilegeScope → Option String
  | .global => none
  | .schema s => some s

/-- A scope is told by its schema, or by having none. -/
theorem DefaultPrivilegeScope.schema?_injective :
    Function.Injective DefaultPrivilegeScope.schema? := by
  intro a b h
  cases a <;> cases b <;> simp_all [DefaultPrivilegeScope.schema?]

/-- The global layer sorts before every schema. -/
instance : Ord DefaultPrivilegeScope := ordOn DefaultPrivilegeScope.schema?
instance : TransOrd DefaultPrivilegeScope := transOrd_ordOn _
instance : LawfulEqOrd DefaultPrivilegeScope :=
  lawfulEqOrd_ordOn _ DefaultPrivilegeScope.schema?_injective

/-- A grant target. The name is the last field of the order, so the keys of one
(grantee, type, schema) are contiguous. -/
structure GrantKey where
  role : Grantee
  objectType : ObjectType
  schema : Option String
  name : Option String
  deriving DecidableEq, Repr

/-- The fields of a grant key in comparison order. -/
def GrantKey.fields (k : GrantKey) : Grantee × ObjectType × Option String × Option String :=
  (k.role, k.objectType, k.schema, k.name)

/-- The fields of a key tell the key. -/
theorem GrantKey.fields_injective : Function.Injective GrantKey.fields := by
  rintro ⟨r, t, s, n⟩ ⟨r', t', s', n'⟩ h
  simp only [GrantKey.fields, Prod.mk.injEq] at h
  obtain ⟨rfl, rfl, rfl, rfl⟩ := h
  rfl

instance : Ord GrantKey := ordOn GrantKey.fields
instance : TransOrd GrantKey := transOrd_ordOn _
instance : LawfulEqOrd GrantKey := lawfulEqOrd_ordOn _ GrantKey.fields_injective

/-- The object name that selects every object of a type in a schema. -/
def wildcardName : String := "*"

/-- The wildcard key of a key's (grantee, type, schema). -/
def GrantKey.wildcard (k : GrantKey) : GrantKey := { k with name := some wildcardName }

/-- The key names the wildcard. -/
def GrantKey.isWildcard (k : GrantKey) : Bool := k.name == some wildcardName

/-- The two keys share grantee, type and schema. -/
def GrantKey.sameScope (k target : GrantKey) : Bool :=
  target.role == k.role && target.objectType == k.objectType && target.schema == k.schema

/-- A default-privilege rule. -/
structure DefaultPrivKey where
  owner : String
  scope : DefaultPrivilegeScope
  onType : ObjectType
  grantee : Grantee
  deriving DecidableEq, Repr

/-- The fields of a default-privilege key in comparison order. -/
def DefaultPrivKey.fields (k : DefaultPrivKey) :
    String × DefaultPrivilegeScope × ObjectType × Grantee :=
  (k.owner, k.scope, k.onType, k.grantee)

/-- The fields of a key tell the key. -/
theorem DefaultPrivKey.fields_injective : Function.Injective DefaultPrivKey.fields := by
  rintro ⟨o, s, t, g⟩ ⟨o', s', t', g'⟩ h
  simp only [DefaultPrivKey.fields, Prod.mk.injEq] at h
  obtain ⟨rfl, rfl, rfl, rfl⟩ := h
  rfl

instance : Ord DefaultPrivKey := ordOn DefaultPrivKey.fields
instance : TransOrd DefaultPrivKey := transOrd_ordOn _
instance : LawfulEqOrd DefaultPrivKey := lawfulEqOrd_ordOn _ DefaultPrivKey.fields_injective

/-! ## Memberships -/

/-- A membership edge: `member` belongs to `role`. -/
structure MembershipEdge where
  role : String
  member : String
  inherit : Bool
  admin : Bool
  deriving DecidableEq, Repr

/-- The fields of a membership edge in comparison order. -/
def MembershipEdge.fields (e : MembershipEdge) : String × String × Bool × Bool :=
  (e.role, e.member, e.inherit, e.admin)

/-- The fields of an edge tell the edge. -/
theorem MembershipEdge.fields_injective : Function.Injective MembershipEdge.fields := by
  rintro ⟨r, m, i, a⟩ ⟨r', m', i', a'⟩ h
  simp only [MembershipEdge.fields, Prod.mk.injEq] at h
  obtain ⟨rfl, rfl, rfl, rfl⟩ := h
  rfl

instance : Ord MembershipEdge := ordOn MembershipEdge.fields
instance : TransOrd MembershipEdge := transOrd_ordOn _
instance : LawfulEqOrd MembershipEdge := lawfulEqOrd_ordOn _ MembershipEdge.fields_injective

/-- The (role, member) pair of an edge. -/
def MembershipEdge.pair (e : MembershipEdge) : String × String := (e.role, e.member)

/-- Options on one catalog membership grant. -/
structure MembershipOptions where
  inherit : Bool
  admin : Bool
  set : Bool
  deriving DecidableEq, Repr

/-! ## The graph -/

/-- Complete state of managed roles, grants, default privileges and memberships. -/
structure RoleGraph where
  /-- Catalog-resolved routine spellings, keyed by (schema, supplied signature). -/
  routineAliases : BTreeMap (String × String) String := ∅
  roles : BTreeMap String RoleState := ∅
  schemas : BTreeMap String SchemaState := ∅
  grants : BTreeMap GrantKey (Finset Privilege) := ∅
  defaultPrivileges : BTreeMap DefaultPrivKey (Finset Privilege) := ∅
  memberships : BTreeSet MembershipEdge := ∅
  /-- Privileges asserted absent per grant target. -/
  grantAbsences : BTreeMap GrantKey (Finset Privilege) := ∅
  /-- Privileges asserted absent per default-privilege rule. -/
  defaultPrivilegeAbsences : BTreeMap DefaultPrivKey (Finset Privilege) := ∅
  /-- Roles whose membership stanza asserts that nobody else holds them. -/
  exclusiveMembershipRoles : BTreeSet String := ∅
  /-- Grant targets whose current ACL entry belongs to the object's owner. -/
  inherentGrants : BTreeSet GrantKey := ∅
  /-- Grantors recorded on each live membership, keyed by (role, member). -/
  membershipEdgeGrantors : BTreeMap (String × String) (BTreeSet String) := ∅
  /-- Options of each live membership grant, keyed by (role, member), then grantor. -/
  membershipEdgeOptions : BTreeMap (String × String) (BTreeMap String MembershipOptions) := ∅
  /-- Live (role, member, grantor) edges that hold ADMIN for the connected executor. -/
  executorAuthorityEdges : BTreeSet (String × String × String) := ∅
  /-- Privileges per ACL entry, keyed by grant target, then grantor. -/
  grantEntryGrantors : BTreeMap GrantKey (BTreeMap String (Finset Privilege)) := ∅

end PgRoles.Core
