import PgRoles.Lib.KeyedRows
import PgRoles.Inspect.Normalize
import PgRoles.Inspect.Memberships
import PgRoles.Inspect.RoleConfig

/-!
# Rows of the catalog

The queries of an inspection over the tables of the catalog: roles, memberships, schemas and
privileges. Every object with an ACL is exploded into one row per entry; managed roles are read from
explicit ACLs alone, PUBLIC from the effective ones, so that PostgreSQL's built-in grants are seen. A
query keeps the rows of the schemas and roles it is asked for. Routines are named by their canonical
signatures.
-/

set_option autoImplicit false

namespace PgRoles.Inspect

open Std PgRoles.Lib PgRoles.Core

/-! ## Tables -/

/-- Whom an ACL entry names: OID 0, a role, or an OID that is no role's any more. -/
inductive AclGrantee where
  | publicRole
  | role (name : String)
  | dangling
  deriving DecidableEq, Repr

/-- One entry of an ACL. -/
structure AclItem where
  grantee : AclGrantee
  grantor : String
  privilegeType : String
  deriving DecidableEq, Repr

/-- A relation. Its ACL is NULL until something is granted. -/
structure PgClass where
  schema : String
  name : String
  relkind : Char
  owner : String
  acl : Option (List AclItem)
  deriving Repr

/-- A routine. -/
structure PgProc where
  oid : Nat
  schema : String
  proname : String
  /-- The input types, as `oidvectortypes` writes them. -/
  argTypes : String
  /-- The arguments with their names and modes, as `pg_get_function_identity_arguments` writes
  them. -/
  identityArguments : String
  owner : String
  acl : Option (List AclItem)
  deriving Repr

/-- A type; its kind is a base type, a composite type, a pseudo-type and so on. -/
structure PgType where
  schema : String
  name : String
  typtype : Char
  owner : String
  acl : Option (List AclItem)
  deriving Repr

/-- A schema. -/
structure PgNamespace where
  name : String
  owner : String
  acl : Option (List AclItem)
  deriving Repr

/-- A database. -/
structure PgDatabase where
  name : String
  owner : String
  acl : Option (List AclItem)
  deriving Repr

/-- Default privileges of an owner, in one schema or, without one, in all of them. -/
structure PgDefaultAcl where
  owner : String
  schema : Option String
  objType : Char
  acl : List AclItem
  deriving Repr

/-- A role, as the query over `pg_roles` reports it. -/
structure RoleRow where
  rolname : String
  rolsuper : Bool
  rolinherit : Bool
  rolcreaterole : Bool
  rolcreatedb : Bool
  rolcanlogin : Bool
  rolreplication : Bool
  rolbypassrls : Bool
  rolconnlimit : Int
  comment : Option String
  rolvaliduntil : Option String
  rolconfig : Option (List String)

/-- A refusal of the server, with its SQLSTATE where it sent one. -/
structure DatabaseError where
  code : Option String
  message : String
  deriving DecidableEq, Repr

/-- The catalog as one connection reads it. -/
structure Catalog where
  roles : List RoleRow
  memberships : List MembershipRow
  classes : List PgClass
  procs : List PgProc
  types : List PgType
  namespaces : List PgNamespace
  defaultAcls : List PgDefaultAcl
  /-- The connected database. -/
  database : PgDatabase
  currentUser : String
  /-- The routine that a signature names, by its OID, or the server's refusal of the text. -/
  toRegprocedure : String → Except DatabaseError (Option Nat)
  /-- The only routine of a name. -/
  toRegproc : String → Except DatabaseError (Option Nat)
  /-- The role has the privilege on the schema. -/
  hasSchemaPrivilege : String → String → Privilege → Bool
  /-- The ACL that an object of a kind has for its owner before anything is granted. -/
  acldefault : Char → String → List AclItem
  /-- The connected role has the privileges of the role. -/
  hasUsage : String → Bool
  /-- The connected role holds the privilege on the object WITH GRANT OPTION. -/
  hasGrantOption : ObjectType → String → String → Privilege → Bool

/-! ## Objects -/

/-- An object with an ACL, as a query reports it. -/
structure AclObject where
  /-- The schema the query selects the object by. -/
  nspname : String
  /-- The schema in the row: none for schemas and databases. -/
  schemaName : Option String
  objectName : String
  objType : String
  owner : String
  acl : Option (List AclItem)
  /-- The kind under which `acldefault` knows the object. -/
  aclKind : Char

/-- The label of a kind of relation that can be granted on. -/
def relkindLabel : Char → Option String
  | 'r' => some "table"
  | 'p' => some "table"
  | 'v' => some "view"
  | 'm' => some "materialized_view"
  | 'S' => some "sequence"
  | _ => none

/-- Indexes, composite types and the like are not inspected. -/
def PgClass.object? (c : PgClass) : Option AclObject :=
  (relkindLabel c.relkind).map fun label =>
    ⟨c.schema, some c.schema, c.name, label, c.owner, c.acl, if c.relkind = 'S' then 'S' else 'r'⟩

/-- The canonical signature of a routine: its name with the input types. -/
def PgProc.signature (p : PgProc) : String := p.proname ++ "(" ++ p.argTypes ++ ")"

/-- A routine is reported under its canonical signature. -/
def PgProc.object (p : PgProc) : AclObject :=
  ⟨p.schema, some p.schema, p.signature, "function", p.owner, p.acl, 'f'⟩

/-- Array types and pseudo-types are not inspected. -/
def PgType.object? (t : PgType) : Option AclObject :=
  if startsWithText t.name "_" || t.typtype == 'p' then none
  else some ⟨t.schema, some t.schema, t.name, "type", t.owner, t.acl, 'T'⟩

/-- Schemas are selected by their own names. -/
def PgNamespace.object (n : PgNamespace) : AclObject :=
  ⟨n.name, none, n.name, "schema", n.owner, n.acl, 'n'⟩

/-- Databases are in no schema; only the connected one is read, for PUBLIC. -/
def PgDatabase.object (d : PgDatabase) : AclObject :=
  ⟨"", none, d.name, "database", d.owner, d.acl, 'd'⟩

namespace Catalog

variable (catalog : Catalog)

/-- The relations that can be granted on. -/
def relationObjects : List AclObject := catalog.classes.filterMap PgClass.object?
/-- The routines. -/
def functionObjects : List AclObject := catalog.procs.map PgProc.object
/-- The types that are inspected. -/
def typeObjects : List AclObject := catalog.types.filterMap PgType.object?
/-- The schemas. -/
def schemaObjects : List AclObject := catalog.namespaces.map PgNamespace.object

/-- The objects that wildcards select among. -/
def schemaScopedObjects : List AclObject :=
  catalog.relationObjects ++ catalog.functionObjects ++ catalog.typeObjects

end Catalog

/-! ## Labels -/

/-- A privilege as an ACL or a privilege function spells it. -/
def aclCharToPrivilege : String → Option Privilege
  | "r" | "SELECT" => some .select
  | "a" | "INSERT" => some .insert
  | "w" | "UPDATE" => some .update
  | "d" | "DELETE" => some .delete
  | "D" | "TRUNCATE" => some .truncate
  | "x" | "REFERENCES" => some .references
  | "t" | "TRIGGER" => some .trigger
  | "X" | "EXECUTE" => some .execute
  | "U" | "USAGE" => some .usage
  | "C" | "CREATE" => some .create
  | "c" | "CONNECT" => some .connect
  | "T" | "TEMPORARY" => some .temporary
  | _ => none

/-- The object type that a row's label names. -/
def objTypeStrToObjectType : String → Option ObjectType
  | "table" => some .table
  | "view" => some .view
  | "materialized_view" => some .materializedView
  | "sequence" => some .sequence
  | "function" => some .function
  | "schema" => some .schema
  | "database" => some .database
  | "type" => some .type
  | _ => none

/-- The label of an object type. -/
def objectTypeLabel : ObjectType → String
  | .table => "table"
  | .view => "view"
  | .materializedView => "materialized_view"
  | .sequence => "sequence"
  | .function => "function"
  | .schema => "schema"
  | .database => "database"
  | .type => "type"

/-- Each type is read back from its label, and from no other text. -/
theorem objTypeStrToObjectType_eq_some_iff {text : String} {t : ObjectType} :
    objTypeStrToObjectType text = some t ↔ text = objectTypeLabel t := by
  constructor
  · intro h
    unfold objTypeStrToObjectType at h
    split at h
    all_goals first
      | (cases h; rfl)
      | cases h
  · rintro rfl
    cases t <;> rfl

/-! ## Rows -/

/-- One privilege entry of an object, as a query returns it. -/
structure AclRow where
  grantee : Option String
  privilegeType : String
  schemaName : Option String
  objectName : String
  objType : String
  ownerName : Option String
  /-- The role that granted this entry. -/
  grantor : Option String
  deriving DecidableEq, Repr

/-- The schema a row is scoped by: schema rows carry it as the object's name. -/
def AclRow.scopingSchema (row : AclRow) : Option String :=
  if row.objType = "schema" then some row.objectName else row.schemaName

/-- The row is one that a query over these schemas and roles asks for. -/
def AclRow.inScope (row : AclRow) (schemas roles : List String) : Bool :=
  row.scopingSchema.any schemas.contains && row.grantee.any roles.contains

/-- The row of one item of an object's list. -/
def AclObject.row (o : AclObject) (grantee : Option String) (item : AclItem) : AclRow :=
  ⟨grantee, item.privilegeType, o.schemaName, o.objectName, o.objType, some o.owner,
    some item.grantor⟩

/-- An entry of one of the roles. -/
def AclObject.roleRow? (o : AclObject) (roles : List String) (item : AclItem) : Option AclRow :=
  match item.grantee with
  | .role name => if roles.contains name then some (o.row (some name) item) else none
  | _ => none

/-- An entry of PUBLIC, which has no grantee name. -/
def AclObject.publicRow? (o : AclObject) (item : AclItem) : Option AclRow :=
  match item.grantee with
  | .publicRole => some (o.row none item)
  | _ => none

/-- Explicit entries of the roles, on the objects of the schemas. -/
def explicitRows (objects : List AclObject) (schemas roles : List String) : List AclRow :=
  objects.flatMap fun o =>
    if schemas.contains o.nspname then (o.acl.getD []).filterMap (o.roleRow? roles) else []

/-- Effective entries of PUBLIC, on the objects of the schemas. -/
def effectivePublicRows (catalog : Catalog) (objects : List AclObject) (schemas : List String) :
    List AclRow :=
  objects.flatMap fun o =>
    if schemas.contains o.nspname then
      (o.acl.getD (catalog.acldefault o.aclKind o.owner)).filterMap o.publicRow?
    else []

section Queries

variable (catalog : Catalog) (schemas roles : List String)

/-- Rows of tables, views and sequences. -/
def fetchRelationPrivileges : List AclRow := explicitRows catalog.relationObjects schemas roles
/-- Rows of schemas. -/
def fetchSchemaPrivileges : List AclRow := explicitRows catalog.schemaObjects schemas roles
/-- Rows of routines. -/
def fetchFunctionPrivileges : List AclRow := explicitRows catalog.functionObjects schemas roles
/-- Rows of types. -/
def fetchTypePrivileges : List AclRow := explicitRows catalog.typeObjects schemas roles

end Queries

/-- The types whose PUBLIC rows one query reads. -/
def isRelationType : ObjectType → Bool
  | .table | .view | .materializedView | .sequence => true
  | _ => false

/-- The schemas of the scopes whose type satisfies the predicate. -/
def scopeSchemas (scopes : List PublicObjectScope) (predicate : ObjectType → Bool) : List String :=
  (scopes.filter fun scope => predicate scope.objectType).filterMap (·.schema)

/-- Schema scopes carry the schema as the object's name. -/
def scopeSchemaNames (scopes : List PublicObjectScope) : List String :=
  (scopes.filter fun scope => scope.objectType == .schema).filterMap (·.name)

/-- The connected database is read when some scope is of a database; it is in no schema. -/
def scopeDatabases (scopes : List PublicObjectScope) : List String :=
  if scopes.any fun scope => scope.objectType == .database then [""] else []

/-- PUBLIC rows of the object families and schemas that the scopes name. -/
def readRawPublicPrivileges (catalog : Catalog) (scopes : List PublicObjectScope) : List AclRow :=
  effectivePublicRows catalog catalog.relationObjects (scopeSchemas scopes isRelationType) ++
    effectivePublicRows catalog catalog.functionObjects (scopeSchemas scopes (· == .function)) ++
    effectivePublicRows catalog catalog.typeObjects (scopeSchemas scopes (· == .type)) ++
    effectivePublicRows catalog catalog.schemaObjects (scopeSchemaNames scopes) ++
    effectivePublicRows catalog [catalog.database.object] (scopeDatabases scopes)

/-- Rows of the roles on the connected database. -/
def fetchDatabasePrivileges (catalog : Catalog) (roles : List String) : List AclRow :=
  explicitRows [catalog.database.object] [""] roles

/-! ## Roles and schemas -/

/-- The state of a role in the graph. -/
def RoleRow.toRoleState (row : RoleRow) : RoleState where
  login := row.rolcanlogin
  superuser := row.rolsuper
  createdb := row.rolcreatedb
  createrole := row.rolcreaterole
  inherit := row.rolinherit
  replication := row.rolreplication
  bypassrls := row.rolbypassrls
  connectionLimit := row.rolconnlimit
  comment := row.comment
  passwordValidUntil := row.rolvaliduntil
  config := inspectedConfig (row.rolconfig.getD [])

/-- A schema with its owner and the owner's ordinary privileges. -/
structure SchemaRow where
  schemaName : String
  ownerName : String
  ownerHasCreate : Bool
  ownerHasUsage : Bool

/-- The ordinary privileges that the owner of a schema has on it. -/
def SchemaRow.ownerPrivileges (row : SchemaRow) : Finset Privilege :=
  (if row.ownerHasCreate then {.create} else ∅) ∪ (if row.ownerHasUsage then {.usage} else ∅)

/-- The state of a schema in the graph. -/
def SchemaRow.toSchemaState (row : SchemaRow) : SchemaState :=
  ⟨some row.ownerName, row.ownerPrivileges⟩

/-- The roles of the names. -/
def fetchRoles (catalog : Catalog) (managedRoles : List String) : List RoleRow :=
  catalog.roles.filter fun row => managedRoles.contains row.rolname

/-- The memberships in the roles of the names. -/
def fetchMemberships (catalog : Catalog) (managedRoles : List String) : List MembershipRow :=
  catalog.memberships.filter fun row => managedRoles.contains row.roleName

/-- The row of a schema. -/
def schemaRow (catalog : Catalog) (n : PgNamespace) : SchemaRow where
  schemaName := n.name
  ownerName := n.owner
  ownerHasCreate := catalog.hasSchemaPrivilege n.owner n.name .create
  ownerHasUsage := catalog.hasSchemaPrivilege n.owner n.name .usage

/-- The schemas of the names. -/
def fetchSchemas (catalog : Catalog) (managedSchemas : List String) : List SchemaRow :=
  (catalog.namespaces.filter fun n => managedSchemas.contains n.name).map (schemaRow catalog)

/-! ## Wildcard scopes -/

/-- An object type and a schema that some wildcard selects over. -/
abbrev WildcardScope : Type := ObjectType × String

/-- The objects that a pattern ranges over. -/
def WildcardGrantPattern.scope (wildcard : WildcardGrantPattern) : WildcardScope :=
  (wildcard.objectType, wildcard.schema)

/-- The scopes of the wildcards, in order and without repetitions. -/
def wildcardScopesOf (wildcards : List WildcardGrantPattern) : List WildcardScope :=
  (ExtTreeSet.ofList ((wildcards.filter fun wildcard => isWildcardType wildcard.objectType).map
    (·.scope)) compare).toList

theorem mem_wildcardScopesOf {wildcards : List WildcardGrantPattern} {scope : WildcardScope} :
    scope ∈ wildcardScopesOf wildcards ↔
      ∃ wildcard ∈ wildcards, isWildcardType wildcard.objectType = true ∧
        wildcard.scope = scope := by
  simp [wildcardScopesOf, and_assoc]

/-- The object lies in one of the scopes, which name the type by its label. -/
def AclObject.inScopes (o : AclObject) (scopes : List WildcardScope) : Bool :=
  scopes.any fun scope => scope.2 == o.nspname && objectTypeLabel scope.1 == o.objType

/-- The scope an object is collected under. -/
def AclObject.scope? (o : AclObject) : Option WildcardScope :=
  (objTypeStrToObjectType o.objType).map fun t => (t, o.nspname)

/-- One more name in the inventory of a scope. -/
def addObjectName (held : Option (BTreeSet String)) (o : AclObject) : BTreeSet String :=
  (held.getD ∅).insert o.objectName

/-- The objects of each of the scopes. -/
def fetchObjectInventoryForWildcards (catalog : Catalog) (scopes : List WildcardScope) :
    Inventory :=
  collectRows AclObject.scope? addObjectName
    (catalog.schemaScopedObjects.filter (·.inScopes scopes))

/-! ## Grantability -/

/-- Whether the connected role could grant privileges on an object. -/
structure GrantabilityRow where
  schemaName : String
  objectName : String
  ownerName : String
  can : Finset Privilege

/-- The privileges that the query asks about for objects of a type. -/
def grantablePrivileges : ObjectType → Finset Privilege
  | .table | .view | .materializedView =>
      {.select, .insert, .update, .delete, .truncate, .references, .trigger}
  | .sequence => {.select, .update, .usage}
  | .function => {.execute}
  | .type => {.usage}
  | _ => ∅

/-- An owner can grant everything on the object, others what they hold WITH GRANT OPTION. -/
def grantabilityRow (catalog : Catalog) (o : AclObject) : GrantabilityRow where
  schemaName := o.nspname
  objectName := o.objectName
  ownerName := o.owner
  can :=
    match objTypeStrToObjectType o.objType with
    | none => ∅
    | some t => (grantablePrivileges t).filter fun p =>
        catalog.hasUsage o.owner || catalog.hasGrantOption t o.nspname o.objectName p

/-- Narrow a row that was read for every privilege to some of them. -/
def GrantabilityRow.masked (row : GrantabilityRow) (needs : Finset Privilege) : GrantabilityRow :=
  { row with can := row.can ∩ needs }

/-- Grantability by object type, schema and name. -/
abbrev Grantability : Type := BTreeMap (ObjectType × String × String) GrantabilityRow

/-- The key an object's grantability is kept under. -/
def AclObject.grantabilityKey? (o : AclObject) : Option (ObjectType × String × String) :=
  (objTypeStrToObjectType o.objType).map fun t => (t, o.nspname, o.objectName)

/-- The grantability of every object of the scopes. -/
def fetchWildcardGrantability (catalog : Catalog) (scopes : List WildcardScope) : Grantability :=
  collectRows AclObject.grantabilityKey? (fun _ o => grantabilityRow catalog o)
    (catalog.schemaScopedObjects.filter (·.inScopes scopes))

/-- Grantability with the executor it is about. -/
structure RawGrantability where
  executor : String
  rows : Grantability

/-- The grantability of the scopes for the connected role. -/
def readRawGrantability (catalog : Catalog) (scopes : List WildcardScope) : RawGrantability :=
  ⟨catalog.currentUser, fetchWildcardGrantability catalog scopes⟩

/-! ## The read -/

/-- Every privilege row and inventory entry inside one scope, as the server returned it. -/
structure RawPrivilegeState where
  aclRows : List AclRow := []
  inventory : Inventory := ∅
  /-- Rows of PUBLIC, which have no grantee to filter on. -/
  publicAclRows : List AclRow := []

/-- The privilege queries over one scope. -/
def readRawPrivileges (catalog : Catalog) (schemas roles : List String)
    (wildcardScopes : List WildcardScope) (publicScopes : List PublicObjectScope) :
    RawPrivilegeState where
  aclRows := fetchRelationPrivileges catalog schemas roles ++
    fetchSchemaPrivileges catalog schemas roles ++
    fetchFunctionPrivileges catalog schemas roles ++ fetchTypePrivileges catalog schemas roles
  inventory := fetchObjectInventoryForWildcards catalog wildcardScopes
  publicAclRows := readRawPublicPrivileges catalog publicScopes

/-- Nothing is read for a scope without schemas and PUBLIC rules. -/
def InspectConfig.readsNoPrivileges (config : InspectConfig) : Bool :=
  config.privilegeSchemas.isEmpty && config.publicObjectScopes.isEmpty

/-- The privilege part of a read over one scope, whose PUBLIC scopes name routines canonically. -/
def RawPrivilegeState.read (catalog : Catalog) (scope : InspectConfig) : RawPrivilegeState :=
  if scope.readsNoPrivileges then {}
  else
    readRawPrivileges catalog scope.privilegeSchemas scope.managedRoles
      (wildcardScopesOf scope.wildcardGrants) scope.publicObjectScopes

end PgRoles.Inspect
