import PgRoles.Inspect.DefaultAcl
import PgRoles.Inspect.Privileges
import PgRoles.Inspect.Routines

/-!
# One read, many derivations

An inspection is a read followed by a derivation. The read asks the catalog for every row inside one
scope; a derivation narrows the rows to the scope of one config and builds its graph. One read serves
several configs: a config it does not cover is refused, rules whose routines were not found are
refused, and grantability is read for the first derivation that leaves a wildcard unsatisfied, and
kept.
-/

set_option autoImplicit false

namespace PgRoles.Inspect

open Std PgRoles.Lib PgRoles.Core

/-! ## Database privileges -/

/-- The grant that a row of the connected database shows. -/
def AclRow.databaseEntry? (row : AclRow) : Option (GrantKey × Privilege) := do
  let grantee ← row.grantee
  let privilege ← aclCharToPrivilege row.privilegeType
  some (⟨.role grantee, .database, none, some row.objectName⟩, privilege)

/-- The privileges of the roles on the database. -/
def databaseGrantsOf (rows : List AclRow) : BTreeMap GrantKey (Finset Privilege) :=
  extendEntries ∅ ((rows.filterMap AclRow.databaseEntry?).map fun e => (e.1, {e.2}))

/-- The grants of the database's owner. -/
def databaseInherentGrantsOf (rows : List AclRow) : BTreeSet GrantKey :=
  ExtTreeSet.ofList (((rows.filter fun row => row.ownerName == row.grantee).filterMap
    AclRow.databaseEntry?).map (·.1)) compare

/-- The grant is one to a role of the names. -/
def isGrantTo (roles : List String) (key : GrantKey) : Bool :=
  match key.role with
  | .role name => roles.contains name
  | .publicRole => false

/-! ## The read -/

/-- Every row inside one scope, with the grantability it read if any derivation asked for it. -/
structure RawInspection where
  scope : InspectConfig
  routines : RoutineCatalog
  roles : List RoleRow
  memberships : List MembershipRow
  schemas : List SchemaRow
  privileges : RawPrivilegeState
  databaseGrants : BTreeMap GrantKey (Finset Privilege)
  databaseInherentGrants : BTreeSet GrantKey
  defaultPrivileges : BTreeMap DefaultPrivKey (Finset Privilege)
  grantability : Option RawGrantability := none

/-- A database that rules name and that is not the connected one. -/
def mismatchedTarget? (catalog : Catalog) (scope : InspectConfig) : Option String :=
  scope.databaseTargets.find? fun target => target != catalog.database.name

namespace RawInspection

/-- The rows of a scope whose routines were resolved. PUBLIC rows are read for the scopes with their
routines named canonically. -/
def readRows (catalog : Catalog) (scope : InspectConfig) (routines : RoutineCatalog) :
    RawInspection where
  scope := scope
  routines := routines
  roles := fetchRoles catalog scope.managedRoles
  -- Membership inspection alone is widened by predefined grantors.
  memberships := fetchMemberships catalog (scope.managedRoles ++ scope.membershipGrantors)
  schemas := if scope.managedSchemas.isEmpty then [] else fetchSchemas catalog scope.managedSchemas
  privileges := .read catalog (routines.resolvePublicScopes scope)
  databaseGrants :=
    if scope.includeDatabasePrivileges then
      databaseGrantsOf (fetchDatabasePrivileges catalog scope.managedRoles)
    else ∅
  databaseInherentGrants :=
    if scope.includeDatabasePrivileges then
      databaseInherentGrantsOf (fetchDatabasePrivileges catalog scope.managedRoles)
    else ∅
  defaultPrivileges :=
    if scope.privilegeSchemas.isEmpty && scope.defaultPrivScopes.isEmpty then ∅
    else fetchDefaultPrivileges catalog scope.privilegeSchemas scope.managedRoles
      scope.defaultPrivScopes

/-- Read every row inside a scope. -/
def read (catalog : Catalog) (scope : InspectConfig) : Except InspectError RawInspection :=
  match mismatchedTarget? catalog scope with
  | some target => .error (.databaseTargetMismatch target catalog.database.name)
  | none => (RoutineCatalog.read catalog scope).map (readRows catalog scope)

/-- The grantability of the whole scope, and how many queries it took. -/
def readGrantability (catalog : Catalog) (snapshot : RawInspection) : RawGrantability × Nat :=
  match snapshot.grantability with
  | some raw => (raw, 0)
  | none => (readRawGrantability catalog (wildcardScopesOf snapshot.scope.wildcardGrants), 1)

/-! ## The derivation -/

/-- The aliases of the schemas whose privileges a config reads. -/
def routineAliases (snapshot : RawInspection) (config : InspectConfig) :
    BTreeMap (String × String) String :=
  snapshot.routines.aliases.filter fun key _ => config.privilegeSchemas.contains key.1

/-- The managed roles with their attributes. -/
def roleStates (snapshot : RawInspection) (config : InspectConfig) : BTreeMap String RoleState :=
  ExtTreeMap.ofList ((snapshot.roles.filter fun row => config.managedRoles.contains row.rolname).map
    fun row => (row.rolname, row.toRoleState)) compare

/-- The membership rows in the roles of a config. -/
def membershipRows (snapshot : RawInspection) (config : InspectConfig) : List MembershipRow :=
  snapshot.memberships.filter fun row =>
    config.managedRoles.contains row.roleName || config.membershipGrantors.contains row.roleName

/-- The managed schemas with their owners. -/
def schemaStates (snapshot : RawInspection) (config : InspectConfig) :
    BTreeMap String SchemaState :=
  ExtTreeMap.ofList ((snapshot.schemas.filter fun row =>
    config.managedSchemas.contains row.schemaName).map fun row =>
      (row.schemaName, row.toSchemaState)) compare

/-- What is derived from the access control lists under a configuration. -/
def derived (snapshot : RawInspection) (config : InspectConfig) : DerivedPrivileges :=
  derivePrivileges snapshot.privileges config.privilegeSchemas config.managedRoles
    config.wildcardGrants config.publicObjectScopes

end RawInspection

/-- Put the privileges of an inspection into its graph. -/
def recordPrivileges (g : RoleGraph) (result : PrivilegeInspectionResult) : RoleGraph :=
  removeRedundantSchemaOwnerGrants
    { g with
      grants := result.grants
      inherentGrants := result.inherent
      grantEntryGrantors := result.entryGrantors }

/-- Put the database grants of the roles into the graph. -/
def recordDatabaseGrants (g : RoleGraph) (grants : BTreeMap GrantKey (Finset Privilege))
    (inherent : BTreeSet GrantKey) (roles : List String) : RoleGraph :=
  let held := grants.filter fun key _ => isGrantTo roles key
  { g with
    grants := g.grants.insertMany held.toList
    inherentGrants := g.inherentGrants.insertMany (held.keys.filter inherent.contains) }

/-- What an inspection answers. -/
structure InspectionResult where
  graph : RoleGraph
  unsatisfiableWildcardGrants : List UnsatisfiableWildcardGrant

namespace RawInspection

/-- The graph of a config, given its privileges if it reads any. -/
def graph (snapshot : RawInspection) (config : InspectConfig)
    (privileges : Option PrivilegeInspectionResult) : RoleGraph :=
  let g := recordMemberships
    { routineAliases := snapshot.routineAliases config
      roles := snapshot.roleStates config
      schemas := snapshot.schemaStates config }
    (snapshot.membershipRows config)
  let g := (privileges.map (recordPrivileges g)).getD g
  let g :=
    if config.includeDatabasePrivileges then
      recordDatabaseGrants g snapshot.databaseGrants snapshot.databaseInherentGrants
        config.managedRoles
    else g
  { g with defaultPrivileges := deriveDefaultPrivileges snapshot.defaultPrivileges config }

/-- The answer for a config, given its privileges if it reads any. -/
def result (snapshot : RawInspection) (config : InspectConfig)
    (privileges : Option PrivilegeInspectionResult) : InspectionResult :=
  ⟨snapshot.graph config privileges, (privileges.map (·.diagnostics)).getD []⟩

/-- The privileges of a config, how many grantability queries they took, and the grantability that
is kept. -/
def inspectedPrivileges (catalog : Catalog) (snapshot : RawInspection) (config : InspectConfig) :
    Option PrivilegeInspectionResult × Nat × Option RawGrantability :=
  if config.readsNoPrivileges then (none, 0, snapshot.grantability)
  else if (snapshot.derived config).unsatisfied.isEmpty then
    (some ((snapshot.derived config).finish none), 0, snapshot.grantability)
  else
    let read := snapshot.readGrantability catalog
    (some ((snapshot.derived config).finish (some read.1)), read.2, some read.1)

/-- What a derivation answers: the inspection and how many grantability queries it issued. -/
abbrev Answer : Type := Except InspectError (InspectionResult × Nat)

/-- One derivation, with the snapshot it leaves. -/
def derive (catalog : Catalog) (snapshot : RawInspection) (config : InspectConfig) :
    Answer × RawInspection :=
  match uncoveredAxis snapshot.scope config with
  | some axis => (.error (.scopeNotCovered axis), snapshot)
  | none =>
      match snapshot.routines.validate config with
      | .error error => (.error error, snapshot)
      | .ok () =>
          let config := snapshot.routines.resolvePublicScopes config
          let inspected := snapshot.inspectedPrivileges catalog config
          (.ok (snapshot.result config inspected.1, inspected.2.1),
            { snapshot with grantability := inspected.2.2 })

/-- Derivations of one snapshot in sequence. -/
def deriveEach (catalog : Catalog) : RawInspection → List InspectConfig → List Answer
  | _, [] => []
  | snapshot, config :: rest =>
      (snapshot.derive catalog config).1 ::
        deriveEach catalog (snapshot.derive catalog config).2 rest

/-- The grantability queries an answer issued. -/
def Answer.queries : Answer → Nat
  | .error _ => 0
  | .ok answer => answer.2

end RawInspection

/-- Inspect one config: a read over its own scope, and a derivation. -/
def inspectWithDiagnostics (catalog : Catalog) (config : InspectConfig) :
    Except InspectError InspectionResult := do
  let snapshot ← RawInspection.read catalog config
  (snapshot.derive catalog config).1.map (·.1)

end PgRoles.Inspect
