import PgRoles.Inspect.Catalog

/-!
# Deriving privileges from a read

A read over a wide scope is narrowed in memory to the scope of one manifest: its rows become grants,
with the grantor of every entry and the entries that belong to owners; wildcards that some object
does not satisfy are diagnosed against what the executor could grant; and what every object of a
wildcard's scope holds becomes an entry of the wildcard.
-/

set_option autoImplicit false

namespace PgRoles.Inspect

open Std PgRoles.Lib PgRoles.Core

theorem transOrd_ownedKey : TransOrd (String × ObjectType × String) := inferInstance

theorem transOrd_grantabilityKey : TransOrd (ObjectType × String × String) := inferInstance

attribute [local instance] transOrd_ownedKey transOrd_grantabilityKey

/-- Privileges of a grant target by the grantor of the entry that carries them. -/
abbrev EntryGrantors : Type := BTreeMap GrantKey (BTreeMap String (Finset Privilege))

/-- One more privilege of a grantor's entry. -/
def recordEntryGrantor (entries : EntryGrantors) (key : GrantKey) (grantor : String)
    (privilege : Privilege) : EntryGrantors :=
  entries.alter key fun held => some (extendEntry (held.getD ∅) grantor {privilege})

/-- The grant target of a row: schemas and databases are named by the object alone. -/
def AclRow.grantKey (row : AclRow) (grantee : Grantee) (objectType : ObjectType) : GrantKey :=
  match objectType with
  | .schema | .database => ⟨grantee, objectType, none, some row.objectName⟩
  | _ => ⟨grantee, objectType, row.schemaName, some row.objectName⟩

/-! ## Rows of managed roles -/

/-- What the rows of a scope add up to. -/
structure DerivedRows where
  inventory : Inventory
  grants : BTreeMap GrantKey (Finset Privilege) := ∅
  inherent : BTreeSet GrantKey := ∅
  entryGrantors : EntryGrantors := ∅
  /-- The objects each role owns, by type and schema. -/
  ownedObjects : BTreeMap (String × ObjectType × String) (BTreeSet String) := ∅

/-- The object of a row belongs to the inventory of its wildcard scope. -/
def DerivedRows.noteObject (scopes : List WildcardScope) (d : DerivedRows) (row : AclRow) :
    DerivedRows :=
  match objTypeStrToObjectType row.objType, row.schemaName with
  | some t, some schema =>
      if isWildcardType t && scopes.contains (t, schema) then
        { d with
          inventory := d.inventory.alter (t, schema) fun held =>
            some ((held.getD ∅).insert row.objectName) }
      else d
  | _, _ => d

/-- An entry of the owner on its own object is inherent. -/
def DerivedRows.noteOwner (grantee : String) (objectType : ObjectType) (d : DerivedRows)
    (row : AclRow) : DerivedRows :=
  if row.ownerName = some grantee then
    { d with
      inherent := d.inherent.insert (row.grantKey (.role grantee) objectType)
      ownedObjects :=
        match row.schemaName with
        | none => d.ownedObjects
        | some schema => d.ownedObjects.alter (grantee, objectType, schema) fun held =>
            some ((held.getD ∅).insert row.objectName) }
  else d

/-- Whose entry carries the privilege; entries of the owner need no breakdown. -/
def DerivedRows.noteGrantor (grantee : String) (objectType : ObjectType) (privilege : Privilege)
    (d : DerivedRows) (row : AclRow) : DerivedRows :=
  match row.grantor with
  | none => d
  | some grantor =>
      if row.ownerName = some grantee then d
      else
        { d with
          entryGrantors := recordEntryGrantor d.entryGrantors
            (row.grantKey (.role grantee) objectType) grantor privilege }

/-- One more row of an access control list. -/
def DerivedRows.addRow (scopes : List WildcardScope) (d : DerivedRows) (row : AclRow) :
    DerivedRows :=
  let d := d.noteObject scopes row
  match row.grantee, aclCharToPrivilege row.privilegeType, objTypeStrToObjectType row.objType with
  | some grantee, some privilege, some objectType =>
      let d := (d.noteOwner grantee objectType row).noteGrantor grantee objectType privilege row
      { d with
        grants := extendEntry d.grants (row.grantKey (.role grantee) objectType) {privilege} }
  | _, _, _ => d

/-! ## PUBLIC rows -/

/-- The scope covers an object and names the privilege. -/
def PublicObjectScope.covers (scope : PublicObjectScope) (objectType : ObjectType)
    (schemaName : Option String) (objectName : String) (privilege : Privilege) : Bool :=
  scope.objectType == objectType && decide (privilege ∈ scope.privileges) &&
    match objectType with
    | .schema => scope.name == some objectName
    | .database => scope.name.all (· == objectName)
    | _ => scope.schema == schemaName &&
        scope.name.any fun name => name == wildcardName || name == objectName

/-- Does some scope cover the object for this privilege? -/
def publicScopesCover (scopes : List PublicObjectScope) (objectType : ObjectType)
    (schemaName : Option String) (objectName : String) (privilege : Privilege) : Bool :=
  scopes.any fun scope => scope.covers objectType schemaName objectName privilege

/-- A PUBLIC row of a declared scope, as the grant it shows. -/
structure PublicEntry where
  key : GrantKey
  privilege : Privilege
  grantor : Option String

/-- The entry that a PUBLIC row gives, where a declared scope covers it. -/
def publicGrant? (scopes : List PublicObjectScope) (row : AclRow) : Option PublicEntry := do
  let privilege ← aclCharToPrivilege row.privilegeType
  let objectType ← objTypeStrToObjectType row.objType
  if publicScopesCover scopes objectType row.schemaName row.objectName privilege then
    some ⟨row.grantKey .publicRole objectType, privilege, row.grantor⟩
  else none

/-- Record the grantor of a PUBLIC entry. -/
def notePublicGrantor (entries : EntryGrantors) (entry : PublicEntry) : EntryGrantors :=
  match entry.grantor with
  | none => entries
  | some grantor => recordEntryGrantor entries entry.key grantor entry.privilege

/-- Narrow PUBLIC rows to the scopes one manifest declared. -/
def derivePublicPrivileges (rows : List AclRow) (scopes : List PublicObjectScope) :
    BTreeMap GrantKey (Finset Privilege) × EntryGrantors :=
  let entries := rows.filterMap (publicGrant? scopes)
  (extendEntries ∅ (entries.map fun entry => (entry.key, {entry.privilege})),
    entries.foldl notePublicGrantor ∅)

/-! ## Wildcards -/

/-- The wildcard's privileges that some object of its scope lacks. -/
def missingPrivileges (grants : BTreeMap GrantKey (Finset Privilege))
    (wildcard : WildcardGrantPattern) (names : BTreeSet String) : Finset Privilege :=
  wildcard.privileges.filter fun privilege =>
    names.toList.any fun name =>
      decide (privilege ∉ entryAt grants (wildcardTarget wildcard.key name))

/-- The wildcards some object does not satisfy, each with the privileges that are missing. -/
def unsatisfiedWildcardGrants (grants : BTreeMap GrantKey (Finset Privilege))
    (inventory : Inventory) (wildcards : List WildcardGrantPattern) : List WildcardGrantPattern :=
  wildcards.filterMap fun wildcard => do
    let names ← inventory[(wildcard.objectType, wildcard.schema)]?
    let missing := missingPrivileges grants wildcard names
    if missing = ∅ then none else some { wildcard with privileges := missing }

/-- An object that a wildcard cannot reach, with the privileges that stay missing. -/
structure UnsatisfiableWildcardObject where
  name : String
  owner : String
  privileges : Finset Privilege
  deriving DecidableEq

/-- A wildcard grant that the executor cannot fulfil on every object. -/
structure UnsatisfiableWildcardGrant where
  role : String
  objectType : ObjectType
  schema : String
  privileges : Finset Privilege
  executor : String
  skippedCount : Nat
  examples : List UnsatisfiableWildcardObject
  deriving DecidableEq

/-- Database and schema privileges are not grantable on the objects of a wildcard. -/
def canGrant (row : GrantabilityRow) : Privilege → Bool
  | .create | .connect | .temporary => false
  | privilege => decide (privilege ∈ row.can)

/-- An object of the wildcard's scope that lacks privileges the executor cannot grant. -/
def skippedObject? (grants : BTreeMap GrantKey (Finset Privilege))
    (wildcard : WildcardGrantPattern) (entry : (ObjectType × String × String) × GrantabilityRow) :
    Option UnsatisfiableWildcardObject :=
  if entry.1.1 = wildcard.objectType ∧ entry.1.2.1 = wildcard.schema then
    let missing := wildcard.privileges.filter fun privilege =>
      privilege ∉ entryAt grants (wildcardTarget wildcard.key entry.1.2.2) ∧
        canGrant entry.2 privilege = false
    if missing = ∅ then none else some ⟨entry.1.2.2, entry.2.ownerName, missing⟩
  else none

/-- The wildcards with objects on which the executor may not grant. -/
def detectUnsatisfiableWildcards (grants : BTreeMap GrantKey (Finset Privilege))
    (grantability : Grantability) (wildcards : List WildcardGrantPattern) (executor : String) :
    List UnsatisfiableWildcardGrant :=
  wildcards.filterMap fun wildcard =>
    let skipped := grantability.toList.filterMap (skippedObject? grants wildcard)
    if skipped.isEmpty then none
    else
      some ⟨wildcard.role, wildcard.objectType, wildcard.schema,
        (skipped.map (·.privileges)).foldl (· ∪ ·) ∅, executor, skipped.length, skipped.take 5⟩

/-- The privileges asked about in a scope, where it is asked about. -/
def wildcardNeeds (wildcards : List WildcardGrantPattern) (scope : WildcardScope) :
    Option (Finset Privilege) :=
  (extendEntries (∅ : BTreeMap WildcardScope (Finset Privilege))
    ((wildcards.filter fun wildcard => isWildcardType wildcard.objectType).map fun wildcard =>
      (wildcard.scope, wildcard.privileges)))[scope]?

/-- The rows and privileges that a query for these wildcards alone would have returned. -/
def scopedGrantability (rows : Grantability) (wildcards : List WildcardGrantPattern) :
    Grantability :=
  rows.filterMap fun key row =>
    (wildcardNeeds wildcards (key.1, key.2.1)).map fun needs => row.masked needs

/-! ## Derivation -/

/-- What a scope's privileges look like before wildcard normalization. -/
structure DerivedPrivileges where
  grants : BTreeMap GrantKey (Finset Privilege)
  inherent : BTreeSet GrantKey
  entryGrantors : EntryGrantors
  ownedObjects : BTreeMap (String × ObjectType × String) (BTreeSet String)
  inventory : Inventory
  wildcardGrants : List WildcardGrantPattern
  /-- The wildcards that need to know what the executor could grant. -/
  unsatisfied : List WildcardGrantPattern

/-- Narrow a read to one scope. -/
def derivePrivileges (raw : RawPrivilegeState) (managedSchemas managedRoles : List String)
    (wildcards : List WildcardGrantPattern) (publicScopes : List PublicObjectScope) :
    DerivedPrivileges :=
  let scopes := wildcardScopesOf wildcards
  let rows := (raw.aclRows.filter (·.inScope managedSchemas managedRoles)).foldl
    (DerivedRows.addRow scopes)
    { inventory := raw.inventory.filter fun scope _ => scopes.contains scope }
  let publicState := derivePublicPrivileges raw.publicAclRows publicScopes
  let grants := rows.grants.insertMany publicState.1.toList
  { grants := grants
    inherent := rows.inherent
    entryGrantors := rows.entryGrantors.insertMany publicState.2.toList
    ownedObjects := rows.ownedObjects
    inventory := rows.inventory
    wildcardGrants := wildcards
    unsatisfied := unsatisfiedWildcardGrants grants rows.inventory wildcards }

/-- Every object of the wildcard's scope, of which there is one, is owned by its role. -/
def DerivedPrivileges.ownsScope (d : DerivedPrivileges) (wildcard : WildcardGrantPattern) : Bool :=
  match d.inventory[(wildcard.objectType, wildcard.schema)]? with
  | none => false
  | some names =>
      (d.ownedObjects[(wildcard.role, wildcard.objectType, wildcard.schema)]?).any (fun owned =>
        names.toList.all owned.contains) && !names.isEmpty

/-- What the inspection of privileges answers. -/
structure PrivilegeInspectionResult where
  grants : BTreeMap GrantKey (Finset Privilege) := ∅
  inherent : BTreeSet GrantKey := ∅
  entryGrantors : EntryGrantors := ∅
  diagnostics : List UnsatisfiableWildcardGrant := []

/-- Diagnose the unsatisfied wildcards and normalize. Nothing is diagnosed without grantability. -/
def DerivedPrivileges.finish (d : DerivedPrivileges) (grantability : Option RawGrantability) :
    PrivilegeInspectionResult where
  diagnostics :=
    match grantability with
    | none => []
    | some raw =>
        if d.unsatisfied.isEmpty then []
        else detectUnsatisfiableWildcards d.grants (scopedGrantability raw.rows d.unsatisfied)
          d.unsatisfied raw.executor
  grants := normalizeWildcardGrants d.grants d.inventory d.wildcardGrants
  inherent := (d.wildcardGrants.filter d.ownsScope).foldl
    (fun inherent wildcard => inherent.insert (wildcardTarget wildcard.key wildcardName)) d.inherent
  entryGrantors := d.entryGrantors

end PgRoles.Inspect
