import PgRoles.Lib.Check
import PgRoles.Core.Types
import PgRoles.Core.Guc

/-!
# The policy manifest

The declarations a policy is written in, the errors that reject one, and the bounds on its content.
The providers of cloud authentication that a manifest may list only document it; nothing reads them,
and the model leaves them out.
-/

set_option autoImplicit false

namespace PgRoles.Core

open Std PgRoles.Lib

/-! ## Declarations -/

/-- Object target within a profile; expansion fills in the schema. -/
structure ProfileObjectTarget where
  objectType : ObjectType
  name : Option String := none
  deriving DecidableEq

/-- A grant template within a profile. -/
structure ProfileGrant where
  privileges : List Privilege
  object : ProfileObjectTarget
  ensure : Ensure := .present
  deriving DecidableEq

/-- One entry of a default-privilege declaration. Profiles leave the role to expansion. -/
structure DefaultPrivilegeGrant where
  role : Option String := none
  privileges : List Privilege
  onType : ObjectType
  ensure : Ensure := .present
  deriving DecidableEq

/-- A reusable privilege profile. -/
structure Profile where
  login : Option Bool := none
  inherit : Option Bool := none
  grants : List ProfileGrant := []
  defaultPrivileges : List DefaultPrivilegeGrant := []
  config : BTreeMap String String := ∅
  deriving DecidableEq

/-- A schema with the profiles bound to it. -/
structure SchemaBinding where
  name : String
  profiles : List String := []
  rolePattern : Option String := none
  owner : Option String := none
  deriving DecidableEq

/-- The environment variable a role's password is read from. -/
structure PasswordSource where
  fromEnv : String
  deriving DecidableEq

/-- A concrete role definition. -/
structure RoleDefinition where
  name : String
  /-- Managed by another system; only referenced. -/
  external : Bool := false
  /-- Undeclared object grants of the role in scope are kept. -/
  preserveUndeclaredGrants : Bool := false
  login : Option Bool := none
  superuser : Option Bool := none
  createdb : Option Bool := none
  createrole : Option Bool := none
  inherit : Option Bool := none
  replication : Option Bool := none
  bypassrls : Option Bool := none
  connectionLimit : Option Int := none
  comment : Option String := none
  password : Option PasswordSource := none
  passwordValidUntil : Option String := none
  config : BTreeMap String String := ∅
  deriving DecidableEq

/-- Target object of a grant. -/
structure ObjectTarget where
  objectType : ObjectType
  schema : Option String := none
  name : Option String := none
  deriving DecidableEq

/-- A concrete grant on an object or a wildcard. -/
structure Grant where
  role : String
  privileges : List Privilege
  object : ObjectTarget
  ensure : Ensure := .present
  deriving DecidableEq

/-- The two kinds of scope of a default privilege. -/
inductive DefaultPrivilegeScopeType where
  | global
  | schema
  deriving DecidableEq

/-- Scope selector of a default-privilege declaration. -/
structure DefaultPrivilegeScopeSpec where
  scopeType : DefaultPrivilegeScopeType
  schema : Option String := none
  deriving DecidableEq

/-- A default-privilege declaration; exactly one of `schema` and `scope` is to be set. -/
structure DefaultPrivilege where
  owner : Option String := none
  schema : Option String := none
  scope : Option DefaultPrivilegeScopeSpec := none
  grant : List DefaultPrivilegeGrant
  deriving DecidableEq

/-- A member of a role. -/
structure MemberSpec where
  name : String
  inherit : Option Bool := none
  admin : Option Bool := none
  deriving DecidableEq

/-- The inherit option, which is on unless it is declared off. -/
def MemberSpec.inheritOption (m : MemberSpec) : Bool := m.inherit.getD true

/-- The admin option, which is off unless it is declared on. -/
def MemberSpec.adminOption (m : MemberSpec) : Bool := m.admin.getD false

/-- Which members belong to a role. `exclusive` asserts that nobody else does. -/
structure Membership where
  role : String
  members : List MemberSpec
  exclusive : Bool := false
  deriving DecidableEq

/-- How an existing role is retired before it is dropped. -/
structure RoleRetirement where
  role : String
  reassignOwnedTo : Option String := none
  dropOwned : Bool := false
  terminateSessions : Bool := false
  deriving DecidableEq

/-- The manifest a user writes. -/
structure PolicyManifest where
  rolePattern : Option String := none
  defaultOwner : Option String := none
  profiles : BTreeMap String Profile := ∅
  schemas : List SchemaBinding := []
  roles : List RoleDefinition := []
  grants : List Grant := []
  defaultPrivileges : List DefaultPrivilege := []
  memberships : List Membership := []
  retirements : List RoleRetirement := []
  deriving DecidableEq

/-! ## Errors -/

/-- Why a manifest is rejected. -/
inductive ManifestError where
  | duplicateRole (name : String)
  | duplicateSchema (name : String)
  | undefinedProfile (profile schema : String)
  | invalidRolePattern (pattern : String)
  | missingDefaultPrivilegeRole (scope : String)
  | duplicateRetirement (role : String)
  | retirementRoleStillDesired (role : String)
  | retirementSelfReassign (role : String)
  | passwordWithoutLogin (role : String)
  | invalidValidUntil (role value : String)
  | invalidConfigParameter (role parameter : String)
  | setRoleWithoutMembership (role target : String)
  | tooManyEntries (collection : String) (actual limit : Nat)
  | valueTooLong (context value : String) (actual limit : Nat)
  | reservedPublicName (context : String)
  | conflictingGrantEnsure (target privilege : String)
  | conflictingWildcardEnsure (target privilege : String)
  | conflictingDefaultPrivilegeEnsure (target privilege : String)
  | defaultPrivilegeScopeConflict (owner : String)
  | defaultPrivilegeScopeMissing (owner : String)
  | defaultPrivilegeScopeSchemaMissing
  | defaultPrivilegeScopeSchemaForbidden (schema : String)
  | invalidDefaultPrivilegeOnType (onType scope : String)
  | profileAbsentDefaultPrivilege (profile : String)
  | profileAbsentGrant (profile : String)
  | databaseGrantMissingName
  | predefinedRoleNotExternal (role : String)
  | exclusiveMembershipOnManagedRole (role : String)
  deriving DecidableEq

/-- PostgreSQL reserves the names that start with `pg_` for its own roles. -/
def isPredefinedRole (name : String) : Bool := startsWithText name "pg_"

/-- The scope as messages name it. -/
def DefaultPrivilegeScope.display : DefaultPrivilegeScope → String
  | .global => "global scope"
  | .schema s => "schema \"" ++ s ++ "\""

/-- Resolve the `schema` shorthand and the `scope` field into one scope. -/
def DefaultPrivilege.resolvedScope (d : DefaultPrivilege) :
    Except ManifestError DefaultPrivilegeScope :=
  let owner := d.owner.getD "(default owner)"
  match d.schema, d.scope with
  | some _, some _ => .error (.defaultPrivilegeScopeConflict owner)
  | none, none => .error (.defaultPrivilegeScopeMissing owner)
  | some schema, none => .ok (.schema schema)
  | none, some ⟨.global, none⟩ => .ok .global
  | none, some ⟨.global, some schema⟩ => .error (.defaultPrivilegeScopeSchemaForbidden schema)
  | none, some ⟨.schema, some schema⟩ => .ok (.schema schema)
  | none, some ⟨.schema, none⟩ => .error .defaultPrivilegeScopeSchemaMissing

/-! ## Content bounds -/

/-- The length of a PostgreSQL identifier. -/
def maxIdentifier : Nat := 63

/-- The length of an object name or a comment. -/
def maxObjectName : Nat := 256

/-- The length of the value of a setting. -/
def maxConfigValue : Nat := 256

/-- The settings of one role or profile. -/
def maxConfigEntries : Nat := 32

/-- The length of a role pattern. -/
def maxRolePattern : Nat := 128

/-- The length of a validity timestamp, before its form is checked. -/
def maxTimestamp : Nat := 64

/-- The roles of a manifest. -/
def maxRoles : Nat := 1024

/-- The grants of a manifest. -/
def maxGrants : Nat := 4096

/-- The privileges of one grant. -/
def maxPrivileges : Nat := 16

/-- The membership stanzas of a manifest. -/
def maxMemberships : Nat := 2048

/-- The members of one stanza. -/
def maxMembers : Nat := 512

/-- The default-privilege stanzas of a manifest. -/
def maxDefaultPrivileges : Nat := 512

/-- The grants of one default-privilege stanza. -/
def maxDefaultPrivilegeGrants : Nat := 64

/-- The profiles of a manifest. -/
def maxProfiles : Nat := 128

/-- The grants of one profile. -/
def maxProfileGrants : Nat := 64

/-- The default privileges of one profile. -/
def maxProfileDefaultPrivileges : Nat := 32

/-- The schemas of a manifest. -/
def maxSchemas : Nat := 1024

/-- The profiles that one schema binds. -/
def maxSchemaProfiles : Nat := 64

/-- The retirements of a manifest. -/
def maxRetirements : Nat := 512

/-- Reject a collection with more entries than its limit. -/
def checkEntries (collection : String) (actual limit : Nat) : Except ManifestError Unit :=
  rejectIf (limit < actual) (.tooManyEntries collection actual limit)

/-- Lengths count characters; identifiers are also held to PostgreSQL's limit in bytes. -/
def checkText (context value : String) (limit : Nat) : Except ManifestError Unit := do
  rejectIf (limit < value.length) (.valueTooLong context value value.length limit)
  rejectIf (limit == maxIdentifier && limit < value.utf8ByteSize)
    (.valueTooLong (context ++ " (bytes; PostgreSQL identifiers are limited to 63 bytes)") value
      value.utf8ByteSize limit)

/-- Check a text where there is one. -/
def checkOptionalText (context : String) (value : Option String) (limit : Nat) :
    Except ManifestError Unit :=
  value.elim (.ok ()) fun v => checkText context v limit

/-- Check the number of settings, and the length of their names and values. -/
def checkConfig (context : String) (config : BTreeMap String String) :
    Except ManifestError Unit := do
  checkEntries (context ++ ".config") config.size maxConfigEntries
  config.toList.forM fun e => do
    checkText (context ++ ".config key") e.1 maxIdentifier
    checkText (context ++ ".config[" ++ e.1 ++ "]") e.2 maxConfigValue

/-- The placeholder of the profile name in a role pattern. -/
def profilePlaceholder : String := "\x7bprofile\x7d"

/-- The placeholder of the schema name in a role pattern. -/
def schemaPlaceholder : String := "\x7bschema\x7d"

/-- A pattern is of limited length and names the profile. -/
def validateRolePattern (pattern : String) : Except ManifestError Unit := do
  rejectIf (maxRolePattern < pattern.length)
    (.valueTooLong "role_pattern" pattern pattern.length maxRolePattern)
  rejectIf (!containsText pattern profilePlaceholder) (.invalidRolePattern pattern)

/-- The bounds of a profile. -/
def validateProfileBounds (name : String) (profile : Profile) : Except ManifestError Unit := do
  checkText "profile name" name maxIdentifier
  checkEntries ("profiles." ++ name ++ ".grants") profile.grants.length maxProfileGrants
  profile.grants.forM fun grant => do
    checkEntries ("profiles." ++ name ++ ".grants[].privileges") grant.privileges.length
      maxPrivileges
    checkOptionalText "grant object name" grant.object.name maxObjectName
  checkEntries ("profiles." ++ name ++ ".default_privileges") profile.defaultPrivileges.length
    maxProfileDefaultPrivileges
  profile.defaultPrivileges.forM fun grant => do
    checkEntries ("profiles." ++ name ++ ".default_privileges[].privileges")
      grant.privileges.length maxPrivileges
    checkOptionalText "default privilege role" grant.role maxIdentifier
  checkConfig ("profiles." ++ name) profile.config

/-- The bounds of a schema binding. -/
def validateSchemaBounds (binding : SchemaBinding) : Except ManifestError Unit := do
  checkText "schema name" binding.name maxIdentifier
  checkEntries ("schemas." ++ binding.name ++ ".profiles") binding.profiles.length
    maxSchemaProfiles
  binding.profiles.forM fun profile => checkText "profile reference" profile maxIdentifier
  binding.rolePattern.elim (.ok ()) validateRolePattern
  checkOptionalText "schema owner" binding.owner maxIdentifier

/-- The bounds of a role. -/
def validateRoleBounds (role : RoleDefinition) : Except ManifestError Unit := do
  checkText "role name" role.name maxIdentifier
  checkOptionalText ("roles." ++ role.name ++ ".comment") role.comment maxObjectName
  checkOptionalText ("roles." ++ role.name ++ ".password_valid_until") role.passwordValidUntil
    maxTimestamp
  checkConfig ("roles." ++ role.name) role.config

/-- The bounds of a grant. -/
def validateGrantBounds (grant : Grant) : Except ManifestError Unit := do
  checkText "grant role" grant.role maxIdentifier
  checkEntries "grants[].privileges" grant.privileges.length maxPrivileges
  checkOptionalText "grant object schema" grant.object.schema maxIdentifier
  checkOptionalText "grant object name" grant.object.name maxObjectName

/-- The bounds of a default-privilege stanza. -/
def validateDefaultPrivilegeBounds (d : DefaultPrivilege) : Except ManifestError Unit := do
  checkOptionalText "default privilege schema" d.schema maxIdentifier
  checkOptionalText "default privilege scope schema" (d.scope.bind (·.schema)) maxIdentifier
  checkOptionalText "default privilege owner" d.owner maxIdentifier
  checkEntries "default_privileges[].grant" d.grant.length maxDefaultPrivilegeGrants
  d.grant.forM fun grant => do
    checkEntries "default_privileges[].grant[].privileges" grant.privileges.length maxPrivileges
    checkOptionalText "default privilege role" grant.role maxIdentifier

/-- The bounds of a membership stanza. -/
def validateMembershipBounds (membership : Membership) : Except ManifestError Unit := do
  checkText "membership role" membership.role maxIdentifier
  checkEntries ("memberships." ++ membership.role ++ ".members") membership.members.length
    maxMembers
  membership.members.forM fun member => checkText "member name" member.name maxIdentifier

/-- The bounds of a retirement. -/
def validateRetirementBounds (retirement : RoleRetirement) : Except ManifestError Unit := do
  checkText "retirement role" retirement.role maxIdentifier
  checkOptionalText "reassign_owned_to" retirement.reassignOwnedTo maxIdentifier

/-- Reject content beyond the bounds of the resource schemas. -/
def validateBounds (m : PolicyManifest) : Except ManifestError Unit := do
  checkEntries "profiles" m.profiles.size maxProfiles
  m.profiles.toList.forM fun e => validateProfileBounds e.1 e.2
  checkEntries "schemas" m.schemas.length maxSchemas
  m.schemas.forM validateSchemaBounds
  m.rolePattern.elim (.ok ()) validateRolePattern
  checkOptionalText "default_owner" m.defaultOwner maxIdentifier
  checkEntries "roles" m.roles.length maxRoles
  m.roles.forM validateRoleBounds
  checkEntries "grants" m.grants.length maxGrants
  m.grants.forM validateGrantBounds
  checkEntries "default_privileges" m.defaultPrivileges.length maxDefaultPrivileges
  m.defaultPrivileges.forM validateDefaultPrivilegeBounds
  checkEntries "memberships" m.memberships.length maxMemberships
  m.memberships.forM validateMembershipBounds
  checkEntries "retirements" m.retirements.length maxRetirements
  m.retirements.forM validateRetirementBounds

end PgRoles.Core
