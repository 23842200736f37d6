import PgRoles.Lib.Decode
import PgRoles.Core.Manifest

/-!
# Parsing of manifests

A manifest is read from the value of a document, bare or wrapped in a Kubernetes resource. Every
declaration is read as its source type is: which fields are required, which may be null, and which
take a default. The providers of cloud authentication are read and forgotten, because a manifest
that lists a malformed one is not accepted.
-/

set_option autoImplicit false

namespace PgRoles.Core

open Std PgRoles.Lib

/-! ## Enumerations -/

/-- The types of objects that a manifest can name. -/
def ObjectType.all : List ObjectType :=
  [.table, .view, .materializedView, .sequence, .function, .schema, .database, .type]

/-- The privileges that a manifest can name. -/
def Privilege.all : List Privilege :=
  [.select, .insert, .update, .delete, .truncate, .references, .trigger, .execute, .usage,
    .create, .connect, .temporary]

/-- The text of an assertion. -/
def Ensure.text : Ensure → String
  | .present => "present"
  | .absent => "absent"

/-- The text of a kind of scope. -/
def DefaultPrivilegeScopeType.text : DefaultPrivilegeScopeType → String
  | .global => "global"
  | .schema => "schema"

/-- A type of objects by its text. -/
def decodeObjectType : Json → Option ObjectType := decodeEnum ObjectType.all ObjectType.display

/-- A list of privileges by their texts. -/
def decodePrivileges : Json → Option (List Privilege) :=
  decodeList (decodeEnum Privilege.all Privilege.display)

/-- An assertion by its text. -/
def decodeEnsure : Json → Option Ensure := decodeEnum [.present, .absent] Ensure.text

/-- Settings, with texts as values. -/
def decodeConfig : Json → Option (BTreeMap String String) := decodeMap decodeText

/-! ## Cloud authentication -/

/-- Cloud authentication provider configuration. -/
inductive AuthProvider where
  | cloudSqlIam (project : Option String)
  | alloyDbIam (project cluster : Option String)
  | rdsIam (region : Option String)
  | azureAd (tenantId : Option String)
  | supabase (projectRef : Option String)
  | planetScale (organization : Option String)
  deriving DecidableEq

/-- A provider by its `type`, with the fields of that type. -/
def decodeAuthProvider (v : Json) : Option AuthProvider := do
  let text (name : String) := readOptional decodeText (v.field? name)
  match ← readRequired decodeText (v.field? "type") with
  | "cloud_sql_iam" => return .cloudSqlIam (← text "project")
  | "alloydb_iam" => return .alloyDbIam (← text "project") (← text "cluster")
  | "rds_iam" => return .rdsIam (← text "region")
  | "azure_ad" => return .azureAd (← text "tenant_id")
  | "supabase" => return .supabase (← text "project_ref")
  | "planet_scale" => return .planetScale (← text "organization")
  | _ => none

/-! ## Declarations -/

/-- The objects of a profile's grant, which name no schema. -/
def decodeProfileObjectTarget (v : Json) : Option ProfileObjectTarget := do
  let objectType ← readRequired decodeObjectType (v.field? "type")
  let name ← readOptional decodeText (v.field? "name")
  return { objectType, name }

/-- A grant of a profile; `on` is another name of `object`. -/
def decodeProfileGrant (v : Json) : Option ProfileGrant := do
  let privileges ← readRequired decodePrivileges (v.field? "privileges")
  let object ← readAliased decodeProfileObjectTarget (v.field? "object") (v.field? "on")
  let ensure ← readDefaulted decodeEnsure .present (v.field? "ensure")
  return { privileges, object, ensure }

/-- A grant of a default-privilege stanza. -/
def decodeDefaultPrivilegeGrant (v : Json) : Option DefaultPrivilegeGrant := do
  let role ← readOptional decodeText (v.field? "role")
  let privileges ← readRequired decodePrivileges (v.field? "privileges")
  let onType ← readRequired decodeObjectType (v.field? "on_type")
  let ensure ← readDefaulted decodeEnsure .present (v.field? "ensure")
  return { role, privileges, onType, ensure }

/-- A profile; every field has a default. -/
def decodeProfile (v : Json) : Option Profile := do
  guard v.isObject
  let login ← readOptional decodeFlag (v.field? "login")
  let inherit ← readOptional decodeFlag (v.field? "inherit")
  let grants ← readDefaulted (decodeList decodeProfileGrant) [] (v.field? "grants")
  let defaultPrivileges ← readDefaulted (decodeList decodeDefaultPrivilegeGrant) []
    (v.field? "default_privileges")
  let config ← readDefaulted decodeConfig ∅ (v.field? "config")
  return { login, inherit, grants, defaultPrivileges, config }

/-- A schema with the profiles it binds. -/
def decodeSchemaBinding (v : Json) : Option SchemaBinding := do
  let name ← readRequired decodeText (v.field? "name")
  let profiles ← readDefaulted (decodeList decodeText) [] (v.field? "profiles")
  let rolePattern ← readOptional decodeText (v.field? "role_pattern")
  let owner ← readOptional decodeText (v.field? "owner")
  return { name, profiles, rolePattern, owner }

/-- A password by the variable it is read from. -/
def decodePasswordSource (v : Json) : Option PasswordSource := do
  let fromEnv ← readRequired decodeText (v.field? "from_env")
  return { fromEnv }

/-- A role; all but its name is optional. -/
def decodeRoleDefinition (v : Json) : Option RoleDefinition := do
  let flag (name : String) := readOptional decodeFlag (v.field? name)
  let name ← readRequired decodeText (v.field? "name")
  let external ← readDefaulted decodeFlag false (v.field? "external")
  let preserveUndeclaredGrants ← readDefaulted decodeFlag false
    (v.field? "preserve_undeclared_grants")
  let login ← flag "login"
  let superuser ← flag "superuser"
  let createdb ← flag "createdb"
  let createrole ← flag "createrole"
  let inherit ← flag "inherit"
  let replication ← flag "replication"
  let bypassrls ← flag "bypassrls"
  let connectionLimit ← readOptional decodeInt (v.field? "connection_limit")
  let comment ← readOptional decodeText (v.field? "comment")
  let password ← readOptional decodePasswordSource (v.field? "password")
  let passwordValidUntil ← readOptional decodeText (v.field? "password_valid_until")
  let config ← readDefaulted decodeConfig ∅ (v.field? "config")
  return {
    name := name, external, preserveUndeclaredGrants, login, superuser, createdb, createrole
    inherit, replication, bypassrls, connectionLimit, comment, password, passwordValidUntil
    config }

/-- The objects of a grant. -/
def decodeObjectTarget (v : Json) : Option ObjectTarget := do
  let objectType ← readRequired decodeObjectType (v.field? "type")
  let schema ← readOptional decodeText (v.field? "schema")
  let name ← readOptional decodeText (v.field? "name")
  return { objectType, schema, name }

/-- A grant; `on` is another name of `object`. -/
def decodeGrant (v : Json) : Option Grant := do
  let role ← readRequired decodeText (v.field? "role")
  let privileges ← readRequired decodePrivileges (v.field? "privileges")
  let object ← readAliased decodeObjectTarget (v.field? "object") (v.field? "on")
  let ensure ← readDefaulted decodeEnsure .present (v.field? "ensure")
  return { role, privileges, object, ensure }

/-- The scope of a default privilege in its long form. -/
def decodeScopeSpec (v : Json) : Option DefaultPrivilegeScopeSpec := do
  let scopeType ← readRequired (decodeEnum [.global, .schema] DefaultPrivilegeScopeType.text)
    (v.field? "type")
  let schema ← readOptional decodeText (v.field? "schema")
  return { scopeType, schema }

/-- A default-privilege stanza. -/
def decodeDefaultPrivilege (v : Json) : Option DefaultPrivilege := do
  let owner ← readOptional decodeText (v.field? "owner")
  let schema ← readOptional decodeText (v.field? "schema")
  let scope ← readOptional decodeScopeSpec (v.field? "scope")
  let grant ← readRequired (decodeList decodeDefaultPrivilegeGrant) (v.field? "grant")
  return { owner, schema, scope, grant }

/-- A member with its options. -/
def decodeMemberSpec (v : Json) : Option MemberSpec := do
  let name ← readRequired decodeText (v.field? "name")
  let inherit ← readOptional decodeFlag (v.field? "inherit")
  let admin ← readOptional decodeFlag (v.field? "admin")
  return { name, inherit, admin }

/-- A membership stanza. -/
def decodeMembership (v : Json) : Option Membership := do
  let role ← readRequired decodeText (v.field? "role")
  let members ← readRequired (decodeList decodeMemberSpec) (v.field? "members")
  let exclusive ← readDefaulted decodeFlag false (v.field? "exclusive")
  return { role, members, exclusive }

/-- A retirement with what becomes of the role's objects and sessions. -/
def decodeRoleRetirement (v : Json) : Option RoleRetirement := do
  let role ← readRequired decodeText (v.field? "role")
  let reassignOwnedTo ← readOptional decodeText (v.field? "reassign_owned_to")
  let dropOwned ← readDefaulted decodeFlag false (v.field? "drop_owned")
  let terminateSessions ← readDefaulted decodeFlag false (v.field? "terminate_sessions")
  return { role, reassignOwnedTo, dropOwned, terminateSessions }

/-! ## Manifests -/

/-- A whole manifest; every field has a default. -/
def decodePolicyManifest (v : Json) : Option PolicyManifest := do
  guard v.isObject
  let rolePattern ← readOptional decodeText (v.field? "role_pattern")
  let defaultOwner ← readOptional decodeText (v.field? "default_owner")
  let _ ← readDefaulted (decodeList decodeAuthProvider) [] (v.field? "auth_providers")
  let profiles ← readDefaulted (decodeMap decodeProfile) ∅ (v.field? "profiles")
  let schemas ← readDefaulted (decodeList decodeSchemaBinding) [] (v.field? "schemas")
  let roles ← readDefaulted (decodeList decodeRoleDefinition) [] (v.field? "roles")
  let grants ← readDefaulted (decodeList decodeGrant) [] (v.field? "grants")
  let defaultPrivileges ← readDefaulted (decodeList decodeDefaultPrivilege) []
    (v.field? "default_privileges")
  let memberships ← readDefaulted (decodeList decodeMembership) [] (v.field? "memberships")
  let retirements ← readDefaulted (decodeList decodeRoleRetirement) [] (v.field? "retirements")
  return {
    rolePattern := rolePattern, defaultOwner, profiles, schemas, roles, grants
    defaultPrivileges, memberships, retirements }

/-- The manifest of a document's value; a resource carries it in its `spec`. -/
def manifestOfDocument (document : Json) : Option PolicyManifest :=
  match document.field? "apiVersion", document.field? "spec" with
  | some _, some spec => decodePolicyManifest spec
  | _, _ => decodePolicyManifest document

end PgRoles.Core
