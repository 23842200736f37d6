import PgRoles.Operator.ContentDigest

/-!
# Parsing of policy resources

The content of a policy and the whole specification, read from the value of a resource. The
declarations that the content shares with manifests are read as manifests read them; roles are not,
because a resource takes passwords from Secrets.
-/

set_option autoImplicit false

namespace PgRoles.Operator

open Std PgRoles.Core PgRoles.Lib

/-! ## Content -/

/-- An integer that is not negative. -/
def decodeNat (v : Json) : Option Nat :=
  (decodeInt v).bind fun n => if 0 ≤ n then some n.toNat else none

/-- A reference to a Secret by its name. -/
def decodeSecretReference (v : Json) : Option SecretReference := do
  let name ← readRequired decodeText (v.field? "name")
  return { name }

/-- What a generated password is to look like; every member is optional. -/
def decodeGeneratePasswordSpec (v : Json) : Option GeneratePasswordSpec := do
  guard v.isObject
  let length ← readOptional decodeNat (v.field? "length")
  let secretName ← readOptional decodeText (v.field? "secretName")
  let secretKey ← readOptional decodeText (v.field? "secretKey")
  return { length, secretName, secretKey }

/-- Where a role's password comes from; every member is optional. -/
def decodePasswordSpec (v : Json) : Option PasswordSpec := do
  guard v.isObject
  let secretRef ← readOptional decodeSecretReference (v.field? "secretRef")
  let secretKey ← readOptional decodeText (v.field? "secretKey")
  let generate ← readOptional decodeGeneratePasswordSpec (v.field? "generate")
  return { secretRef, secretKey, generate }

/-- A role of the policy; only its name is required. -/
def decodeRoleSpec (v : Json) : Option RoleSpec := do
  let flag (name : String) := readOptional decodeFlag (v.field? name)
  let name ← readRequired decodeText (v.field? "name")
  let external ← readDefaulted decodeFlag false (v.field? "external")
  let preserveUndeclaredGrants ← readDefaulted decodeFlag false
    (v.field? "preserve_undeclared_grants")
  let login ← flag "login"
  let superuser ← flag "superuser"
  let createdb ← flag "createdb"
  let createrole ← flag "createrole"
  let inherit ← flag "inherit"
  let replication ← flag "replication"
  let bypassrls ← flag "bypassrls"
  let connectionLimit ← readOptional decodeInt (v.field? "connection_limit")
  let comment ← readOptional decodeText (v.field? "comment")
  let password ← readOptional decodePasswordSpec (v.field? "password")
  let passwordValidUntil ← readOptional decodeText (v.field? "password_valid_until")
  let config ← readDefaulted decodeConfig ∅ (v.field? "config")
  return {
    name := name, external, preserveUndeclaredGrants, login, superuser, createdb, createrole
    inherit, replication, bypassrls, connectionLimit, comment, password, passwordValidUntil
    config }

/-- A mode by its text. -/
def decodeReconciliationMode : Json → Option ReconciliationMode :=
  decodeEnum [.authoritative, .additive, .adopt] reconciliationModeText

/-- The content of a policy; members that are missing take their defaults. -/
def decodePolicyContent (v : Json) : Option PolicyContent := do
  guard v.isObject
  let reconciliationMode ← readDefaulted decodeReconciliationMode .authoritative
    (v.field? "reconciliation_mode")
  let defaultOwner ← readOptional decodeText (v.field? "default_owner")
  let rolePattern ← readOptional decodeText (v.field? "role_pattern")
  let profiles ← readDefaulted (decodeMap decodeProfile) ∅ (v.field? "profiles")
  let schemas ← readDefaulted (decodeList decodeSchemaBinding) [] (v.field? "schemas")
  let roles ← readDefaulted (decodeList decodeRoleSpec) [] (v.field? "roles")
  let grants ← readDefaulted (decodeList decodeGrant) [] (v.field? "grants")
  let defaultPrivileges ← readDefaulted (decodeList decodeDefaultPrivilege) []
    (v.field? "default_privileges")
  let memberships ← readDefaulted (decodeList decodeMembership) [] (v.field? "memberships")
  let retirements ← readDefaulted (decodeList decodeRoleRetirement) [] (v.field? "retirements")
  return {
    reconciliationMode := reconciliationMode, rolePattern, defaultOwner, profiles, schemas, roles
    grants, defaultPrivileges, memberships, retirements }

/-! ## Declared content -/

/-- The fields of a default privilege, in a profile or below a declaration. -/
def defaultPrivilegeGrantShape : Shape :=
  .record (("privileges", .list .leaf) :: leaves ["role", "on_type", "ensure"])

/-- The fields of a grant: its target stands under any of the given keys. -/
def grantShape (objectKeys : List String) : Shape :=
  .record ([("privileges", .list .leaf)] ++
    objectKeys.map (fun key => (key, .record (leaves ["type", "schema", "name"]))) ++
    leaves ["role", "ensure"])

/-- The fields of a grant of a profile. -/
def profileGrantShape (objectKeys : List String) : Shape :=
  .record ([("privileges", .list .leaf)] ++
    objectKeys.map (fun key => (key, .record (leaves ["type", "name"]))) ++ leaves ["ensure"])

/-- The fields of a profile. -/
def profileShape (objectKeys : List String) : Shape :=
  .record ([("grants", .list (profileGrantShape objectKeys)),
    ("default_privileges", .list defaultPrivilegeGrantShape), ("config", .map .leaf)] ++
    leaves ["login", "inherit"])

/-- The fields of a role; the two types of roles have different passwords. -/
def roleShape (password : Shape) : Shape :=
  .record ([("password", password), ("config", .map .leaf)] ++
    leaves ["name", "external", "preserve_undeclared_grants", "login", "superuser", "createdb",
      "createrole", "inherit", "replication", "bypassrls", "connection_limit", "comment",
      "password_valid_until"])

/-- The fields below the content keys of a policy. -/
def policyShape (objectKeys : List String) (password : Shape) : Shape :=
  let schemaBinding := Shape.record
    (("profiles", .list .leaf) :: leaves ["name", "role_pattern", "owner"])
  let defaultPrivilege := Shape.record
    (("scope", .record (leaves ["type", "schema"])) ::
      ("grant", .list defaultPrivilegeGrantShape) :: leaves ["owner", "schema"])
  let membership := Shape.record
    (("members", .list (.record (leaves ["name", "inherit", "admin"]))) ::
      leaves ["role", "exclusive"])
  let retirement := Shape.record
    (leaves ["role", "reassign_owned_to", "drop_owned", "terminate_sessions"])
  .record
    ([("profiles", .map (profileShape objectKeys)), ("roles", .list (roleShape password)),
      ("grants", .list (grantShape objectKeys)), ("schemas", .list schemaBinding),
      ("default_privileges", .list defaultPrivilege), ("memberships", .list membership),
      ("retirements", .list retirement)] ++
      leaves ["reconciliation_mode", "default_owner", "role_pattern"])

/-- The fields of the content that its types declare; the resource schema is made from them, and it
knows no aliases. -/
def contentShape : Shape :=
  policyShape ["object"] (.record
    (("secretRef", .record (leaves ["name"])) ::
      ("generate", .record (leaves ["length", "secretName", "secretKey"])) :: leaves ["secretKey"]))

/-- The fields that the types of a manifest read below the content keys: a grant may have its target
under an alias, and a password is the name of a variable. -/
def manifestShape : Shape := policyShape ["object", "on"] (.record (leaves ["from_env"]))

/-! ## Connection -/

/-- A key of a Secret. -/
def decodeSecretKeySelector (v : Json) : Option SecretKeySelector := do
  let name ← readRequired decodeText (v.field? "name")
  let key ← readRequired decodeText (v.field? "key")
  return { name, key }

/-- How the operator signs in, by its `type`. -/
def decodeConnectionAuth (v : Json) : Option ConnectionAuth := do
  match ← readRequired decodeText (v.field? "type") with
  | "gcp_workload_identity" =>
      let account ← readOptional decodeText (v.field? "impersonateServiceAccount")
      let scope ← readOptional decodeText (v.field? "scope")
      return .gcpWorkloadIdentity account scope
  | "azure_workload_identity" =>
      match v with
      | .obj fields => return .azureWorkloadIdentity ((fields.map (·.1)).filter (· ≠ "type"))
      | _ => none
  | _ => none

/-- A port: an integer of 16 bits. -/
def decodePort (v : Json) : Option UInt16 :=
  (decodeNat v).bind fun n => if n < UInt16.size then some n.toUInt16 else none

/-- The parts of a connection; each is given as a text or by a Secret. -/
def decodeConnectionParams (v : Json) : Option ConnectionParams := do
  guard v.isObject
  let text (name : String) := readOptional decodeText (v.field? name)
  let secret (name : String) := readOptional decodeSecretKeySelector (v.field? name)
  let host ← text "host"
  let hostSecret ← secret "hostSecret"
  let port ← readOptional decodePort (v.field? "port")
  let portSecret ← secret "portSecret"
  let dbname ← text "dbname"
  let dbnameSecret ← secret "dbnameSecret"
  let username ← text "username"
  let usernameSecret ← secret "usernameSecret"
  let password ← text "password"
  let passwordSecret ← secret "passwordSecret"
  let auth ← readOptional decodeConnectionAuth (v.field? "auth")
  let sslMode ← text "sslMode"
  let sslModeSecret ← secret "sslModeSecret"
  let setRole ← text "setRole"
  return {
    host := host, hostSecret, port, portSecret, dbname, dbnameSecret, username, usernameSecret
    password, passwordSecret, auth, sslMode, sslModeSecret, setRole }

/-- The demand for a physical identity is read and forgotten. -/
def decodeConnectionSpec (v : Json) : Option ConnectionSpec := do
  guard v.isObject
  let secretRef ← readOptional decodeSecretReference (v.field? "secretRef")
  let secretKey ← readOptional decodeText (v.field? "secretKey")
  let params ← readOptional decodeConnectionParams (v.field? "params")
  let _ ← readOptional decodeFlag (v.field? "requirePhysicalIdentity")
  return { secretRef, secretKey, params }

/-! ## The specification -/

/-- Connection and content, and the fields that say how the policy is executed. -/
def decodePostgresPolicySpec (v : Json) : Option PostgresPolicySpec := do
  let connection ← readRequired decodeConnectionSpec (v.field? "connection")
  let _ ← readDefaulted decodeText "5m" (v.field? "interval")
  let _ ← readDefaulted decodeFlag false (v.field? "suspend")
  let _ ← readDefaulted (decodeEnum ["apply", "observe", "plan"] id) "apply" (v.field? "mode")
  let _ ← readDefaulted decodeFlag false (v.field? "allow_schema_owner_transfers")
  let _ ← readOptional (decodeEnum ["manual", "auto"] id) (v.field? "approval")
  let content ← decodePolicyContent v
  return { connection, content }

end PgRoles.Operator
