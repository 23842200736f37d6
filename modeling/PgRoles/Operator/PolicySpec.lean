import PgRoles.Core.Plan

/-!
# The spec of a policy object

The spec of a policy carries the content of a manifest, with passwords that come from Secrets
instead of the environment, and a connection. This module has the spec, its conversion into a
manifest, and the two validations a reconcile starts with: of the passwords and of the connection.

The schedule of a policy and its mode of approval are part of the runs of the operator and not of
this module.
-/

set_option autoImplicit false

namespace PgRoles.Operator

open Std PgRoles.Lib PgRoles.Core

/-! ## Kubernetes names -/

/-- The length of a resource name. -/
def maxResourceNameLength : Nat := 253

/-- Lowercase ASCII letters and digits. -/
def isLowerAlnum (c : Char) : Bool := isAsciiLower c || isAsciiDigit c

/-- An ASCII letter or digit. -/
def isAsciiAlnum (c : Char) : Bool := isAsciiLower c || isAsciiUpper c || isAsciiDigit c

/-- One segment of a resource name, without dots. -/
def isDns1123Label (label : List Char) : Bool :=
  label.head?.any isLowerAlnum && label.getLast?.any isLowerAlnum &&
    label.all fun c => isLowerAlnum c || c == '-'

/-- DNS labels separated by dots, of limited length. -/
def isValidResourceName (value : String) : Bool :=
  !value.isEmpty && value.utf8ByteSize ≤ maxResourceNameLength &&
    (value.toList.splitOn '.').all isDns1123Label

/-- The longest start of the characters that fits into the bytes. -/
def takeBytes : Nat → List Char → List Char
  | _, [] => []
  | bytes, c :: cs => if c.utf8Size ≤ bytes then c :: takeBytes (bytes - c.utf8Size) cs else []

/-- Cut a name to the bytes, then drop the dots and dashes the cut leaves at the end. -/
def truncateNamePrefix (name : String) (maxBytes : Nat) : String :=
  String.ofList ((takeBytes maxBytes name.toList).rdropWhile fun c => c == '.' || c == '-')

/-- Append one character to a sanitized segment: a run of other characters becomes one dash, and
none stands at the start. -/
def pushSanitized (acc : List Char) (c : Char) : List Char :=
  let lowered := if isAsciiUpper c then c.toLower else c
  if isLowerAlnum lowered then acc ++ [lowered]
  else if acc.isEmpty || acc.getLast? == some '-' then acc
  else acc ++ ['-']

/-- The text as a part of a DNS label, or the fallback when nothing of it is left. -/
def sanitizeDnsLabelSegment (input fallback : String) : String :=
  let trimmed := (input.toList.foldl pushSanitized []).rdropWhile (· == '-')
  if trimmed.isEmpty then fallback else String.ofList trimmed

/-- A key of a Secret's data. -/
def isValidSecretKey (key : String) : Bool :=
  !key.isEmpty && key.toList.all fun c => isAsciiAlnum c || c == '-' || c == '_' || c == '.'

/-! ## Passwords -/

/-- A Secret by its name. -/
structure SecretReference where
  name : String
  deriving DecidableEq

/-- A key of a Secret. -/
structure SecretKeySelector where
  name : String
  key : String
  deriving DecidableEq

/-- A password that the operator generates; every option has a default. -/
structure GeneratePasswordSpec where
  length : Option Nat := none
  secretName : Option String := none
  secretKey : Option String := none
  deriving DecidableEq

/-- Where the password of a role comes from; exactly one of `secretRef` and `generate` is to be
set. -/
structure PasswordSpec where
  secretRef : Option SecretReference := none
  secretKey : Option String := none
  generate : Option GeneratePasswordSpec := none
  deriving DecidableEq

/-- The least length of a generated password. -/
def minPasswordLength : Nat := 16

/-- The greatest length of a generated password. -/
def maxPasswordLength : Nat := 128

/-- The key that holds the verifier of a generated password. -/
def generatedVerifierKey : String := "verifier"

/-- The Secret of a generated password, named after the policy and the role. -/
def defaultGeneratedSecretName (policyName roleName : String) : String :=
  let policy := sanitizeDnsLabelSegment policyName "policy"
  let role := sanitizeDnsLabelSegment roleName "role"
  let truncated := truncateNamePrefix (policy ++ "-pgr-" ++ role) maxResourceNameLength
  if truncated.isEmpty then "pgroles-generated-password" else truncated

/-- The declared Secret, or the default one. -/
def generatedSecretName (policyName roleName : String) (spec : GeneratePasswordSpec) : String :=
  spec.secretName.getD (defaultGeneratedSecretName policyName roleName)

/-- The declared key, or the default one. -/
def generatedSecretKey (spec : GeneratePasswordSpec) : String := spec.secretKey.getD "password"

/-! ## Connections -/

/-- Authentication by a cloud provider; of the fields that Azure does not support, the names are
kept. -/
inductive ConnectionAuth where
  | gcpWorkloadIdentity (impersonateServiceAccount scope : Option String)
  | azureWorkloadIdentity (unsupportedFields : List String)
  deriving DecidableEq

/-- Parameters of a connection, each a literal or a reference to a Secret. -/
structure ConnectionParams where
  host : Option String := none
  hostSecret : Option SecretKeySelector := none
  port : Option UInt16 := none
  portSecret : Option SecretKeySelector := none
  dbname : Option String := none
  dbnameSecret : Option SecretKeySelector := none
  username : Option String := none
  usernameSecret : Option SecretKeySelector := none
  password : Option String := none
  passwordSecret : Option SecretKeySelector := none
  auth : Option ConnectionAuth := none
  sslMode : Option String := none
  sslModeSecret : Option SecretKeySelector := none
  setRole : Option String := none
  deriving DecidableEq

/-- A connection: a Secret that holds the URL, or parameters. -/
structure ConnectionSpec where
  secretRef : Option SecretReference := none
  secretKey : Option String := none
  params : Option ConnectionParams := none
  deriving DecidableEq

/-- The declared key of the connection's Secret, or the default one. -/
def ConnectionSpec.effectiveSecretKey (connection : ConnectionSpec) : String :=
  connection.secretKey.getD "DATABASE_URL"

/-! ## The spec -/

/-- A role of a spec. -/
structure RoleSpec where
  name : String
  external : Bool := false
  preserveUndeclaredGrants : Bool := false
  login : Option Bool := none
  superuser : Option Bool := none
  createdb : Option Bool := none
  createrole : Option Bool := none
  inherit : Option Bool := none
  replication : Option Bool := none
  bypassrls : Option Bool := none
  connectionLimit : Option Int := none
  comment : Option String := none
  password : Option PasswordSpec := none
  passwordValidUntil : Option String := none
  config : BTreeMap String String := ∅
  deriving DecidableEq

/-- The content of a policy, which a candidate proposes and a promotion copies. -/
structure PolicyContent where
  reconciliationMode : ReconciliationMode := .authoritative
  rolePattern : Option String := none
  defaultOwner : Option String := none
  profiles : BTreeMap String Profile := ∅
  schemas : List SchemaBinding := []
  roles : List RoleSpec := []
  grants : List Grant := []
  defaultPrivileges : List DefaultPrivilege := []
  memberships : List Membership := []
  retirements : List RoleRetirement := []
  deriving DecidableEq

/-- The spec of a policy: its connection and its content. -/
structure PostgresPolicySpec where
  connection : ConnectionSpec
  content : PolicyContent := {}
  deriving DecidableEq

/-- A role in the manifest; passwords are resolved from Secrets and left out. -/
def RoleSpec.toDefinition (role : RoleSpec) : RoleDefinition :=
  { name := role.name
    external := role.external
    preserveUndeclaredGrants := role.preserveUndeclaredGrants
    login := role.login
    superuser := role.superuser
    createdb := role.createdb
    createrole := role.createrole
    inherit := role.inherit
    replication := role.replication
    bypassrls := role.bypassrls
    connectionLimit := role.connectionLimit
    comment := role.comment
    password := none
    passwordValidUntil := role.passwordValidUntil
    config := role.config }

/-- The manifest of a content. -/
def PolicyContent.toPolicyManifest (content : PolicyContent) : PolicyManifest :=
  { defaultOwner := content.defaultOwner
    rolePattern := content.rolePattern
    profiles := content.profiles
    schemas := content.schemas
    roles := content.roles.map RoleSpec.toDefinition
    grants := content.grants
    defaultPrivileges := content.defaultPrivileges
    memberships := content.memberships
    retirements := content.retirements }

/-- The manifest that the content declares. -/
def PostgresPolicySpec.toPolicyManifest (spec : PostgresPolicySpec) : PolicyManifest :=
  spec.content.toPolicyManifest

/-! ## Validation of passwords -/

/-- Why the password of a role is rejected. -/
inductive PasswordValidationError where
  | passwordWithoutLogin (role : String)
  | invalidPasswordMode (role : String)
  | invalidGeneratedLength (role : String) (min max : Nat)
  | invalidGeneratedSecretName (role name : String)
  | invalidSecretKey (role field key : String)
  | reservedGeneratedSecretKey (role key : String)
  deriving DecidableEq

/-- A generated password has a length in range, and a Secret and key with valid names. -/
def validateGeneratedPassword (policyName role : String) (generate : GeneratePasswordSpec) :
    Except PasswordValidationError Unit := do
  rejectIf (generate.length.any fun n => n < minPasswordLength || maxPasswordLength < n)
    (.invalidGeneratedLength role minPasswordLength maxPasswordLength)
  let secretName := generatedSecretName policyName role generate
  rejectIf (!isValidResourceName secretName) (.invalidGeneratedSecretName role secretName)
  let secretKey := generatedSecretKey generate
  rejectIf (!isValidSecretKey secretKey) (.invalidSecretKey role "generate.secretKey" secretKey)
  rejectIf (secretKey == generatedVerifierKey) (.reservedGeneratedSecretKey role secretKey)

/-- A role with a password can log in, and its password has one source. -/
def validatePasswordSpec (policyName : String) (role : RoleSpec) :
    Except PasswordValidationError Unit :=
  match role.password with
  | none => .ok ()
  | some password => do
      rejectIf (role.login != some true) (.passwordWithoutLogin role.name)
      match password.secretRef, password.generate with
      | some _, none =>
          let secretKey := password.secretKey.getD role.name
          rejectIf (!isValidSecretKey secretKey)
            (.invalidSecretKey role.name "secretKey" secretKey)
      | none, some generate => validateGeneratedPassword policyName role.name generate
      | _, _ => .error (.invalidPasswordMode role.name)

/-- The passwords of all roles are valid. -/
def PostgresPolicySpec.validatePasswordSpecs (spec : PostgresPolicySpec) (policyName : String) :
    Except PasswordValidationError Unit :=
  spec.content.roles.forM (validatePasswordSpec policyName)

/-! ## Validation of the connection -/

/-- Why a connection is rejected. -/
inductive ConnectionValidationError where
  | bothModesSet
  | neitherModeSet
  | emptySecretKeyRef (field detail : String)
  | invalidSslMode (value : String)
  | emptyLiteral (field : String)
  | neitherFieldSet (field : String)
  | bothFieldsSet (field : String)
  | emptyAuthField (field : String)
  | authWithPassword
  | unsupportedAuthField (field : String)
  | invalidRoleName (value : String)
  deriving DecidableEq

/-- Nothing is left of the text without white space at both ends. -/
def isBlank (text : String) : Bool := text.toList.all isWhitespace

/-- A selector names a Secret and a key. -/
def validateSecretSelector (field : String) (selector : SecretKeySelector) :
    Except ConnectionValidationError Unit := do
  rejectIf (isBlank selector.name) (.emptySecretKeyRef field "name must not be empty")
  rejectIf (isBlank selector.key) (.emptySecretKeyRef field "key must not be empty")

/-- Exactly one of a literal and a reference. -/
def validateRequiredField (field : String) (literal : Option String)
    (secret : Option SecretKeySelector) : Except ConnectionValidationError Unit :=
  match literal, secret with
  | some _, some _ => .error (.bothFieldsSet field)
  | none, none => .error (.neitherFieldSet field)
  | some text, none => rejectIf (isBlank text) (.emptyLiteral field)
  | none, some selector => validateSecretSelector field selector

/-- At most one of a literal and a reference. -/
def validateOptionalField (field : String) (literal : Option String)
    (secret : Option SecretKeySelector) : Except ConnectionValidationError Unit := do
  rejectIf (literal.isSome && secret.isSome) (.bothFieldsSet field)
  rejectIf (literal.any isBlank) (.emptyLiteral field)
  match secret with
  | some selector => validateSecretSelector field selector
  | none => .ok ()

/-- The SSL modes that a connection can ask for. -/
def validSslModes : List String :=
  ["disable", "allow", "prefer", "require", "verify-ca", "verify-full"]

/-- A role that a session can switch to without quotes. -/
def isValidSetRoleIdentifier (value : String) : Bool :=
  match value.toList with
  | [] => false
  | c :: cs =>
      (isAsciiLower c || isAsciiUpper c || c == '_') &&
        cs.all fun c => isAsciiAlnum c || c == '_' || c == '$' || c == '-'

/-- The password field, or the provider in its place. -/
def validateAuth (params : ConnectionParams) : Except ConnectionValidationError Unit :=
  match params.auth with
  | none => validateRequiredField "password" params.password params.passwordSecret
  | some auth => do
      rejectIf (params.password.isSome || params.passwordSecret.isSome) .authWithPassword
      match auth with
      | .gcpWorkloadIdentity impersonateServiceAccount scope =>
          rejectIf (impersonateServiceAccount.any isBlank)
            (.emptyAuthField "impersonateServiceAccount")
          rejectIf (scope.any isBlank) (.emptyAuthField "scope")
      | .azureWorkloadIdentity unsupportedFields =>
          ["scope", "impersonateServiceAccount"].forM fun field =>
            rejectIf (unsupportedFields.contains field) (.unsupportedAuthField field)

/-- Each part of a connection is given once, and its fixed values are valid. -/
def validateConnectionParams (params : ConnectionParams) :
    Except ConnectionValidationError Unit := do
  validateRequiredField "host" params.host params.hostSecret
  validateRequiredField "dbname" params.dbname params.dbnameSecret
  validateRequiredField "username" params.username params.usernameSecret
  validateAuth params
  validateOptionalField "port" (params.port.map fun port => toString port.toNat) params.portSecret
  validateOptionalField "sslMode" params.sslMode params.sslModeSecret
  rejectIf (params.sslMode.any fun mode => !validSslModes.contains mode)
    (.invalidSslMode (params.sslMode.getD ""))
  rejectIf (params.setRole.any isBlank) (.emptyLiteral "setRole")
  rejectIf (params.setRole.any fun role => !isValidSetRoleIdentifier role)
    (.invalidRoleName (params.setRole.getD ""))

/-- A connection is given as a URL in a Secret or in parts, not both. -/
def validateConnectionSpec (connection : ConnectionSpec) :
    Except ConnectionValidationError Unit :=
  match connection.secretRef, connection.params with
  | some _, none => .ok ()
  | none, some params => validateConnectionParams params
  | some _, some _ => .error .bothModesSet
  | none, none => .error .neitherModeSet

end PgRoles.Operator
